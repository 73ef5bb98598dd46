import StateBuffer.Data.Json
import StateBuffer.Text.Ansi

/-!
What a build of this program says about itself.
-/

namespace StateBuffer

/-- The version of a build, the commit it was made from, and its date; what is not known is
empty. -/
structure Version where
  number : Bytes
  commit : Bytes
  date : Bytes
  deriving DecidableEq, Repr, Inhabited

namespace Version

def tool : Bytes := "gpex"

def current : Version := ⟨"0.1.0-dev", [], []⟩

/-- The number with a colour for each of its three parts. What follows a dash has none, and a number
without three parts has none at all. -/
def colored (v : Version) (color : Bool) : Bytes :=
  let (core, tail) := Bytes.cut (Bytes.byte '-') v.number
  match Bytes.split (Bytes.byte '.') core with
  | [major, minor, patch] =>
    let rest := tail.getD []
    Style.boldYellow.apply color major ++ "." ++ Style.boldGreen.apply color minor ++ "."
      ++ Style.boldBlue.apply color patch
      ++ if rest.isEmpty then [] else Bytes.byte '-' :: rest
  | _ => v.number

def text (v : Version) (color : Bool) : Bytes :=
  let commit : Bytes := if v.commit.isEmpty then [] else " (" ++ v.commit ++ ")"
  let date : Bytes := if v.date.isEmpty then [] else " built " ++ v.date
  tool ++ " " ++ v.colored color ++ commit ++ date

/-- A build as JSON; what is not known is left out. -/
def json (v : Version) : Json :=
  let known (name : String) (value : Bytes) : List (Bytes × Json) :=
    if value.isEmpty then [] else [Json.entry name (.string value)]
  .object ([Json.entry "tool" (.string tool), Json.entry "version" (.string v.number)]
    ++ known "git_commit" v.commit ++ known "build_date" v.date)

end Version

end StateBuffer
