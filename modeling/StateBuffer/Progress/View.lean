import StateBuffer.Progress.Event
import StateBuffer.Text.Terminal

/-!
The progress of a build on the screen: a header with a turning mark, a line for every file, and a
bar. Events move files and the header forward; once all events have come, the header says whether
the build failed.
-/

namespace StateBuffer

/-- A file on the screen. It is final when it was checked, was skipped, or failed. -/
structure FileProgress where
  path : Bytes
  status : Bytes
  stage : Stage
  isFinal : Bool
  deriving DecidableEq, Repr, Inhabited

structure ProgressView where
  title : Bytes
  items : List FileProgress
  stage : Bytes
  failed : Bool
  done : Bool
  width : Nat
  barWidth : Nat
  frame : Nat
  deriving DecidableEq, Repr, Inhabited

def Stage.activity : Stage → Bytes
  | .read => "reading"
  | .parse => "parsing"
  | .index => "indexing"
  | .validate => "validating"
  | .generate => "generating"
  | .verify => "verifying"
  | .write => "writing"
  | .other _ => []

/-- How far a file is that has come to a stage. -/
def Stage.share : Stage → Fraction
  | .read => ⟨1, 10⟩
  | .parse => ⟨3, 10⟩
  | .index => ⟨1, 2⟩
  | .validate => ⟨4, 5⟩
  | _ => ⟨0, 1⟩

def ProgressEvent.label (e : ProgressEvent) : Bytes :=
  match e.status with
  | .working => e.stage.activity
  | .other _ => []
  | status => status.name

def FileProgress.apply (e : ProgressEvent) (f : FileProgress) : FileProgress :=
  { f with
    status := if e.label.isEmpty then f.status else e.label
    stage := if e.status = .queued then f.stage else e.stage
    isFinal := e.status = .error || e.status = .skipped
      || (e.status = .done && e.stage = .validate) }

namespace ProgressView

/-- The place of a file on the screen, a new last line if it has none yet. -/
def track (v : ProgressView) (file : Bytes) : ProgressView :=
  if v.items.any (·.path = file) then v
  else { v with items := v.items ++ [⟨file, "queued", .other [], false⟩] }

/-- The screen before anything happened. -/
def start (title : Bytes) (files : List Bytes) : ProgressView :=
  files.foldl track ⟨title, [], [], false, false, 80, 76, 0⟩

def apply (v : ProgressView) (e : ProgressEvent) : ProgressView :=
  if e.isOverall then
    { v with
      stage := if e.label.isEmpty then v.stage else e.label
      failed := v.failed || e.status = .error }
  else
    let v := v.track e.file
    { v with items := v.items.map fun f => if f.path = e.file then f.apply e else f }

def finish (v : ProgressView) : ProgressView := { v with done := true }

/-- The marks that take turns before the header. -/
def marks : List Bytes := ["⣾ ", "⣽ ", "⣻ ", "⢿ ", "⡿ ", "⣟ ", "⣯ ", "⣷ "]

/-- The next mark, until the end. -/
def tick (v : ProgressView) : ProgressView :=
  if v.done then v else { v with frame := (v.frame + 1) % marks.length }

def resize (v : ProgressView) (width : Int) : ProgressView :=
  if width ≤ 0 then v else { v with width := width.toNat, barWidth := max (width.toNat - 4) 10 }

/-- How far the build is: the mean of the files' shares. -/
def progress (v : ProgressView) : Fraction :=
  if v.items.isEmpty then ⟨0, 1⟩
  else
    let sum := v.items.foldl (fun sum f =>
      Fraction.add sum (if f.isFinal then ⟨1, 1⟩ else f.stage.share.nearest)) ⟨0, 1⟩
    sum.div v.items.length

def header (v : ProgressView) : Bytes :=
  let text := if v.stage.isEmpty then v.title else v.title ++ " (" ++ v.stage ++ ")"
  if v.done && v.failed then "failed: " ++ text
  else if v.done then "done: " ++ text
  else marks.getD v.frame [] ++ " " ++ text

/-- The bar: empty until the end, full then. -/
def bar (v : ProgressView) : Bytes :=
  let cells : Bytes := if v.done then "█" else "░"
  let label : Bytes := if v.done then " 100%" else "   0%"
  (List.replicate (v.barWidth - label.length) cells).flatten ++ label

def fileLine (v : ProgressView) (f : FileProgress) : Bytes :=
  "  " ++ Bytes.padLeft 12 f.status ++ " " ++ Columns.truncate (max (v.width - 16) 20 : Nat) f.path
    ++ "\n"

def render (v : ProgressView) : Bytes :=
  Terminal.block v.header ++ "\n\n" ++ v.items.flatMap v.fileLine ++ "\n" ++ v.bar ++ "\n"

end ProgressView

end StateBuffer
