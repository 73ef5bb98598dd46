import StateBuffer.Path

/-!
A file system as far as this program sees it: files, directories and symbolic links by their
locations, and a working directory. A path is followed component by component; a link in the middle
is always followed, a link at the end only when asked for. A slash at the end of a path asks for a
directory. Names and paths have limits, and no path has a zero byte.
-/

namespace StateBuffer

inductive Node where
  | file (data : Bytes)
  | link (target : Bytes)
  | directory
  deriving DecidableEq, Repr, Inhabited

/-- Why the system refuses an operation. -/
inductive OsError where
  | noEntry
  | notDirectory
  | isDirectory
  | exists
  | tooManyLinks
  | busy
  | noSpace
  | nameTooLong
  | invalid
  deriving DecidableEq, Repr

def OsError.message : OsError → Bytes
  | .noEntry => "no such file or directory"
  | .notDirectory => "not a directory"
  | .isDirectory => "is a directory"
  | .exists => "file exists"
  | .tooManyLinks => "too many levels of symbolic links"
  | .busy => "device or resource busy"
  | .noSpace => "no space left on device"
  | .nameTooLong => "file name too long"
  | .invalid => "invalid argument"

/-- A refused operation: its name, the path it was asked for, and the reason. -/
structure FileError where
  operation : Bytes
  path : Bytes
  reason : OsError
  deriving DecidableEq, Repr

def FileError.message (e : FileError) : Bytes :=
  e.operation ++ " " ++ e.path ++ ": " ++ e.reason.message

/-- The components from the root to a node. -/
abbrev Location := List Bytes

/-- Nodes by location, the root not listed, and the working directory. -/
structure FileSystem where
  nodes : List (Location × Node)
  workDir : Location
  deriving Inhabited

/-- Where a path leads: to a node, or to a name that is free in a directory. -/
inductive Found where
  | node (place : Location) (n : Node)
  | missing (parent : Location) (name : Bytes)
  deriving DecidableEq, Repr

namespace FileSystem

def get? (fs : FileSystem) (place : Location) : Option Node :=
  if place = [] then some .directory
  else (fs.nodes.find? fun n => n.1 = place).map Prod.snd

def isDirectory (fs : FileSystem) (place : Location) : Bool := fs.get? place = some .directory

def put (fs : FileSystem) (place : Location) (n : Node) : FileSystem :=
  { fs with nodes := (fs.nodes.filter fun m => m.1 ≠ place) ++ [(place, n)] }

def erase (fs : FileSystem) (place : Location) : FileSystem :=
  { fs with nodes := fs.nodes.filter fun m => m.1 ≠ place }

/-- The components of a path; a slash at the end counts as a last component `.`. -/
def steps (path : Bytes) : List Bytes :=
  (Bytes.split Path.separator path).filter (fun c => !c.isEmpty)
    ++ if path.getLast? = some Path.separator then [("." : Bytes)] else []

def maxLinks : Nat := 40

def maxName : Nat := 255

def maxPath : Nat := 4095

/-- Follows components from a location. `links` links may still be met, and one at the end is
followed only when asked for. -/
def walk (fs : FileSystem) (follow : Bool) (links : Nat) (here : Location) (todo : List Bytes) :
    Except OsError Found :=
  match todo with
  | [] => match fs.get? here with
    | some n => .ok (.node here n)
    | none => .error .noEntry
  | c :: rest =>
    if !fs.isDirectory here then .error .notDirectory
    else if c = "." then fs.walk follow links here rest
    else if c = ".." then fs.walk follow links here.dropLast rest
    else if maxName < c.length then .error .nameTooLong
    else match fs.get? (here ++ [c]) with
      | none => if rest = [] then .ok (.missing here c) else .error .noEntry
      | some (.link target) =>
        if rest = [] ∧ !follow then .ok (.node (here ++ [c]) (.link target))
        else match links with
          | 0 => .error .tooManyLinks
          | links + 1 =>
            fs.walk follow links (if Path.isAbsolute target then [] else here)
              (steps target ++ rest)
      | some _ => fs.walk follow links (here ++ [c]) rest
termination_by (links, todo.length)

/-- Where a path begins, if it can be a path at all. -/
def start (fs : FileSystem) (path : Bytes) : Except OsError Location :=
  if path.contains 0 then .error .invalid
  else if path.isEmpty then .error .noEntry
  else if maxPath < path.length then .error .nameTooLong
  else .ok (if Path.isAbsolute path then [] else fs.workDir)

def resolve (fs : FileSystem) (follow : Bool) (path : Bytes) : Except OsError Found := do
  fs.walk follow maxLinks (← fs.start path) (steps path)

def lookUp (fs : FileSystem) (follow : Bool) (operation path : Bytes) :
    Except FileError (Location × Node) :=
  match fs.resolve follow path with
  | .ok (.node place n) => .ok (place, n)
  | .ok (.missing _ _) => .error ⟨operation, path, .noEntry⟩
  | .error e => .error ⟨operation, path, e⟩

/-- What a path names, links followed. -/
def stat (fs : FileSystem) (path : Bytes) : Except FileError Node :=
  (fs.lookUp true "stat" path).map Prod.snd

def read (fs : FileSystem) (path : Bytes) : Except FileError Bytes := do
  let (_, n) ← fs.lookUp true "open" path
  match n with
  | .file data => return data
  | _ => .error ⟨"read", path, .isDirectory⟩

def workPath (fs : FileSystem) : Bytes := Path.ofComponents true fs.workDir

/-- A path seen from the root. -/
def absolute (fs : FileSystem) (path : Bytes) : Bytes := Path.absolute fs.workPath path

/-- The nodes below a location with the components from there to them. -/
def below (fs : FileSystem) (place : Location) : List (List Bytes × Node) :=
  fs.nodes.filterMap fun (spot, n) =>
    if place.isPrefixOf spot && place.length < spot.length then some (spot.drop place.length, n)
    else none

end FileSystem

end StateBuffer
