import StateBuffer.Files.Basic
import StateBuffer.Source.Set
import StateBuffer.Text.Quoted

/-!
The source files of a project: all files with the extension of the language below a directory, in
the order of their paths. The dot path of a file is its path from that directory without the
extension, with dots for slashes.
-/

namespace StateBuffer

structure ReadError where
  path : Bytes
  cause : FileError
  deriving DecidableEq, Repr

def ReadError.message (e : ReadError) : Bytes :=
  "cannot read " ++ Bytes.quote e.path ++ ": " ++ e.cause.message

structure SourceText where
  path : Bytes
  dotPath : Bytes
  content : Bytes
  hadMark : Bool
  deriving DecidableEq, Repr

namespace Project

def extension : Bytes := ".gpex"

/-- The dot path of a file from its path below the source directory. -/
def dotPath (path : Bytes) : Bytes :=
  ((Bytes.dropEnd? path extension).getD path).map fun b => if b = Path.separator then 0x2E else b

/-- The paths of all source files at or below a path, in order. Links are not entered, but one with
the extension counts as a file. -/
def sourcePaths (fs : FileSystem) (root : Bytes) : Except ReadError (List Bytes) :=
  match fs.lookUp false "lstat" root with
  | .error e => .error ⟨root, e⟩
  | .ok (place, .directory) =>
    let found := (fs.below place).filterMap fun (parts, n) =>
      if n = .directory then none else some (Path.join (root :: parts))
    .ok ((found.filter fun p => Path.extension p = extension).mergeSort Bytes.le)
  | .ok _ => .ok (if Path.extension root = extension then [root] else [])

def readSource (fs : FileSystem) (root path : Bytes) : Except ReadError SourceText :=
  match fs.read path with
  | .error e => .error ⟨path, e⟩
  | .ok raw =>
    let (content, hadMark) := decodeSource raw
    .ok ⟨path, dotPath ((Path.relative? root path).getD path), content, hadMark⟩

def parallelReads : Nat := 8

/-- The first failure to be told. A failing read lets no further ones begin, so only those that
begin before any other of them has ended can be the first to end: the first `parallelReads`. The
race tells which of these it is. -/
def firstFailure? (race : Nat) (failures : List ReadError) : Option ReadError :=
  let started := failures.take parallelReads
  started[min race (started.length - 1)]?

/-- The failures of some reads in the order of the files. -/
def failuresOf (results : List (Except ReadError SourceText)) : List ReadError :=
  results.filterMap fun
    | .ok _ => none
    | .error e => some e

/-- Reads files side by side. -/
def readAll (fs : FileSystem) (race : Nat) (root : Bytes) (paths : List Bytes) :
    Except ReadError (List SourceText) :=
  let results := paths.map (readSource fs root)
  match firstFailure? race (failuresOf results) with
  | some e => .error e
  | none => .ok (results.filterMap Except.toOption)

/-- Reads all source files at or below a path. -/
def readSources (fs : FileSystem) (race : Nat) (root : Bytes) :
    Except ReadError (List SourceText) := do
  let paths ← sourcePaths fs root
  readAll fs race root paths

/-- The set with one more file that was read. -/
def storeSource (set : SourceSet) (f : SourceText) : SourceSet :=
  (set.store f.path f.dotPath f.content (if f.hadMark then FileFlags.byteOrderMark else 0)).2

def addSource (set : SourceSet) (f : SourceText) : Except Fault SourceSet :=
  (set.add f.path f.dotPath f.content (if f.hadMark then FileFlags.byteOrderMark else 0)).map
    Prod.snd

/-- A path as it is shown: from the source directory on where that is possible. -/
def displayPath (root path : Bytes) : Bytes := (Path.relative? root path).getD path

end Project

end StateBuffer
