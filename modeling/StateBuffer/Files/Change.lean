import StateBuffer.Files.Basic

/-!
Changes to the file system: directories made along a path, files written in place, and files saved
through a temporary neighbour that takes the place of the old file in one step. A save that fails at
any step leaves the old file as it was and no temporary file behind, but the directories it made.
-/

namespace StateBuffer

namespace FileSystem

/-- Makes one directory; slashes at the end of the path do not count. -/
def makeDirectory (fs : FileSystem) (path : Bytes) : Except FileError FileSystem :=
  match fs.resolve false (Bytes.trimEndOf Path.separator path) with
  | .ok (.missing parent name) => .ok (fs.put (parent ++ [name]) .directory)
  | .ok (.node _ _) => .error ⟨"mkdir", path, .exists⟩
  | .error e => .error ⟨"mkdir", path, e⟩

/-- A step that the system may refuse for reasons of its own. -/
def attempt {α : Type} (refusal : Option FileError) (step : Except FileError α) :
    Except FileError α :=
  match refusal with
  | some e => .error e
  | none => step

/-- Makes a directory unless it is there by now. -/
def ensureDirectory (refusal : Option FileError) (fs : FileSystem) (path : Bytes) :
    FileSystem × Option FileError :=
  match attempt refusal (fs.makeDirectory path) with
  | .ok fs => (fs, none)
  | .error e => match fs.resolve false path with
    | .ok (.node _ .directory) => (fs, none)
    | _ => (fs, some e)

/-- A path without its last component; the slash before that component stays. -/
def parentPath (path : Bytes) : Bytes :=
  ((path.reverse.dropWhile (· = Path.separator)).dropWhile (· ≠ Path.separator)).reverse

/-- Makes a directory with all directories on the way to it, the outermost first. `refuse` tells
which of them the system refuses for reasons of its own. Directories made before one that could not
be made stay. -/
def makeDirectories (refuse : Bytes → Option FileError) (fs : FileSystem) (path : Bytes) :
    FileSystem × Option FileError :=
  match fs.resolve true path with
  | .ok (.node _ .directory) => (fs, none)
  | .ok (.node _ _) => (fs, some ⟨"mkdir", path, .notDirectory⟩)
  | _ =>
    if _ : parentPath path ≠ [] ∧ (parentPath path).length < path.length then
      match fs.makeDirectories refuse (parentPath path) with
      | (fs, some e) => (fs, some e)
      | (fs, none) => fs.ensureDirectory (refuse path) path
    else fs.ensureDirectory (refuse path) path
termination_by path.length
decreasing_by omega

/-- Writes a file in place, making it if it is not there. A slash at the end asks for a directory,
which can not be written. -/
def write (fs : FileSystem) (path data : Bytes) : Except FileError FileSystem :=
  let refuse (e : OsError) : Except FileError FileSystem := .error ⟨"open", path, e⟩
  if path.getLast? = some Path.separator then
    match (fs.start path).bind fun here =>
      fs.walk true maxLinks here (steps path).dropLast.dropLast with
    | .ok (.node _ .directory) => refuse .isDirectory
    | .ok (.node _ _) => refuse .notDirectory
    | .ok (.missing _ _) => refuse .noEntry
    | .error e => refuse e
  else match fs.resolve true path with
    | .ok (.node place (.file _)) => .ok (fs.put place (.file data))
    | .ok (.node _ _) => refuse .isDirectory
    | .ok (.missing parent name) => .ok (fs.put (parent ++ [name]) (.file data))
    | .error e => refuse e

/-- Puts a node at a path with all directories on the way. What cannot be put there, or is there
already and no file, is left out. -/
def place (fs : FileSystem) (path : Bytes) (n : Node) : FileSystem :=
  match fs.makeDirectories (fun _ => none) (if n = .directory then path else Path.dir path) with
  | (made, some _) => made
  | (made, none) => match n with
    | .directory => made
    | .file data => (made.write path data).toOption.getD made
    | .link target => match made.resolve false path with
      | .ok (.missing parent name) => made.put (parent ++ [name]) (.link target)
      | _ => made

def entryPath (dir name : Bytes) : Bytes := (if dir = "/" then dir else dir ++ "/") ++ name

def temporaryName (n : Nat) : Bytes := "tmp-" ++ Bytes.ofNat n

/-- The location and the path of a new file in a directory, under the first of some numbers whose
name is free. -/
def openTemporary (fs : FileSystem) (dir : Bytes) : List Nat → Except FileError (Location × Bytes)
  | [] => .error ⟨"createtemp", entryPath dir "tmp-*", .exists⟩
  | n :: rest =>
    let path := entryPath dir (temporaryName n)
    match fs.resolve false path with
    | .ok (.missing parent name) => .ok (parent ++ [name], path)
    | .ok (.node _ _) => fs.openTemporary dir rest
    | .error e => .error ⟨"open", path, e⟩

/-- Moves a file to a path, in the place of a file or link that is there. -/
def rename (fs : FileSystem) (place : Location) (source target : Bytes) :
    Except FileError FileSystem :=
  let refuse (e : OsError) : Except FileError FileSystem :=
    .error ⟨"rename", source ++ " " ++ target, e⟩
  match fs.get? place with
  | none => refuse .noEntry
  | some n => match fs.resolve false target with
    | .ok (.node _ .directory) => refuse .exists
    | .ok (.node goal _) => .ok ((fs.erase place).put goal n)
    | .ok (.missing parent name) => .ok ((fs.erase place).put (parent ++ [name]) n)
    | .error e => refuse e

/-- What the system does of its own accord during a save: which steps it refuses, and which numbers
it draws for the temporary file. A refused write may have written a part of the data. -/
structure SaveConditions where
  directory : Bytes → Option FileError
  temporary : Option FileError
  write : Option (FileError × Bytes)
  close : Option FileError
  rename : Option FileError
  numbers : List Nat

/-- Saves data under a path: makes the directory, writes a temporary file in it, and moves that to
the path. -/
def saveWith (c : SaveConditions) (fs : FileSystem) (path data : Bytes) :
    FileSystem × Option FileError :=
  let dir := Path.dir path
  match fs.makeDirectories c.directory dir with
  | (made, some e) => (made, some e)
  | (made, none) =>
    match attempt c.temporary (made.openTemporary dir c.numbers) with
    | .error e => (made, some e)
    | .ok (place, source) =>
      match c.write with
      | some (e, part) => ((made.put place (.file part)).erase place, some e)
      | none =>
        let written := made.put place (.file data)
        match attempt c.close (.ok ()) with
        | .error e => (written.erase place, some e)
        | .ok _ =>
          match attempt c.rename (written.rename place source path) with
          | .error e => (written.erase place, some e)
          | .ok done => (done, none)

def maxTries : Nat := 10000

/-- A system that refuses nothing of its own accord. -/
def SaveConditions.calm : SaveConditions :=
  ⟨fun _ => none, none, none, none, none, List.range maxTries⟩

def save (fs : FileSystem) (path data : Bytes) : FileSystem × Option FileError :=
  saveWith .calm fs path data

end FileSystem

end StateBuffer
