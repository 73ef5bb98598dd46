import StateBuffer.Files.Change

/-!
The way between the disk and a file system as a value: what stands along a path or below a directory
is taken in, and what a command changed is put back. Everything else is pure.
-/

namespace StateBuffer

namespace Disk

/-- A text of bytes as the system takes it. -/
def textOf (s : Bytes) : String := (String.fromUTF8? ⟨s.toArray⟩).getD ""

/-- The path of a location as the system takes it. -/
def pathOf (place : Location) : String := textOf (Path.ofComponents true place)

/-- A link that leads nowhere: no name holds a null byte. -/
def brokenLink : Bytes := [Path.separator, 0]

/-- What stands at a location. Neither a device nor a file that cannot be read shows any data. -/
def nodeAt (place : Location) : IO (Option Node) := do
  try
    let path := (← IO.currentDir) / pathOf place
    match (← path.symlinkMetadata).type with
    | .dir => return some .directory
    | .symlink =>
      try return some (.link (Bytes.ofString (← IO.FS.realPath path).toString))
      catch _ => return some (.link brokenLink)
    | .file =>
      try return some (.file (← IO.FS.readBinFile path).data.toList)
      catch _ => return some (.file [])
    | .other => return some (.file [])
  catch _ => return none

/-- Takes in what stands along a path that is followed from a location. -/
partial def takeInFrom (fs : FileSystem) (here : Location) : List Bytes → IO FileSystem
  | [] => return fs
  | c :: rest =>
    if c = ("." : Bytes) then takeInFrom fs here rest
    else if c = (".." : Bytes) then takeInFrom fs here.dropLast rest
    else do
      let place := here ++ [c]
      match ← nodeAt place with
      | none => return fs
      | some .directory => takeInFrom (fs.put place .directory) place rest
      | some (.file data) => return fs.put place (.file data)
      | some (.link target) =>
        takeInFrom (fs.put place (.link target)) [] (FileSystem.steps target ++ rest)

/-- Takes in what stands along a path. -/
def takeIn (fs : FileSystem) (path : Bytes) : IO FileSystem :=
  if path.isEmpty then return fs
  else takeInFrom fs (if Path.isAbsolute path then [] else fs.workDir) (FileSystem.steps path)

/-- Takes in all directories below a location, and the entries whose names are wanted. -/
partial def takeInTree (wanted : Bytes → Bool) (fs : FileSystem) (place : Location) :
    IO FileSystem := do
  let mut fs := fs
  let dir := (← IO.currentDir) / pathOf place
  let entries ← try dir.readDir catch _ => pure #[]
  for entry in entries do
    let name := Bytes.ofString entry.fileName
    let isDir ← try pure ((← entry.path.symlinkMetadata).type == .dir) catch _ => pure false
    if isDir then
      fs := fs.put (place ++ [name]) .directory
      fs ← takeInTree wanted fs (place ++ [name])
    else if wanted name then fs ← takeInFrom fs place [name]
  return fs

/-- Takes in the working directory. -/
def start : IO FileSystem := do
  let here := FileSystem.steps (Bytes.ofString (← IO.currentDir).toString)
  takeInFrom ⟨[], here⟩ [] here

/-- Puts back what differs from what was taken in. -/
def putBack (before after : FileSystem) : IO Unit := do
  for (place, node) in after.nodes do
    let known := before.get? place
    if known ≠ some node then
      let path := pathOf place
      match node with
      | .directory => IO.FS.createDirAll path
      | .file data =>
        if known matches some (.link _) then IO.FS.removeFile path
        IO.FS.writeBinFile path ⟨data.toArray⟩
      | .link _ => return

end Disk

end StateBuffer
