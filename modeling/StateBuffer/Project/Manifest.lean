import StateBuffer.Data.Toml
import StateBuffer.Files.Basic
import StateBuffer.Text.Quoted

/-!
The manifest of a project: an optional file that names the project, its source directory and its
build settings. It governs its own directory and all directories below, the nearest one up from a
directory being the one that counts. The source directory it names may not lie outside.
-/

namespace StateBuffer

/-- A manifest. Its path is empty when there is none. -/
structure Manifest where
  path : Bytes
  name : Bytes
  root : Bytes
  warningsAsErrors : Bool
  maxDiagnostics : Int
  output : Bytes
  verifyShader : Bool
  deriving DecidableEq, Repr, Inhabited

/-- What is wrong with a manifest or the search for one. -/
inductive ManifestFault where
  | stat (path : Bytes) (cause : FileError)
  | malformed (path : Bytes)
  | unknownKeys (path : Bytes) (keys : List Bytes)
  | negativeLimit (path : Bytes)
  | rootAbsolute (path root : Bytes)
  | rootOutside (path root : Bytes)
  | rootUnreadable (path root : Bytes) (cause : FileError)
  | rootNotDirectory (path root : Bytes)
  deriving DecidableEq, Repr

namespace ManifestFault

/-- The beginning of a message about the source directory. -/
def rootText (path root : Bytes) : Bytes :=
  path ++ ": invalid [project].root " ++ Bytes.quote root ++ ": "

def message : ManifestFault → Bytes
  | .stat path cause => "failed to stat " ++ Bytes.quote path ++ ": " ++ cause.message
  | .malformed path => path ++ ": failed to parse TOML: malformed document"
  | .unknownKeys path keys => path ++ ": unknown keys: " ++ Bytes.join ", " keys
  | .negativeLimit path => path ++ ": [build].max_diagnostics must not be negative"
  | .rootAbsolute path root => rootText path root ++ "must be relative"
  | .rootOutside path root => rootText path root ++ "escapes project directory"
  | .rootUnreadable path root cause => rootText path root ++ cause.message
  | .rootNotDirectory path root => rootText path root ++ "not a directory"

end ManifestFault

namespace Manifest

def fileName : Bytes := "gpex.toml"

def none : Manifest := ⟨[], [], [], false, 0, [], false⟩

def dir (m : Manifest) : Bytes := Path.dir m.path

/-- A directory and those above it, innermost first. -/
def upward (dir : Bytes) : List Bytes :=
  let parts := Path.components dir
  (List.range (parts.length + 1)).map fun i =>
    Path.ofComponents true (parts.take (parts.length - i))

/-- The first manifest among those that directories may hold. -/
def findIn (fs : FileSystem) : List Bytes → Except ManifestFault (Option Bytes)
  | [] => .ok Option.none
  | dir :: rest =>
    let candidate := Path.join [dir, fileName]
    match fs.stat candidate with
    | .ok _ => .ok (some candidate)
    | .error e => if e.reason = .noEntry then findIn fs rest else .error (.stat candidate e)

/-- The path of the manifest that governs a directory. -/
def find (fs : FileSystem) (dir : Bytes) : Except ManifestFault (Option Bytes) :=
  findIn fs (upward (fs.absolute (if dir.isEmpty then "." else dir)))

/-- The settings that a name stands for, given a table of its section: how a value changes a
manifest. -/
abbrev Setting := Manifest → Toml → Option Manifest

def textSetting (change : Manifest → Bytes → Manifest) : Setting
  | m, .string s => some (change m s)
  | _, _ => Option.none

def boolSetting (change : Manifest → Bool → Manifest) : Setting
  | m, .bool b => some (change m b)
  | _, _ => Option.none

def integerSetting (change : Manifest → Int → Manifest) : Setting
  | m, .integer i => some (change m i)
  | _, _ => Option.none

def projectSettings : List (Bytes × Setting) :=
  [("name", textSetting fun m s => { m with name := Bytes.trimSpace s }),
    ("root", textSetting fun m s => { m with root := Bytes.trimSpace s })]

def buildSettings : List (Bytes × Setting) :=
  [("warnings_as_errors", boolSetting fun m b => { m with warningsAsErrors := b }),
    ("max_diagnostics", integerSetting fun m i => { m with maxDiagnostics := i }),
    ("output", textSetting fun m s => { m with output := s }),
    ("verify_shader", boolSetting fun m b => { m with verifyShader := b })]

def sections : List (Bytes × List (Bytes × Setting)) :=
  [("project", projectSettings), ("build", buildSettings)]

/-- What a name stands for: itself, or the first with the same letters in another case. -/
def named? {α : Type} (table : List (Bytes × α)) (name : Bytes) : Option α :=
  ((table.find? fun e => e.1 = name).or (table.find? fun e => Bytes.equalFold e.1 name)).map
    Prod.snd

/-- Takes the settings of a section from a table, and lists the keys it understood. Of two spellings
of one name the first wins. -/
def fillSection (settings : List (Bytes × Setting)) (name : Bytes) (entries : Toml.Table)
    (m : Manifest) : Option (Manifest × List Bytes) :=
  entries.reverse.foldlM (fun (m, known) (key, value) =>
    match named? settings key with
    | Option.none => some (m, known)
    | some setting => (setting m value).map fun m => (m, known ++ [Toml.Key.text [name, key]]))
    (m, [])

/-- Takes the settings from a document, and lists the keys it understood. Of two spellings of one
section the first wins. -/
def fill (entries : Toml.Table) (m : Manifest) : Option (Manifest × List Bytes) :=
  entries.reverse.foldlM (fun (m, known) (key, value) =>
    match named? sections key, value with
    | Option.none, _ => some (m, known)
    | some settings, .table inner =>
      (fillSection settings key inner m).map fun (m, more) =>
        (m, known ++ [Toml.partText key] ++ more)
    | some _, _ => Option.none) (m, [])

def ofText (path text : Bytes) : Except ManifestFault Manifest :=
  match (Toml.read? text).bind fun d => (fill d.root { none with path }).map fun r => (d, r) with
  | Option.none => .error (.malformed path)
  | some (d, m, known) =>
    let unknown := (d.keys.map Toml.Key.text).filter fun k => !known.contains k
    if !unknown.isEmpty then .error (.unknownKeys path unknown)
    else if m.maxDiagnostics < 0 then .error (.negativeLimit path)
    else .ok m

def load (fs : FileSystem) (path : Bytes) : Except ManifestFault Manifest :=
  match fs.read path with
  | .ok text => ofText path text
  | .error _ => .error (.malformed path)

/-- The source directory of a manifest before it is looked at: its own directory, or one below. -/
def sourcePath (m : Manifest) : Except ManifestFault Bytes :=
  if m.root.isEmpty then .ok m.dir
  else if Path.isAbsolute m.root then .error (.rootAbsolute m.path m.root)
  else
    let path := Path.join [m.dir, Path.clean m.root]
    if Path.within m.dir path then .ok path else .error (.rootOutside m.path m.root)

/-- The source directory of a manifest. -/
def sourceRoot (fs : FileSystem) (m : Manifest) : Except ManifestFault Bytes := do
  let path ← m.sourcePath
  if m.root.isEmpty then return path
  else match fs.stat path with
    | .error e => .error (.rootUnreadable m.path m.root e)
    | .ok .directory => return path
    | .ok _ => .error (.rootNotDirectory m.path m.root)

/-- The manifest that governs a directory, and the source directory. Without a manifest the
directory itself is the source directory. -/
def resolve (fs : FileSystem) (dir : Bytes) : Except ManifestFault (Manifest × Bytes) := do
  match ← find fs dir with
  | Option.none => return (none, dir)
  | some path =>
    let m ← load fs path
    let root ← m.sourceRoot fs
    return (m, root)

end Manifest

namespace Project

/-- Where a program goes by default: into its source directory, under that directory's name. -/
def defaultOutput (fs : FileSystem) (root : Bytes) : Bytes :=
  let path := fs.absolute root
  Path.join [path, Path.base path ++ ".gpexc"]

end Project

end StateBuffer
