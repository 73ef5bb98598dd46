import StateBuffer.Command.Run
import StateBuffer.Disk
import StateBuffer.Shader.Verdict
import Std.Time.DateTime.Timestamp

/-!
The program: it takes in the files that a command line is about, runs the command, puts back what
changed, and prints.
-/

namespace StateBuffer

namespace Command

/-- The directory or file that a command line is about, with its arguments. -/
def subject? (words : List Bytes) : Option (Bytes × Arguments) :=
  match request words with
  | .ok (.command .version a) => some ([], a)
  | .ok (.command _ a) => some (a.operands.headD ".", a)
  | _ => none

def namedOutputs (a : Arguments) : List Bytes :=
  ([("spirv" : Bytes), "trace", "cpuprofile", "memprofile", "runtime-trace"].map (a.text · []))
    |>.filter fun path => !path.isEmpty

end Command

namespace Disk

/-- Takes in the sources below a path, if it leads to a directory. -/
def takeInSources (fs : FileSystem) (path : Bytes) : IO FileSystem :=
  match fs.resolve true path with
  | .ok (.node place .directory) =>
    takeInTree (fun name => Bytes.endsWith name Project.extension) fs place
  | _ => return fs

/-- Takes in all that a command line may read or replace. -/
def takeInSubject (fs : FileSystem) (subject : Bytes) (a : Command.Arguments) : IO FileSystem := do
  let mut fs := fs
  for path in subject :: Command.namedOutputs a do fs ← takeIn fs path
  if subject.isEmpty then return fs
  for dir in Manifest.upward (fs.absolute subject) do
    fs ← takeIn fs (Path.join [dir, Manifest.fileName])
  fs ← takeInSources fs subject
  if let .ok (some path) := Manifest.find fs subject then
    fs ← takeIn fs (Path.dir path)
    fs ← takeInSources fs (Path.dir path)
  if let .ok settings := Command.Settings.load fs a subject then
    fs ← takeIn fs settings.output
  return fs

/-- How long each stage of a compilation takes. -/
def measure (fs : FileSystem) (settings : Command.Settings) : IO StageTimes := do
  let mut c := Compilation.start settings.root settings.options
  let mut times : List (Stage × Duration) := []
  for stage in Compilation.stages settings.options do
    let before ← IO.monoNanosNow
    c ← IO.lazyPure fun _ => c.step ⟨fs, false, 0, Wgsl.frontEnd⟩ stage
    let after ← IO.monoNanosNow
    times := (stage, ((after - before : Nat) : Int)) :: times
  return fun stage => ((times.find? fun t => t.1 = stage).map Prod.snd).getD 0

end Disk

end StateBuffer

open StateBuffer in
/-- Runs a command line. -/
def main (args : List String) : IO UInt32 := do
  let words := args.map Bytes.ofString
  let mut fs ← Disk.start
  let mut times : StageTimes := fun _ => 0
  if let some (subject, a) := Command.subject? words then
    fs ← Disk.takeInSubject fs subject a
    if a.switch "timings" || !(a.text "trace" []).isEmpty then
      if let .ok settings := Command.Settings.load fs a subject then
        times ← Disk.measure fs settings
  let now := (← Std.Time.Timestamp.now).toNanosecondsSinceUnixEpoch.val
  let session :=
    Command.Session.start fs ⟨Wgsl.frontEnd, .standard⟩ 0 (← (← IO.getStdout).isTty) times
  let outcome := Command.run { session with tracer := session.tracer.advance now } words
  Disk.putBack fs outcome.session.fs
  (← IO.getStdout).write ⟨outcome.session.output.toArray⟩
  (← IO.getStderr).write ⟨(outcome.session.direct ++ outcome.session.errors).toArray⟩
  return if outcome.error.isSome then 1 else 0
