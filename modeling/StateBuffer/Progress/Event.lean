import StateBuffer.Text.Quoted
import StateBuffer.Time.Duration

/-!
Progress of a build: what a stage of the build, or a file in it, has come to. Lines for people and
sums of durations are drawn from the list of events.
-/

namespace StateBuffer

inductive Stage where
  | read
  | parse
  | index
  | validate
  | generate
  | verify
  | write
  | other (name : Bytes)
  deriving DecidableEq, Repr, Inhabited

namespace Stage

def all : List Stage := [.read, .parse, .index, .validate, .generate, .verify, .write]

def name : Stage → Bytes
  | .read => "read"
  | .parse => "parse"
  | .index => "index"
  | .validate => "validate"
  | .generate => "generate"
  | .verify => "verify"
  | .write => "write"
  | .other name => name

def ofName (s : Bytes) : Stage := (all.find? fun stage => stage.name = s).getD (.other s)

end Stage

inductive Status where
  | queued
  | working
  | done
  | skipped
  | error
  | other (name : Bytes)
  deriving DecidableEq, Repr, Inhabited

namespace Status

def all : List Status := [.queued, .working, .done, .skipped, .error]

def name : Status → Bytes
  | .queued => "queued"
  | .working => "working"
  | .done => "done"
  | .skipped => "skipped"
  | .error => "error"
  | .other name => name

def ofName (s : Bytes) : Status := (all.find? fun status => status.name = s).getD (.other s)

end Status

/-- A step of a build. An event without a file is about the whole stage. -/
structure ProgressEvent where
  file : Bytes
  stage : Stage
  status : Status
  error : Option Bytes
  elapsed : Duration
  deriving DecidableEq, Repr, Inhabited

namespace ProgressEvent

def ofStage (stage : Stage) (status : Status) : ProgressEvent := ⟨[], stage, status, none, 0⟩

def ofFile (file : Bytes) (stage : Stage) (status : Status) : ProgressEvent :=
  ⟨file, stage, status, none, 0⟩

/-- Is this about a whole stage? -/
def isOverall (e : ProgressEvent) : Bool := e.file.isEmpty

/-- The line for an event: those about the end of a whole stage have one. -/
def line (e : ProgressEvent) : Bytes :=
  if !e.isOverall || e.status = .queued || e.status = .working then []
  else
    let start := Bytes.padRight 9 e.stage.name ++ " " ++ e.status.name
    match e.error with
    | some text => start ++ ": " ++ text ++ "\n"
    | none => start ++ " " ++ (e.elapsed.roundTo Duration.microsecond).text ++ "\n"

end ProgressEvent

namespace Progress

/-- The durations of whole stages that came to their end, added up by stage. -/
def durations (events : List ProgressEvent) (stage : Stage) : List Duration :=
  (events.filter fun e => e.isOverall && e.status = .done && e.stage = stage).map (·.elapsed)

def duration (events : List ProgressEvent) (stage : Stage) : Duration :=
  Duration.sum (durations events stage)

/-- The duration of several stages, all of them if none is given. -/
def total (events : List ProgressEvent) (stages : List Stage) : Duration :=
  Duration.sum ((if stages.isEmpty then Stage.all else stages).map (duration events))

end Progress

end StateBuffer
