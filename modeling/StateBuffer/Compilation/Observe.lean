import StateBuffer.Compilation.Basic
import StateBuffer.Trace.Timer

/-!
A compilation as seen from outside: the events that tell its progress, and the spans and points that
trace it. How long the passes took is given.
-/

namespace StateBuffer

abbrev StageTimes := Stage → Duration

namespace FileStep

def events : FileStep → List ProgressEvent
  | .parsed file _ _ none => [.ofFile file .parse .working, .ofFile file .parse .done]
  | .parsed file _ _ (some e) =>
    [.ofFile file .parse .working, { ProgressEvent.ofFile file .parse .error with
      error := some e.text }]
  | .checked file skipped => [.ofFile file .validate (if skipped then .skipped else .done)]

/-- Traces the work on a file; only parsing has spans of its own. -/
def trace (parent : Trace.SpanId) (t : Trace.Tracer) : FileStep → Trace.Tracer
  | .checked _ _ => t
  | .parsed _ dotPath items error =>
    let (span, t) := t.beginSpan .module ("module:" ++ dotPath) parent
    match error with
    | some _ => t.endSpan span "syntax error"
    | none =>
      let (span, t) := t.annotate span "items" (Bytes.ofNat items)
      t.endSpan span []

end FileStep

namespace Pass

def events (times : StageTimes) (p : Pass) : List ProgressEvent :=
  let finish : ProgressEvent :=
    ⟨[], p.stage, if p.error.isSome then .error else .done, p.error, times p.stage⟩
  ProgressEvent.ofStage p.stage .working :: p.steps.flatMap FileStep.events
    ++ finish :: p.queued.map fun file => .ofFile file .read .queued

def observe (times : StageTimes) (state : Trace.Timer × Trace.Tracer) (p : Pass) :
    Trace.Timer × Trace.Tracer :=
  let (timer, tracer) := state
  let i := timer.phases.length
  let (timer, tracer) := timer.beginPhase tracer p.stage.name
  let tracer := p.steps.foldl (FileStep.trace (timer.spanOf i)) tracer
  timer.endPhase (tracer.advance (times p.stage)) i p.note

end Pass

namespace Compilation

def events (times : StageTimes) (c : Compilation) : List ProgressEvent :=
  c.passes.flatMap (Pass.events times)

def traceFailure (c : Compilation) (parent : Trace.SpanId) (t : Trace.Tracer) : Trace.Tracer :=
  match c.error, c.passes.getLast? with
  | some (.failed detail), some p => t.point .pass ("fail:" ++ p.stage.name) detail parent
  | _, _ => t

/-- Traces the beginning of a compilation: the span of the whole and its fact. -/
def beginTrace (root : Bytes) (parent : Trace.SpanId) (t : Trace.Tracer) :
    Option Trace.Span × Trace.Tracer :=
  let (span, t) := t.beginSpan .build "compile" parent
  t.annotate span "root" root

/-- What is traced before the first file is read: the beginning, and that of the first pass. -/
def opening (root : Bytes) (parent : Trace.SpanId) (t : Trace.Tracer) : Trace.Tracer :=
  let (span, t) := beginTrace root parent t
  ((Trace.Timer.start (Trace.spanId span)).beginPhase t Stage.read.name).2

/-- Traces the compilation as a span with a phase for each pass. -/
def observe (times : StageTimes) (c : Compilation) (parent : Trace.SpanId) (t : Trace.Tracer) :
    Trace.Timer × Trace.Tracer :=
  let (span, t) := beginTrace c.root parent t
  let id := Trace.spanId span
  let (timer, t) := c.passes.foldl (Pass.observe times) (Trace.Timer.start id, t)
  let t := c.traceFailure id t
  (timer, t.endSpan span (if c.error.isSome then "failed" else "ok"))

end Compilation

end StateBuffer
