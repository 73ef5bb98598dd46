import StateBuffer.Trace.Tracer

/-!
A timer notes the phases of a build: their names, how long they took, and a remark. Each phase is
also a span of a trace.
-/

namespace StateBuffer

namespace Trace

structure Phase where
  name : Bytes
  span : Option Span
  started : Instant
  duration : Duration
  note : Bytes
  deriving DecidableEq, Repr, Inhabited

/-- The phases in order, and the span that they are part of. -/
structure Timer where
  parent : SpanId
  phases : List Phase
  deriving DecidableEq, Repr, Inhabited

namespace Timer

def start (parent : SpanId) : Timer := ⟨parent, []⟩

/-- Begins a phase; it comes last. -/
def beginPhase (t : Timer) (tracer : Tracer) (name : Bytes) : Timer × Tracer :=
  let (span, tracer) := tracer.beginSpan .pass name t.parent
  ({ t with phases := t.phases ++ [⟨name, span, tracer.now, 0, []⟩] }, tracer)

def spanOf (t : Timer) (i : Nat) : SpanId := spanId ((t.phases[i]?).bind Phase.span)

def endPhase (t : Timer) (tracer : Tracer) (i : Nat) (note : Bytes) : Timer × Tracer :=
  match t.phases[i]? with
  | none => (t, tracer)
  | some p =>
    let p := { p with duration := tracer.now - p.started, note }
    ({ t with phases := t.phases.set i p }, tracer.endSpan p.span note)

def setDuration (t : Timer) (i : Nat) (d : Duration) : Timer :=
  { t with phases := t.phases.modify i fun p => { p with duration := d } }

def line (name : Bytes) (d : Duration) (note : Bytes) : Bytes :=
  let remark : Bytes := if note.isEmpty then [] else "  // " ++ note
  "  " ++ Bytes.padRight 12 name ++ " " ++ Bytes.padLeft 8 d.millisText ++ " ms" ++ remark ++ "\n"

def summary (t : Timer) : Bytes :=
  let lines := t.phases.flatMap fun p => line p.name p.duration p.note
  let total := Duration.sum (t.phases.map Phase.duration)
  "timings:\n" ++ lines ++ line "total" total []

end Timer

end Trace

end StateBuffer
