import StateBuffer.Files.Change
import StateBuffer.Trace.Event
import StateBuffer.Trace.Ring

/-!
A tracer takes the events of a level and keeps them: as text in an outlet, as values in a ring, or
both. Every store numbers what it keeps, from one count for all. A span of work is an event at its
beginning and one at its end; below the level it is inert and leaves no event.
-/

namespace StateBuffer

namespace Trace

/-- What an outlet was asked to do beside taking text. -/
inductive OutletCall where
  | flush
  | close
  deriving DecidableEq, Repr

/-- Where text goes: what it took, and how flushing and closing end. -/
structure Outlet where
  written : Bytes
  flushError : Option Bytes
  closeError : Option Bytes
  calls : List OutletCall
  deriving DecidableEq, Repr, Inhabited

namespace Outlet

/-- An outlet without text that never fails. -/
def empty : Outlet := ⟨[], none, none, []⟩

def write (o : Outlet) (s : Bytes) : Outlet := { o with written := o.written ++ s }

/-- Passes on what it holds back. -/
def flush (o : Outlet) : Outlet × Option Bytes :=
  ({ o with calls := o.calls ++ [.flush] }, o.flushError)

/-- Flushes, and closes unless that fails. -/
def close (o : Outlet) : Outlet × Option Bytes :=
  match o.flush with
  | (o, some e) => (o, some e)
  | (o, none) => ({ o with calls := o.calls ++ [.close] }, o.closeError)

end Outlet

/-- An event that is kept as a value. The end of a span that had facts goes on to show the facts of
that span, its owner. -/
structure Kept where
  event : Event
  owner : Option SpanId
  deriving Inhabited

/-- A tracer. The counts are of numbers and spans already given; words of 64 bits hold them until
`2 ^ 64` were given. -/
structure Tracer where
  level : Level
  stream : Option (Format × Outlet)
  ring : Option (Ring Kept)
  numbers : Nat
  spans : Nat
  now : Instant
  deriving Inhabited

/-- A span of work that is going on. -/
structure Span where
  id : SpanId
  parent : SpanId
  scope : Scope
  name : Bytes
  started : Instant
  attributes : Attributes
  deriving DecidableEq, Repr, Inhabited

/-- The number of a span; an inert span has none. -/
def spanId (s : Option Span) : SpanId := (s.map Span.id).getD 0

namespace Tracer

def none : Tracer := ⟨.off, Option.none, Option.none, 0, 0, 0⟩

def enabled (t : Tracer) : Bool := t.level ≠ .off

/-- Does the level want an event? Heartbeats are always wanted. -/
def admits (t : Tracer) (e : Event) : Bool := t.level.admits e.scope || e.kind = .heartbeat

/-- Writes an event to the outlet under the next number. -/
def emitStream (t : Tracer) (e : Event) : Tracer :=
  match t.stream with
  | Option.none => t
  | some (format, outlet) =>
    let e := { e with number := t.numbers + 1 }
    { t with
      stream := some (format, outlet.write (e.render format))
      numbers := t.numbers + 1 }

/-- Keeps an event in the ring under the next number. -/
def emitRing (t : Tracer) (e : Event) (owner : Option SpanId) : Tracer :=
  match t.ring with
  | Option.none => t
  | some ring =>
    { t with
      ring := some (ring.push ⟨{ e with number := t.numbers + 1 }, owner⟩)
      numbers := t.numbers + 1 }

/-- Keeps an event, which may have an owner, if the level wants it. -/
def emitOwned (t : Tracer) (e : Event) (owner : Option SpanId) : Tracer :=
  if t.admits e then (t.emitStream e).emitRing e owner else t

/-- Keeps an event if the level wants it. -/
def emit (t : Tracer) (e : Event) : Tracer := t.emitOwned e Option.none

/-- Begins a span, inert below the level. -/
def beginSpan (t : Tracer) (scope : Scope) (name : Bytes) (parent : SpanId) :
    Option Span × Tracer :=
  if t.level.admits scope then
    let id := t.spans + 1
    let event : Event := ⟨t.now, 0, .spanBegin, scope, id, parent, name, [], 0, []⟩
    (some ⟨id, parent, scope, name, t.now, []⟩, { t with spans := id }.emit event)
  else (Option.none, t)

def endSpan (t : Tracer) (span : Option Span) (detail : Bytes) : Tracer :=
  match span with
  | Option.none => t
  | some s =>
    t.emitOwned ⟨t.now, 0, .spanEnd, s.scope, s.id, s.parent, s.name, detail, t.now - s.started,
      s.attributes⟩ (if s.attributes.isEmpty then Option.none else some s.id)

/-- Adds a fact to a span. Events that the span owns show it too. -/
def annotate (t : Tracer) (span : Option Span) (key value : Bytes) : Option Span × Tracer :=
  match span with
  | Option.none => (Option.none, t)
  | some s =>
    let extend (k : Kept) : Kept :=
      if k.owner = some s.id then
        { k with event := { k.event with attributes := k.event.attributes.set key value } }
      else k
    (some { s with attributes := s.attributes.set key value },
      { t with ring := t.ring.map (Ring.map extend) })

def point (t : Tracer) (scope : Scope) (name detail : Bytes) (parent : SpanId) : Tracer :=
  if t.level.admits scope then
    let id := t.spans + 1
    { t with spans := id }.emit ⟨t.now, 0, .point, scope, id, parent, name, detail, 0, []⟩
  else t

def advance (t : Tracer) (d : Duration) : Tracer := { t with now := t.now + d }

/-- Does something with the outlet, if there is one. -/
def onOutlet (t : Tracer) (act : Outlet → Outlet × Option Bytes) : Tracer × Option Bytes :=
  match t.stream with
  | Option.none => (t, Option.none)
  | some (format, outlet) =>
    let (outlet, e) := act outlet
    ({ t with stream := some (format, outlet) }, e)

def flush (t : Tracer) : Tracer × Option Bytes := t.onOutlet Outlet.flush

def close (t : Tracer) : Tracer × Option Bytes := t.onOutlet Outlet.close

def written (t : Tracer) : Bytes := (t.stream.map fun s => s.2.written).getD []

/-- The events in the ring, oldest first, if there is a ring. -/
def snapshot (t : Tracer) : Option (List Event) := t.ring.map fun r => r.toList.map Kept.event

def dump (t : Tracer) : Option Bytes := t.snapshot.map fun es => es.flatMap Event.text

end Tracer

/-- How to set up a tracer. -/
structure Config where
  level : Level
  mode : Option Mode
  format : Format
  path : Bytes
  ringSize : Int
  deriving DecidableEq, Repr

inductive ConfigFault where
  | unknownMode
  | output (cause : FileError)
  deriving DecidableEq, Repr

def ConfigFault.message : ConfigFault → Bytes
  | .unknownMode => "unknown storage mode: unknown"
  | .output cause => "failed to open trace output: " ++ cause.message

namespace Config

/-- How many events a ring keeps unless another number is given. -/
def defaultRingSize : Nat := 4096

def ring (size : Int) : Ring Kept :=
  if h : size ≤ 0 then .blank defaultRingSize default (by decide)
  else .blank size.toNat default (by omega)

def toFile (c : Config) : Bool := !(c.path.isEmpty || c.path = ("-" : Bytes))

def tracer (c : Config) (outlet : Outlet) : Except ConfigFault Tracer :=
  let stream := some (c.format.resolve c.path, outlet)
  if c.level = .off then .ok Tracer.none
  else match c.mode with
    | none => .error .unknownMode
    | some .stream => .ok ⟨c.level, stream, none, 0, 0, 0⟩
    | some .ring => .ok ⟨c.level, none, some (ring c.ringSize), 0, 0, 0⟩
    | some .both => .ok ⟨c.level, stream, some (ring c.ringSize), 0, 0, 0⟩

/-- The tracer on the output that the path names: nothing or a dash is the error stream, anything
else a file, which is made empty. -/
def openTracer (c : Config) (fs : FileSystem) : Except ConfigFault (Tracer × FileSystem) := do
  let t ← c.tracer Outlet.empty
  if t.stream.isNone || !c.toFile then return (t, fs)
  else match fs.write c.path [] with
    | .ok fs => return (t, fs)
    | .error e => .error (.output e)

end Config

end Trace

end StateBuffer
