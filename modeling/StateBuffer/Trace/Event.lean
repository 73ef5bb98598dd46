import StateBuffer.Data.Json
import StateBuffer.Text.Quoted
import StateBuffer.Time.Instant

/-!
Trace events: what happened in a build, how deep in it, and in which span of work. A level says down
to which depth events are wanted. An event is written as a line for people or as a line of JSON.
-/

namespace StateBuffer

namespace Trace

/-- What an event says of its span. -/
inductive Kind where
  | spanBegin
  | spanEnd
  | point
  | heartbeat
  | other
  deriving DecidableEq, Repr, Inhabited

namespace Kind

def ofCode : Nat → Kind
  | 1 => .spanBegin
  | 2 => .spanEnd
  | 3 => .point
  | 4 => .heartbeat
  | _ => .other

def name : Kind → Bytes
  | .spanBegin => "begin"
  | .spanEnd => "end"
  | .point => "point"
  | .heartbeat => "heartbeat"
  | .other => "unknown"

def mark : Kind → Bytes
  | .spanBegin => "→ "
  | .spanEnd => "← "
  | .point => "• "
  | .heartbeat => "♡ "
  | .other => []

end Kind

/-- How deep in a build an event lies. -/
structure Scope where
  depth : Nat
  deriving DecidableEq, Repr, Inhabited

namespace Scope

def build : Scope := ⟨1⟩

def pass : Scope := ⟨2⟩

def module : Scope := ⟨3⟩

def item : Scope := ⟨4⟩

def name (s : Scope) : Bytes :=
  match s.depth with
  | 1 => "driver"
  | 2 => "pass"
  | 3 => "module"
  | 4 => "item"
  | _ => "unknown"

end Scope

/-- Down to which depth events are wanted. -/
inductive Level where
  | off
  | phase
  | detail
  | debug
  deriving DecidableEq, Repr, Inhabited

inductive NameFault where
  | level (text : Bytes)
  | mode (text : Bytes)
  | format (text : Bytes)
  deriving DecidableEq, Repr

def NameFault.message : NameFault → Bytes
  | .level text =>
    "invalid trace level: " ++ Bytes.quote text ++ " (expected: off|phase|detail|debug)"
  | .mode text => "invalid storage mode: " ++ Bytes.quote text ++ " (expected: stream|ring|both)"
  | .format text => "invalid trace format: " ++ Bytes.quote text ++ " (expected: auto|text|ndjson)"

/-- What a name stands for in a table, its case ignored. -/
def named? {α : Type} (table : List (Bytes × α)) (text : Bytes) : Option α :=
  (table.find? fun e => e.1 = Bytes.lower text).map Prod.snd

namespace Level

def ofNat? : Nat → Option Level
  | 0 => some .off
  | 1 => some .phase
  | 2 => some .detail
  | 3 => some .debug
  | _ => none

def name : Level → Bytes
  | .off => "off"
  | .phase => "phase"
  | .detail => "detail"
  | .debug => "debug"

def nameOf (n : Nat) : Bytes := ((ofNat? n).map name).getD "unknown"

/-- The level of a name; no name means off. -/
def ofName (text : Bytes) : Except NameFault Level :=
  match named? [("off", off), ("", off), ("phase", phase), ("detail", detail), ("debug", debug)]
    text with
  | some level => .ok level
  | none => .error (.level text)

def admits (level : Level) (scope : Scope) : Bool :=
  match level with
  | .off => false
  | .phase => scope.depth ≤ 2
  | .detail => scope.depth ≤ 3
  | .debug => true

end Level

inductive Format where
  | auto
  | text
  | lines
  deriving DecidableEq, Repr, Inhabited

/-- The format of a name; no name leaves the choice to the name of the output. -/
def Format.ofName (name : Bytes) : Except NameFault Format :=
  match named? [("", auto), ("auto", auto), ("text", text), ("ndjson", lines), ("json", lines)]
    name with
  | some format => .ok format
  | none => .error (.format name)

/-- The format of an output, chosen by its name when it is left open. -/
def Format.resolve (format : Format) (path : Bytes) : Format :=
  if format ≠ .auto then format
  else if Bytes.endsWith path ".ndjson" || Bytes.endsWith path ".json" then .lines
  else .text

/-- Where events are kept: written as they come, in a ring, or both. -/
inductive Mode where
  | stream
  | ring
  | both
  deriving DecidableEq, Repr, Inhabited

namespace Mode

def ofNat? : Nat → Option Mode
  | 1 => some .stream
  | 2 => some .ring
  | 3 => some .both
  | _ => none

def name : Mode → Bytes
  | .stream => "stream"
  | .ring => "ring"
  | .both => "both"

def nameOf (n : Nat) : Bytes := ((ofNat? n).map name).getD "unknown"

def ofName (text : Bytes) : Except NameFault Mode :=
  match named? [("stream", stream), ("ring", ring), ("both", both)] text with
  | some mode => .ok mode
  | none => .error (.mode text)

end Mode

/-- The number of a span; zero is none. -/
abbrev SpanId := Nat

/-- Further facts by name, in the order of names. -/
abbrev Attributes := List (Bytes × Bytes)

def Attributes.set (key value : Bytes) : Attributes → Attributes
  | [] => [(key, value)]
  | (k, v) :: rest =>
    if key = k then (key, value) :: rest
    else if Bytes.lt key k then (key, value) :: (k, v) :: rest
    else (k, v) :: Attributes.set key value rest

/-- An event. Its number is given when it is kept. -/
structure Event where
  time : Instant
  number : Nat
  kind : Kind
  scope : Scope
  span : SpanId
  parent : SpanId
  name : Bytes
  detail : Bytes
  elapsed : Duration
  attributes : Attributes
  deriving DecidableEq, Repr, Inhabited

namespace Event

def attributesText (e : Event) : Bytes :=
  if e.attributes.isEmpty then []
  else
    let pairs := e.attributes.map fun a => a.1 ++ [Bytes.byte '='] ++ a.2
    " \x7b" ++ Bytes.join ", " pairs ++ "\x7d"

def text (e : Event) : Bytes :=
  let indent := if e.parent = 0 then [] else Bytes.spaces 2
  let detail : Bytes := if e.detail.isEmpty then [] else " (" ++ e.detail ++ ")"
  let elapsed : Bytes :=
    if e.kind = .spanEnd then " " ++ e.elapsed.wholeMillisText ++ "ms" else []
  "#" ++ Bytes.padRight 5 (Bytes.ofNat e.number) ++ " " ++ indent ++ e.kind.mark ++ e.name
    ++ detail ++ elapsed ++ e.attributesText ++ "\n"

/-- An event as JSON; what is empty or zero is left out, the name and the span's number apart. -/
def json (e : Event) : Json :=
  let present (given : Bool) (name : String) (value : Json) : List (Bytes × Json) :=
    if given then [Json.entry name value] else []
  .object ([Json.entry "time" (.string e.time.text), Json.entry "seq" (Json.ofNat e.number),
      Json.entry "kind" (.string e.kind.name), Json.entry "scope" (.string e.scope.name),
      Json.entry "span_id" (Json.ofNat e.span)]
    ++ present (e.parent ≠ 0) "parent_id" (Json.ofNat e.parent)
    ++ [Json.entry "name" (.string e.name)]
    ++ present (!e.detail.isEmpty) "detail" (.string e.detail)
    ++ present (e.elapsed.microseconds ≠ 0) "elapsed_us" (Json.ofInt e.elapsed.microseconds)
    ++ present (!e.attributes.isEmpty) "extra"
        (.object (e.attributes.map fun a => (a.1, .string a.2))))

def render (format : Format) (e : Event) : Bytes :=
  match format with
  | .lines => e.json.compact ++ [0x0A]
  | _ => e.text

end Event

end Trace

end StateBuffer
