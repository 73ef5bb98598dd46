import StateBuffer.Diagnostic.Basic

/-!
Collections of diagnostics. A bag keeps diagnostics in the order of their emission up to a limit
and counts those that no longer fit, so that a limit never hides a failure.
-/

namespace StateBuffer

/-- How many errors and warnings went by. -/
structure Tally where
  errors : Nat
  warnings : Nat
  deriving DecidableEq, Repr, Inhabited

namespace Tally

def zero : Tally := ⟨0, 0⟩

def add (t : Tally) (d : Diagnostic) : Tally :=
  match d.severity with
  | .error => { t with errors := t.errors + 1 }
  | .warning => { t with warnings := t.warnings + 1 }
  | _ => t

end Tally

/-- Diagnostics up to a limit; a limit that is not positive is none. `dropped` counts what did not
fit, by severity; severities without a name are not counted. The counters are natural numbers, so
they never wrap around; in a word of 64 bits this takes fewer than `2 ^ 63` diagnostics left out,
and counters double when a bag is merged into itself. -/
structure Bag where
  limit : Int
  items : List Diagnostic
  droppedInfo : Nat
  droppedWarnings : Nat
  droppedErrors : Nat
  deriving DecidableEq, Repr, Inhabited

namespace Bag

def empty (limit : Int) : Bag := ⟨limit, [], 0, 0, 0⟩

def isFull (b : Bag) : Bool := 0 < b.limit && b.limit ≤ b.items.length

/-- Adds a diagnostic, or counts it when there is no room. -/
def add (b : Bag) (d : Diagnostic) : Bag :=
  if b.isFull then
    match d.severity with
    | .info => { b with droppedInfo := b.droppedInfo + 1 }
    | .warning => { b with droppedWarnings := b.droppedWarnings + 1 }
    | .error => { b with droppedErrors := b.droppedErrors + 1 }
    | .other _ => b
  else { b with items := b.items ++ [d] }

def addAll (b : Bag) (ds : List Diagnostic) : Bag := ds.foldl add b

def droppedOf (b : Bag) : Severity → Nat
  | .info => b.droppedInfo
  | .warning => b.droppedWarnings
  | .error => b.droppedErrors
  | .other _ => 0

/-- How many diagnostics of a severity there were, those left out included. -/
def count (b : Bag) (s : Severity) : Nat :=
  (b.items.filter fun d => d.severity = s).length + b.droppedOf s

def hasErrors (b : Bag) : Bool := 0 < b.count .error

def hasWarnings (b : Bag) : Bool := 0 < b.count .warning

/-- Do the diagnostics fail a compilation? -/
def failed (b : Bag) (warningsAsErrors : Bool) : Bool :=
  b.hasErrors || (warningsAsErrors && b.hasWarnings)

def dropped (b : Bag) : Nat := b.droppedInfo + b.droppedWarnings + b.droppedErrors

def size (b : Bag) : Nat := b.items.length

/-- Appends another bag, whatever the limit. -/
def merge (b other : Bag) : Bag :=
  { b with
    items := b.items ++ other.items
    droppedInfo := b.droppedInfo + other.droppedInfo
    droppedWarnings := b.droppedWarnings + other.droppedWarnings
    droppedErrors := b.droppedErrors + other.droppedErrors }

/-- May `d` stand before `e`: an earlier place, or the same place and no less severe? -/
def ordered (d e : Diagnostic) : Bool :=
  match d.span.order e.span with
  | .lt => true
  | .gt => false
  | .eq => e.severity.level ≤ d.severity.level

/-- Orders by place, then errors first; emission order decides ties. -/
def sort (b : Bag) : Bag := { b with items := b.items.mergeSort ordered }

end Bag

/-- A diagnostic on its way into a bag; it is emitted once at most. -/
structure Report where
  diagnostic : Diagnostic
  emitted : Bool
  deriving DecidableEq, Repr, Inhabited

namespace Report

def of (d : Diagnostic) : Report := ⟨d, false⟩

/-- Sends the diagnostic to a bag, past a tally, unless that was done before. -/
def emit (r : Report) (tally : Tally) (bag : Bag) : Report × Tally × Bag :=
  if r.emitted then (r, tally, bag)
  else ({ r with emitted := true }, tally.add r.diagnostic, bag.add r.diagnostic)

end Report

end StateBuffer
