import StateBuffer.Fault

/-!
Syntax errors: the furthest offset that reading reached and what would have been welcome there.
Errors of alternatives merge: the one further on wins, and at the same offset the expectations
are united in order.
-/

namespace StateBuffer

/-- Where reading stopped and what it expected. -/
structure SyntaxError where
  file : FileId
  offset : Int
  expected : List Bytes
  deriving DecidableEq, Repr, Inhabited

namespace SyntaxError

/-- The expectations as a list in words. -/
def alternatives : List Bytes → Bytes
  | [] => []
  | [label] => label
  | [label, last] => label ++ " or " ++ last
  | label :: rest => label ++ ", " ++ alternatives rest

def message (e : SyntaxError) : Bytes := "expected " ++ alternatives e.expected

def text (e : SyntaxError) : Bytes := "offset " ++ Bytes.ofInt e.offset ++ ": " ++ e.message

/-- The labels of `more` that are not yet there, appended in order. -/
def unite (labels more : List Bytes) : List Bytes :=
  more.foldl (fun known label => if label ∈ known then known else known ++ [label]) labels

/-- The error that got further; at the same offset the union of both. -/
def merge : Option SyntaxError → Option SyntaxError → Option SyntaxError
  | none, b => b
  | a, none => a
  | some a, some b =>
    if b.offset < a.offset then some a
    else if a.offset < b.offset then some b
    else some { a with expected := unite a.expected b.expected }

/-- The place of the error, one byte long. -/
def span (e : SyntaxError) : Except Fault Span :=
  if 0 ≤ e.offset ∧ e.offset < 4294967296 then
    let start := e.offset.toNat.toUInt32
    .ok ⟨e.file, start, start + 1⟩
  else .error .offsetTooLarge

end SyntaxError

end StateBuffer
