import StateBuffer.Machine.Basic

/-!
Execution. A run starts from a zeroed buffer with nothing assigned, executes the statements in order
and stops at the first error, keeping what was stored before it. A run may be called off before any
of its statements, and keeps then what was stored, too.
-/

namespace StateBuffer

namespace Machine

/-- Drops the letters `i` and `u` at the end of a literal. -/
def trimSuffix (text : Bytes) : Bytes :=
  (text.reverse.dropWhile fun b => b = 0x69 || b = 0x75).reverse

/-- The value of a literal with minus signs before it. -/
def constant : Wgsl.ExprTree → Except Trap Int
  | .literal kind text =>
    if kind ≠ .integer then .error (.notAnInteger text)
    else match Integer.ofText (trimSuffix text) with
      | .ok value => .ok value
      | .error fault => .error (.badLiteral text (trimSuffix text) fault)
  | .unary operator operand =>
    if operator ≠ "-" then .error .unsupportedOperator
    else do
      let value ← constant operand
      return -value
  | e => .error (.unsupportedExpression e.kindName)

/-- A value that fits into 32 bits. -/
def narrow (value : Int) : Except Trap Int32 :=
  if -2147483648 ≤ value ∧ value ≤ 2147483647 then .ok (Int32.ofInt value)
  else .error (.tooWide value)

/-- The offset of a member of the buffer. -/
def place (m : Machine) : Wgsl.ExprTree → Except Trap Nat
  | .member (.ident base) name =>
    if base ≠ bufferName then .error .foreignMember
    else match m.offset? name with
      | some offset => .ok offset
      | none => .error (.unknownMember name)
  | .member _ _ => .error .foreignMember
  | e => .error (.notAMember e.kindName)

mutual

def eval (m : Machine) : Wgsl.ExprTree → Except Trap Int32
  | .member base name => do
    let offset ← m.place (.member base name)
    if offset ∈ m.assigned then .ok (Memory.load m.memory offset) else .error (.unassigned name)
  | .construct type arguments =>
    if type.name? = some cellType then m.evalSingle arguments else .error .constructorType
  | .call function arguments =>
    if function = cellType then m.evalSingle arguments else .error .unsupportedCall
  | e => do
    let value ← constant e
    narrow value

/-- The value of the one argument that a conversion takes. -/
def evalSingle (m : Machine) : List Wgsl.ExprTree → Except Trap Int32
  | [e] => m.eval e
  | arguments => .error (.argumentCount arguments.length)

end

def execute (m : Machine) : Wgsl.Stmt → Except Trap Machine
  | .assign left operator right =>
    if operator ≠ "=" then .error .compoundAssignment
    else do
      let offset ← m.place left
      let value ← m.eval right
      return { m with
        memory := Memory.store m.memory offset value
        assigned := offset :: m.assigned
        steps := m.steps + 1 }
  | s => .error (.unsupportedStatement s.kindName)

/-- Executes statements from number `i` on, up to the first error. -/
def executeFrom (m : Machine) (i : Nat) : List Wgsl.Stmt → Machine × Option MachineError
  | [] => (m, none)
  | s :: rest =>
    match m.execute s with
    | .ok m => m.executeFrom (i + 1) rest
    | .error trap => (m, some ⟨trap, some i⟩)

def cleared (m : Machine) : Machine :=
  { m with memory := List.replicate m.memory.length 0, assigned := [] }

/-- Runs the entry point once. -/
def run (m : Machine) : Machine × Option MachineError := m.cleared.executeFrom 0 m.body

/-- Begins a run that is called off before its first statement; tells whether there was one to call
off. -/
def runCancelled (m : Machine) : Machine × Bool := (m.cleared, !m.body.isEmpty)

inductive Ending where
  | finished
  | failed (error : MachineError)
  | calledOff
  deriving DecidableEq, Repr

/-- Runs the entry point and calls the run off before statement number `limit`, if it gets there. -/
def runUntil (m : Machine) (limit : Nat) : Machine × Ending :=
  match m.cleared.executeFrom 0 (m.body.take limit) with
  | (m', some e) => (m', .failed e)
  | (m', none) => (m', if limit < m.body.length then .calledOff else .finished)

end Machine

end StateBuffer
