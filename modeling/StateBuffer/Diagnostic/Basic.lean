import StateBuffer.Source.Span

/-!
Diagnostics: what is wrong or suspicious, how bad it is, where it is, and notes on other places
that explain it.
-/

namespace StateBuffer

/-- How bad a diagnostic is. Levels past error have no name. -/
inductive Severity where
  | info
  | warning
  | error
  | other (level : Nat)
  deriving DecidableEq, Repr, Inhabited

namespace Severity

def ofLevel : Nat → Severity
  | 0 => .info
  | 1 => .warning
  | 2 => .error
  | n => .other n

/-- The level of a severity; higher is worse. -/
def level : Severity → Nat
  | .info => 0
  | .warning => 1
  | .error => 2
  | .other n => n

def name : Severity → Bytes
  | .info => "info"
  | .warning => "warning"
  | .error => "error"
  | .other _ => "unknown"

end Severity

/-- The number of a kind of diagnostic. The thousands tell the area: syntax, meaning, files,
project. -/
structure Code where
  number : Nat
  deriving DecidableEq, Repr, Inhabited

namespace Code

def unexpectedToken : Code := ⟨2001⟩

def unresolvedName : Code := ⟨3001⟩

def duplicateName : Code := ⟨3002⟩

def circularDependency : Code := ⟨3003⟩

/-- A constant depends on a variable. -/
def notConstant : Code := ⟨3004⟩

def literalOutOfBounds : Code := ⟨3005⟩

def unusedValue : Code := ⟨3006⟩

def usedUnderscore : Code := ⟨3007⟩

/-- A name is not in the style of its kind. -/
def nameStyle : Code := ⟨3008⟩

def singleCharacterName : Code := ⟨3009⟩

def readFailed : Code := ⟨4001⟩

def writeFailed : Code := ⟨4002⟩

def invalidProgram : Code := ⟨4003⟩

def moduleNotFound : Code := ⟨5001⟩

/-- An import follows a definition. -/
def importNotAtTop : Code := ⟨5002⟩

def selfImport : Code := ⟨5003⟩

def unusedImport : Code := ⟨5004⟩

/-- The short written form: area and number. -/
def id (c : Code) : Bytes :=
  if 2000 ≤ c.number ∧ c.number < 3000 then "SYN" ++ Bytes.ofNat c.number
  else if 3000 ≤ c.number ∧ c.number < 4000 then "SEM" ++ Bytes.ofNat c.number
  else if 4000 ≤ c.number ∧ c.number < 5000 then "IO" ++ Bytes.ofNat c.number
  else if 5000 ≤ c.number ∧ c.number < 6000 then "PRJ" ++ Bytes.ofNat c.number
  else "E0000"

def title (c : Code) : Bytes :=
  match c.number with
  | 2000 => "Syntax information"
  | 2001 => "Unexpected token"
  | 3000 => "Semantic information"
  | 3001 => "Unresolved value"
  | 3002 => "Duplicate definition"
  | 3003 => "Circular dependency"
  | 3004 => "Expression not constant"
  | 3005 => "Literal out of bounds"
  | 3006 => "Unused value"
  | 3007 => "Underscore-prefixed value is used"
  | 3008 => "Naming convention"
  | 3009 => "Single character identifier"
  | 4000 => "I/O information"
  | 4001 => "Cannot read file"
  | 4002 => "Cannot write file"
  | 4003 => "Invalid compiled program"
  | 5000 => "Project information"
  | 5001 => "Module not found"
  | 5002 => "Import after other items"
  | 5003 => "Module imports itself"
  | 5004 => "Unused import"
  | _ => "Unknown error"

/-- The form with brackets and title. -/
def text (c : Code) : Bytes := "[" ++ c.id ++ "]: " ++ c.title

end Code

structure Note where
  severity : Severity
  span : Span
  message : Bytes
  deriving DecidableEq, Repr, Inhabited

/-- A diagnostic; its place is `Span.none` when it has none. -/
structure Diagnostic where
  severity : Severity
  code : Code
  message : Bytes
  span : Span
  notes : List Note
  deriving DecidableEq, Repr, Inhabited

namespace Diagnostic

def of (severity : Severity) (code : Code) (span : Span) (message : Bytes) : Diagnostic :=
  ⟨severity, code, message, span, []⟩

def error (code : Code) (span : Span) (message : Bytes) : Diagnostic :=
  of .error code span message

def warning (code : Code) (span : Span) (message : Bytes) : Diagnostic :=
  of .warning code span message

def withNote (d : Diagnostic) (span : Span) (message : Bytes) : Diagnostic :=
  { d with notes := d.notes ++ [⟨.info, span, message⟩] }

end Diagnostic

end StateBuffer
