import StateBuffer.Text.Integer
import StateBuffer.Text.Quoted

/-!
What can stop the evaluation of a shader. Every cause has a code that never changes and a sentence;
a cause met while executing comes with the number of its statement.
-/

namespace StateBuffer

inductive Trap where
  | unreadable
  | noStruct
  | noEntryPoint
  | memberType (name : Bytes)
  | memberOutside (name : Bytes) (offset size : Nat)
  | unknownField (key : Bytes)
  | fieldSize (key : Bytes) (size : UInt32)
  | fieldOutside (key : Bytes)
  | unsupportedStatement (kind : Bytes)
  | compoundAssignment
  | notAMember (kind : Bytes)
  | foreignMember
  | unknownMember (name : Bytes)
  | unassigned (name : Bytes)
  | constructorType
  | argumentCount (count : Nat)
  | unsupportedCall
  | notAnInteger (text : Bytes)
  | badLiteral (text digits : Bytes) (fault : IntegerFault)
  | unsupportedOperator
  | unsupportedExpression (kind : Bytes)
  | tooWide (value : Int)
  deriving DecidableEq, Repr

namespace Trap

def code : Trap → Nat
  | .unreadable | .noStruct | .noEntryPoint => 1001
  | .unknownField _ | .unknownMember _ => 1002
  | .memberType _ | .fieldSize _ _ | .constructorType | .argumentCount _ | .notAnInteger _ => 1003
  | .memberOutside _ _ _ | .fieldOutside _ | .badLiteral _ _ _ | .tooWide _ => 1004
  | .unsupportedStatement _ | .notAMember _ | .foreignMember | .unsupportedCall
  | .unsupportedOperator | .unsupportedExpression _ => 1005
  | .unassigned _ => 1006
  | .compoundAssignment => 1999

def codeText (t : Trap) : Bytes := "VM" ++ Bytes.ofNat t.code

def sentence : Trap → Bytes
  | .unreadable => "cannot parse init shader: unexpected input"
  | .noStruct => "struct Buffer not found"
  | .noEntryPoint => "entry point main not found"
  | .memberType name => "member " ++ name ++ " is not i32"
  | .memberOutside name offset size =>
    "member " ++ name ++ " at offset " ++ Bytes.ofNat offset ++ " exceeds buffer size "
      ++ Bytes.ofNat size
  | .unknownField key => "unknown field " ++ Bytes.quote key
  | .fieldSize key size => "field " ++ Bytes.quote key ++ " has size " ++ Bytes.ofNat size.toNat
  | .fieldOutside key => "field " ++ Bytes.quote key ++ " outside the buffer"
  | .unsupportedStatement kind => "unsupported statement *wgsl." ++ kind
  | .compoundAssignment => "compound assignment"
  | .notAMember kind => "expected buffer member, got *wgsl." ++ kind
  | .foreignMember => "member access on something other than b"
  | .unknownMember name => "unknown member " ++ name
  | .unassigned name => name ++ " read before it was assigned"
  | .constructorType => "constructor is not i32"
  | .argumentCount count => "i32 takes one argument, got " ++ Bytes.ofNat count
  | .unsupportedCall => "unsupported call"
  | .notAnInteger text => "literal " ++ text ++ " is not an integer"
  | .badLiteral text digits fault =>
    "literal " ++ text ++ ": strconv.ParseInt: parsing " ++ Bytes.quote digits ++ ": "
      ++ fault.message
  | .unsupportedOperator => "unsupported unary operator"
  | .unsupportedExpression kind => "unsupported expression *wgsl." ++ kind
  | .tooWide value => "value " ++ Bytes.ofInt value ++ " does not fit i32"

end Trap

/-- A cause, and the number of the statement that met it. -/
structure MachineError where
  trap : Trap
  statement : Option Nat
  deriving DecidableEq, Repr

def MachineError.message (e : MachineError) : Bytes :=
  let place := match e.statement with
    | some i => " (statement " ++ Bytes.ofNat i ++ ")"
    | none => []
  "panic " ++ e.trap.codeText ++ ": " ++ e.trap.sentence ++ place

end StateBuffer
