import StateBuffer.Text.Bytes

/-!
Syntax trees of WGSL, in which front ends hand over what they read, as far as shaders of this
program and of its users need them: structs, module variables, functions, statements and
expressions. What nobody asks for has no place in a tree: the address spaces of variables, the
attributes of structs.
-/

namespace StateBuffer

namespace Wgsl

inductive TypeTree where
  /-- A name, and the types between angle brackets after it. -/
  | named (name : Bytes) (arguments : List TypeTree)
  /-- An array, and whether the number of its elements is written down as an integer. -/
  | array (element : TypeTree) (isSized : Bool)
  | pointer (target : TypeTree)
  deriving Repr, Inhabited

/-- The name of a type without its arguments; arrays and pointers have none. -/
def TypeTree.name? : TypeTree → Option Bytes
  | .named name _ => some name
  | _ => none

inductive LiteralKind where
  | integer
  | float
  | bool
  deriving DecidableEq, Repr, Inhabited

/-- An expression. Parentheses leave no trace. -/
inductive ExprTree where
  | literal (kind : LiteralKind) (text : Bytes)
  | ident (name : Bytes)
  | member (base : ExprTree) (name : Bytes)
  | index (base place : ExprTree)
  | call (function : Bytes) (arguments : List ExprTree)
  | construct (type : TypeTree) (arguments : List ExprTree)
  | unary (operator : Bytes) (operand : ExprTree)
  | binary (operator : Bytes) (left right : ExprTree)
  deriving Repr, Inhabited

def ExprTree.kindName : ExprTree → Bytes
  | .literal _ _ => "Literal"
  | .ident _ => "Ident"
  | .member _ _ => "MemberExpr"
  | .index _ _ => "IndexExpr"
  | .call _ _ => "CallExpr"
  | .construct _ _ => "ConstructExpr"
  | .unary _ _ => "UnaryExpr"
  | .binary _ _ _ => "BinaryExpr"

/-- A statement. -/
inductive Stmt where
  /-- `left operator right`, the operator being `=` or a compound one. -/
  | assign (left : ExprTree) (operator : Bytes) (right : ExprTree)
  | expression (value : ExprTree)
  /-- A variable, or a name for a value. -/
  | variable (name : Bytes) (type : Option TypeTree) (value : Option ExprTree)
  | return (value : Option ExprTree)
  | block (body : List Stmt)
  | conditional (condition : ExprTree) (body : List Stmt) (otherwise : List Stmt)
  | whileLoop (condition : ExprTree) (body : List Stmt)
  | loop (body : List Stmt)
  /-- A loop with its first step, condition and last step. -/
  | forLoop (first : List Stmt) (condition : Option ExprTree) (last : List Stmt)
      (body : List Stmt)
  | break
  | continue
  | discard
  deriving Repr, Inhabited

def Stmt.kindName : Stmt → Bytes
  | .assign _ _ _ => "AssignStmt"
  | .expression _ => "ExprStmt"
  | .variable _ _ _ => "VarDecl"
  | .return _ => "ReturnStmt"
  | .block _ => "BlockStmt"
  | .conditional _ _ _ => "IfStmt"
  | .whileLoop _ _ => "WhileStmt"
  | .loop _ => "LoopStmt"
  | .forLoop _ _ _ _ => "ForStmt"
  | .break => "BreakStmt"
  | .continue => "ContinueStmt"
  | .discard => "DiscardStmt"

/-- An attribute: its name and the values in parentheses after it. -/
structure AttributeTree where
  name : Bytes
  arguments : List ExprTree
  deriving Repr, Inhabited

/-- A name with its type and its attributes. -/
structure Member where
  attributes : List AttributeTree
  name : Bytes
  type : TypeTree
  deriving Repr, Inhabited

structure StructTree where
  name : Bytes
  members : List Member
  deriving Repr, Inhabited

structure ResultTree where
  attributes : List AttributeTree
  type : TypeTree
  deriving Repr, Inhabited

/-- A function: its attributes, its parameters, its result and its body. -/
structure FunctionTree where
  attributes : List AttributeTree
  name : Bytes
  parameters : List Member
  result : Option ResultTree
  body : List Stmt
  deriving Repr, Inhabited

structure ValueTree where
  attributes : List AttributeTree
  name : Bytes
  type : Option TypeTree
  value : Option ExprTree
  deriving Repr, Inhabited

inductive Declaration where
  | struct (s : StructTree)
  | function (f : FunctionTree)
  | variable (v : ValueTree)
  | constant (v : ValueTree)
  | alias (name : Bytes) (type : TypeTree)
  deriving Repr, Inhabited

structure ModuleTree where
  declarations : List Declaration
  deriving Repr, Inhabited

namespace ModuleTree

def structs (m : ModuleTree) : List StructTree :=
  m.declarations.filterMap fun
    | .struct s => some s
    | _ => none

def functions (m : ModuleTree) : List FunctionTree :=
  m.declarations.filterMap fun
    | .function f => some f
    | _ => none

def globals (m : ModuleTree) : List ValueTree :=
  m.declarations.filterMap fun
    | .variable v => some v
    | _ => none

def constants (m : ModuleTree) : List ValueTree :=
  m.declarations.filterMap fun
    | .constant v => some v
    | _ => none

end ModuleTree

end Wgsl

end StateBuffer
