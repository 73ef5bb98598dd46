import StateBuffer.Source.Interner

/-!
The syntax tree of a compilation: imports and definitions of all files, their initializers, and
for each file the list of its items. Definitions are variables, which live in the state buffer,
and constants, which only stand for a value.
-/

namespace StateBuffer

/-- The chain of definitions around a node, outermost first. -/
abbrev Scope := List NodeId

def Scope.text (s : Scope) : Bytes := "[" ++ Bytes.join " " (s.map Bytes.ofNat) ++ "]"

inductive ExprBody where
  /-- An integer literal, underscores removed. -/
  | literal (digits : Bytes)
  /-- A reference to a definition by its name. -/
  | name (name : Bytes)
  deriving DecidableEq, Repr, Inhabited

def ExprBody.kindName : ExprBody → Bytes
  | .literal _ => "int literal"
  | .name _ => "identifier"

def ExprBody.kindNameOf : Nat → Bytes
  | 1 => "int literal"
  | 2 => "identifier"
  | _ => "unknown"

structure Expr where
  node : NodeId
  span : Span
  scope : Scope
  body : ExprBody
  deriving DecidableEq, Repr, Inhabited

/-- One step of an import path. -/
inductive Segment where
  /-- One level up from the importing file. -/
  | parent (span : Span)
  /-- A component of a dot path. -/
  | name (component : Bytes) (span : Span)
  deriving DecidableEq, Repr, Inhabited

namespace Segment

def span : Segment → Span
  | .parent span => span
  | .name _ span => span

def text : Segment → Bytes
  | .parent _ => "~"
  | .name component _ => component

end Segment

structure Import where
  node : NodeId
  isPublic : Bool
  pubSpan : Span
  keywordSpan : Span
  segments : List Segment
  deriving DecidableEq, Repr, Inhabited

namespace Import

/-- The span of the path, or of the keyword when the path is empty. -/
def pathSpan (i : Import) : Span :=
  match i.segments.head?, i.segments.getLast? with
  | some first, some last => first.span.cover last.span
  | _, _ => i.keywordSpan

def dotPath (i : Import) : Bytes := Bytes.join "." (i.segments.map Segment.text)

end Import

inductive DefinitionKind where
  | var
  | const
  deriving DecidableEq, Repr, Inhabited

/-- A named definition. Constants are private to their file. -/
structure Definition where
  kind : DefinitionKind
  node : NodeId
  scope : Scope
  isPublic : Bool
  pubSpan : Span
  keywordSpan : Span
  name : Bytes
  nameSpan : Span
  value : ExprId
  deriving DecidableEq, Repr, Inhabited

inductive ItemBody where
  | imports (i : Import)
  | definition (d : Definition)
  deriving DecidableEq, Repr, Inhabited

def ItemBody.kindName : ItemBody → Bytes
  | .imports _ => "import"
  | .definition d => match d.kind with
    | .var => "var"
    | .const => "const"

def ItemBody.kindNameOf : Nat → Bytes
  | 1 => "import"
  | 2 => "var"
  | 3 => "const"
  | _ => "unknown"

structure Item where
  file : FileId
  span : Span
  body : ItemBody
  deriving DecidableEq, Repr, Inhabited

/-- A definition together with its item and its file. -/
structure Declared where
  item : ItemId
  file : FileId
  definition : Definition
  deriving DecidableEq, Repr, Inhabited

structure Module where
  file : FileId
  items : List ItemId
  deriving DecidableEq, Repr, Inhabited

/-- All nodes of one compilation, and every name that was read. -/
structure Tree where
  names : Interner
  items : Array Item
  exprs : Array Expr
  modules : Array Module
  deriving Inhabited

namespace Tree

def empty : Tree := ⟨Interner.empty, #[], #[], #[]⟩

def item? (t : Tree) (id : ItemId) : Option Item := if id = 0 then none else t.items[id - 1]?

def expr? (t : Tree) (id : ExprId) : Option Expr := if id = 0 then none else t.exprs[id - 1]?

def importOf? (t : Tree) (id : ItemId) : Option Import :=
  match t.item? id with
  | some { body := .imports i, .. } => some i
  | _ => none

def definition? (t : Tree) (id : ItemId) : Option Declared :=
  match t.item? id with
  | some { file, body := .definition d, .. } => some ⟨id, file, d⟩
  | _ => none

def var? (t : Tree) (id : ItemId) : Option Declared :=
  (t.definition? id).filter fun d => d.definition.kind = .var

/-- Stores an initializer under the next number. -/
def addExpr (t : Tree) (e : Expr) : ExprId × Tree :=
  (t.exprs.size + 1, { t with exprs := t.exprs.push e })

/-- Stores an item under the next number. -/
def addItem (t : Tree) (file : FileId) (span : Span) (body : ItemBody) : ItemId × Tree :=
  (t.items.size + 1, { t with items := t.items.push ⟨file, span, body⟩ })

def addName (t : Tree) (name : Bytes) : Tree := { t with names := (t.names.intern name).2 }

/-- The module table grown so that a file has its entry. -/
def withModule (t : Tree) (file : FileId) : Tree :=
  let missing := (List.range (file - t.modules.size)).map fun i =>
    (⟨t.modules.size + i + 1, []⟩ : Module)
  { t with modules := t.modules ++ missing.toArray }

/-- The module of a file, the table grown as needed. -/
def module (t : Tree) (file : FileId) : Except Fault (Module × Tree) :=
  if file = 0 then .error .indexOutOfRange
  else
    let t := t.withModule file
    match t.modules[file - 1]? with
    | some m => .ok (m, t)
    | none => .error .indexOutOfRange

/-- Appends an item to the module of a file. -/
def push (t : Tree) (file : FileId) (id : ItemId) : Except Fault Tree :=
  if file = 0 then .error .indexOutOfRange
  else
    let t := t.withModule file
    .ok { t with
      modules := t.modules.modify (file - 1) fun m => { m with items := m.items ++ [id] } }

/-- The initializer of a definition that refers to a name. -/
def reference? (t : Tree) (d : Definition) : Option (Expr × Bytes) :=
  match t.expr? d.value with
  | some e => match e.body with
    | .name name => some (e, name)
    | .literal _ => none
  | none => none

end Tree

end StateBuffer
