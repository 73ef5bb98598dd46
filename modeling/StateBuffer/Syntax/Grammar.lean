import StateBuffer.Syntax.Combinator
import StateBuffer.Syntax.Tree

/-!
The language: a file is a list of imports, variables and constants, each ended by a semicolon. The
path of an import names a module by dots, after one tilde for each level to go up; a definition has
a name, and an integer literal or a name as its value.
-/

namespace StateBuffer

namespace Grammar

def keywords : List Bytes := ["const", "import", "var"]

def startsName (point : Nat) : Bool := CodePoint.isAsciiLetter point || point == 0x5F

/-- Is this an ASCII letter, a digit or an underscore? -/
def continuesName (point : Nat) : Bool := startsName point || CodePoint.isAsciiDigit point

/-- Names: a letter or underscore, then letters, digits and underscores. -/
def namePattern : Pattern where
  label := "identifier"
  parts := [⟨startsName, 1, some 1⟩, ⟨continuesName, 0, none⟩]
  excluded := keywords

/-- Literals: a minus sign if any, a digit, then digits and underscores. -/
def literalPattern : Pattern where
  label := "`i32` literal"
  parts :=
    [⟨fun point => point == 0x2D, 0, some 1⟩, ⟨CodePoint.isAsciiDigit, 1, some 1⟩,
      ⟨fun point => CodePoint.isAsciiDigit point || point == 0x5F, 0, none⟩]
  excluded := []

/-- An item that was read and is not yet stored; a definition comes with its initializer. -/
inductive ParsedItem where
  | imports (span : Span) (i : Import)
  | definition (span : Span) (d : Definition) (value : Expr)
  deriving DecidableEq, Repr, Inhabited

open StateBuffer.Parser

variable [CodePoint.Edition]

def literal : Parser Expr := do
  let t ← token literalPattern
  let node ← freshId
  let scope ← scope
  return ⟨node, t.span, scope, .literal (t.text.filter (· ≠ 0x5F))⟩

/-- A name in the place of a value. -/
def reference : Parser Expr := do
  let t ← token namePattern
  let node ← freshId
  let scope ← scope
  record t.text
  return ⟨node, t.span, scope, .name t.text⟩

def expr : Parser Expr := choice default [literal, reference]

def dot : Parser Unit := do
  let _ ← symbol "."

def parentSegment : Parser Segment := do
  let span ← symbol "~"
  return .parent span

/-- A component of an import path. -/
def nameSegment : Parser Segment := do
  let t ← token namePattern
  record t.text
  return .name t.text t.span

/-- The items of a repetition that must not fail. -/
def complete {α : Type} (found : Repetition α) : Parser (List α) :=
  match found.fatal with
  | some e => fail e
  | none => pure found.items

def importItem : Parser ParsedItem := do
  let pub ← attempt (symbol "pub")
  let keyword ← symbol "import"
  let parents ← complete (← many 0 (some dot) parentSegment)
  if !parents.isEmpty then dot
  let names ← many 1 (some dot) nameSegment
  let components ← complete names
  let semicolon : Span ← fun c => match symbol ";" c with
    | (.ok span, c) => (.ok span, c)
    | (.error e, c) => (.error ((SyntaxError.merge names.deferred (some e)).getD e), c)
  let node ← freshId
  return .imports ((pub.getD keyword).cover semicolon)
    ⟨node, pub.isSome, pub.getD Span.none, keyword, parents ++ components⟩

/-- A name, an equals sign, a value and a semicolon. -/
def binding : Parser (Token × Expr × Span) := do
  let name ← token namePattern
  let _ ← symbol "="
  let value ← expr
  let semicolon ← symbol ";"
  return (name, value, semicolon)

def varItem : Parser ParsedItem := do
  let pub ← attempt (symbol "pub")
  inScope fun node => do
    let keyword ← symbol "var"
    let (name, value, semicolon) ← binding
    let scope ← scope
    record name.text
    return .definition ((pub.getD keyword).cover semicolon)
      { kind := .var, node, scope, isPublic := pub.isSome, pubSpan := pub.getD Span.none,
        keywordSpan := keyword, name := name.text, nameSpan := name.span, value := 0 }
      value

def constItem : Parser ParsedItem :=
  inScope fun node => do
    let keyword ← symbol "const"
    let (name, value, semicolon) ← binding
    let scope ← scope
    record name.text
    return .definition (keyword.cover semicolon)
      { kind := .const, node, scope, isPublic := false, pubSpan := Span.none,
        keywordSpan := keyword, name := name.text, nameSpan := name.span, value := 0 }
      value

def item : Parser ParsedItem := choice default [importItem, varItem, constItem]

/-- What was read of a file: the complete items, the error that stopped it if any, the next free
node number and the names in the order in which they were read. -/
structure ParsedFile where
  items : List ParsedItem
  error : Option SyntaxError
  nextId : NodeId
  names : List Bytes

def file (id : FileId) (content : Bytes) (nextId : NodeId) : ParsedFile :=
  let (found, c) := manyFrom 0 none item 0 (Cursor.start id content nextId)
  ⟨found.items, found.fatal.or found.deferred, c.nextId, c.matched.reverse⟩

/-- Reads a single value at the start of a text. -/
def readExpr (id : FileId) (content : Bytes) (nextId : NodeId) : Except SyntaxError Expr × NodeId :=
  let (result, c) := expr (Cursor.start id content nextId)
  (result, c.nextId)

end Grammar

namespace Tree

def store (t : Tree) (file : FileId) : Grammar.ParsedItem → ItemId × Tree
  | .imports span i => t.addItem file span (.imports i)
  | .definition span d value =>
    let (valueId, t) := t.addExpr value
    t.addItem file span (.definition { d with value := valueId })

/-- Stores items of a file in order and lists them in its module. -/
def storeAll (t : Tree) (file : FileId) (items : List Grammar.ParsedItem) : List ItemId × Tree :=
  items.foldl
    (fun (ids, t) item =>
      let (id, t) := t.store file item
      (ids ++ [id], match t.push file id with
        | .ok t => t
        | .error _ => t))
    ([], t)

structure FileResult where
  items : List ItemId
  error : Option SyntaxError
  nextId : NodeId

/-- Reads a file into the tree. Items before a syntax error are kept. -/
def addFile [CodePoint.Edition] (t : Tree) (file : FileId) (content : Bytes) (nextId : NodeId) :
    FileResult × Tree :=
  let parsed := Grammar.file file content nextId
  let t := { t.withModule file with names := t.names.internAll parsed.names }
  let (ids, t) := t.storeAll file parsed.items
  (⟨ids, parsed.error, parsed.nextId⟩, t)

end Tree

end StateBuffer
