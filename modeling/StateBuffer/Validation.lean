import StateBuffer.Diagnostic.Bag
import StateBuffer.Resolution.Dependencies
import StateBuffer.Text.Utf8

/-!
The rules a program must keep, file by file. A broken import makes the rest of its file
meaningless, so that file's definitions are skipped. A definition on a cycle or one that repeats a
name gets no further check. Style rules give warnings.
-/

namespace StateBuffer

namespace Validation

/-- Small letters, digits and underscores only. -/
def isSnakeCase (name : Bytes) : Bool :=
  name.all fun b => Bytes.isLower b || Bytes.isDigit b || b = 0x5F

/-- Capital letters, digits and underscores only. -/
def isScreamingSnakeCase (name : Bytes) : Bool :=
  name.all fun b => Bytes.isUpper b || Bytes.isDigit b || b = 0x5F

/-- A warning about a name that should be in snake case. -/
def checkSnakeCase (name : Bytes) (span : Span) : List Diagnostic :=
  if isSnakeCase name then []
  else [Diagnostic.warning Code.nameStyle span ("`" ++ name ++ "` identifier not in snake_case")]

/-- A warning about a name that should be in screaming snake case. -/
def checkScreamingSnakeCase (name : Bytes) (span : Span) : List Diagnostic :=
  if isScreamingSnakeCase name then []
  else [Diagnostic.warning Code.nameStyle span
    ("`" ++ name ++ "` identifier not in SCREAMING_SNAKE_CASE")]

/-- A warning about a name of one character, a lone underscore excepted. -/
def checkSingleCharacter (name : Bytes) (span : Span) : List Diagnostic :=
  if Utf8.count name = 1 ∧ name ≠ "_" then
    [Diagnostic.warning Code.singleCharacterName span
      ("`" ++ name ++ "` identifier is single character")]
  else []

/-- Checks an import; the second result tells whether the file can be checked further. -/
def checkImport (r : Resolution) (id : ItemId) (item : Span) (i : Import)
    (afterDefinition : Bool) : List Diagnostic × Bool :=
  match r.imports.edge? id with
  | none => ([], false)
  | some edge =>
    if edge.target.isNone then
      ([(Diagnostic.error Code.moduleNotFound i.pathSpan
          ("`" ++ edge.dotPath ++ "` module not found")).withNote Span.none
          ("cannot read \"" ++ edge.triedPath ++ "\"")], false)
    else if afterDefinition then
      ([Diagnostic.error Code.importNotAtTop item "import statement must precede all other items"],
        false)
    else
      let usage :=
        if edge.isSelfImport then
          [Diagnostic.warning Code.selfImport item "module imports itself"]
        else if !edge.isPublic && !edge.used then
          [Diagnostic.warning Code.unusedImport item ("`" ++ edge.dotPath ++ "` import unused")]
        else []
      let style := i.segments.flatMap fun
        | .parent _ => []
        | .name name span => checkSnakeCase name span
      (usage ++ style, true)

/-- The error of a definition on a cycle, for the one member of the cycle that reports it. -/
def circularError (d : Declared) (c : Cycle) : List Diagnostic :=
  if !c.isReported then []
  else
    let notes := c.stack.zipIdx.map fun (span, i) =>
      (⟨.info, span, if i + 1 = c.stack.length then "depends on itself"
        else "depends on this item"⟩ : Note)
    [{ Diagnostic.error Code.circularDependency d.definition.nameSpan
        ("`" ++ d.definition.name ++ "` item has circular dependencies") with notes }]

/-- A warning about a definition that is not used, or used against its name. -/
def checkUsage (r : Resolution) (d : Declared) : List Diagnostic :=
  let name := d.definition.name
  let span := d.definition.nameSpan
  match r.firstUse? d.item, Bytes.startsWith name "_" with
  | none, false =>
    [Diagnostic.warning Code.unusedValue span ("`" ++ name ++ "` value unused")]
  | some use, true =>
    [(Diagnostic.warning Code.usedUnderscore span
      ("`" ++ name ++ "` value used but name starting with `_`")).withNote use "value used here"]
  | _, _ => []

/-- The error of a name that is bound to nothing, with a hint at a private definition. -/
def unresolvedError (r : Resolution) (file : FileId) (e : Expr) (name : Bytes) : Diagnostic :=
  let error := Diagnostic.error Code.unresolvedName e.span ("`" ++ name ++ "` value not found")
  match r.searchPrivate file e name with
  | some b => error.withNote b.target.definition.nameSpan "value is not public"
  | none => error

def checkValue (r : Resolution) (d : Declared) : List Diagnostic :=
  match r.tree.expr? d.definition.value with
  | none => []
  | some e =>
    match e.body with
    | .literal digits =>
      if (Literal.value? digits).isSome then []
      else [Diagnostic.error Code.literalOutOfBounds e.span "`i32` literal out of bounds"]
    | .name name =>
      match r.binding? e.node with
      | none => [unresolvedError r d.file e name]
      | some b =>
        if d.definition.kind = .const ∧ b.target.definition.kind ≠ .const then
          [(Diagnostic.error Code.notConstant e.span "expression not constant").withNote
            d.definition.keywordSpan "expression must be constant"]
        else []

def checkDefinition (r : Resolution) (d : Declared) : List Diagnostic :=
  let name := d.definition.name
  let span := d.definition.nameSpan
  match r.dependencies d.item with
  | .error c => circularError d c
  | .ok _ =>
    match r.duplicate? d with
    | some other =>
      [(Diagnostic.error Code.duplicateName span
        ("`" ++ name ++ "` item defined multiple times")).withNote
        other.definition.nameSpan "item also defined here"]
    | none =>
      checkUsage r d ++ checkSingleCharacter name span
        ++ (match d.definition.kind with
          | .const => checkScreamingSnakeCase name span
          | .var => checkSnakeCase name span)
        ++ checkValue r d

/-- Checks the imports among items; `afterDefinition` tells whether a definition came before. -/
def checkImports (r : Resolution) (afterDefinition : Bool) : List ItemId → List Diagnostic × Bool
  | [] => ([], true)
  | id :: ids =>
    match r.tree.item? id with
    | some { span, body := .imports i, .. } =>
      let (found, ok) := checkImport r id span i afterDefinition
      let (more, allOk) := checkImports r afterDefinition ids
      (found ++ more, ok && allOk)
    | some { body := .definition _, .. } => checkImports r true ids
    | none => checkImports r afterDefinition ids

/-- Checks a file; the second result tells whether its definitions were checked. -/
def checkModule (r : Resolution) (m : Module) : List Diagnostic × Bool :=
  let (found, ok) := checkImports r false m.items
  if ok then (found ++ (m.items.filterMap r.tree.definition?).flatMap (checkDefinition r), true)
  else (found, false)

/-- What the check of all files found: the diagnostics in order, and the files whose definitions
were skipped. -/
structure Report where
  diagnostics : List Diagnostic
  skipped : List FileId
  deriving Inhabited

def Report.tally (r : Report) : Tally := r.diagnostics.foldl Tally.add Tally.zero

def check (r : Resolution) : Report :=
  let results := r.tree.modules.toList.map fun m => (m.file, checkModule r m)
  { diagnostics := results.flatMap fun x => x.2.1
    skipped := (results.filter fun x => !x.2.2).map Prod.fst }

end Validation

end StateBuffer
