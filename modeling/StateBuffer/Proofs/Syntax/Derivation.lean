import StateBuffer.Proofs.Syntax.Readers

/-!
The grammar over tokens, and the readers of its constructs. A derivation gives for a list of tokens
the item it stands for, with spans and node numbers: an import takes one number, a definition one
for itself and one for its value. Each reader is sound, what it read derives what it gave, and
complete, what derives is read. Completeness needs the token after a path, since the same dot
stands between parents and between names.
-/

namespace StateBuffer

namespace Grammar

open StateBuffer.Parser

/-! ### The grammar -/

/-- `Expr := IntLiteral | Name` -/
inductive ExprOf (file : FileId) (node : NodeId) (scope : Scope) (t : Lexeme) : Expr → Prop where
  | literal (h : IsLiteral t.text) :
      ExprOf file node scope t ⟨node, t.span file, scope, .literal (t.text.filter (· ≠ 0x5F))⟩
  | name (h : IsName t.text) : ExprOf file node scope t ⟨node, t.span file, scope, .name t.text⟩

/-- One construct of one token, and any number of further ones after dots. -/
inductive Dotted {α : Type} (P : Bytes → Prop) (f : Lexeme → α) : List Lexeme → List α → Prop where
  | one {t : Lexeme} (h : P t.text) : Dotted P f [t] [f t]
  | more {t dot : Lexeme} {ts : List Lexeme} {as : List α} (h : P t.text)
      (hd : dot.text = ".") (hs : Dotted P f ts as) : Dotted P f (t :: dot :: ts) (f t :: as)

def parentOf (file : FileId) (t : Lexeme) : Segment := .parent (t.span file)

def nameOf (file : FileId) (t : Lexeme) : Segment := .name t.text (t.span file)

/-- `('~' ('.' '~')* '.')? Name ('.' Name)*` -/
inductive PathOf (file : FileId) : List Lexeme → List Segment → Prop where
  | names {ts : List Lexeme} {names : List Segment} (h : Dotted IsName (nameOf file) ts names) :
      PathOf file ts names
  | parents {us ts : List Lexeme} {dot : Lexeme} {parents names : List Segment}
      (hp : Dotted (· = "~") (parentOf file) us parents) (hd : dot.text = ".")
      (h : Dotted IsName (nameOf file) ts names) : PathOf file (us ++ dot :: ts) (parents ++ names)

inductive BindingOf (file : FileId) (node : NodeId) (scope : Scope) (name semicolon : Lexeme)
    (value : Expr) : List Lexeme → Prop where
  | mk {equals t : Lexeme} (hn : IsName name.text) (he : equals.text = "=")
      (hv : ExprOf file node scope t value) (hs : semicolon.text = ";") :
      BindingOf file node scope name semicolon value [name, equals, t, semicolon]

/-- The span of `pub`, or no place when it is missing. -/
def pubSpan (file : FileId) (pub : Option Lexeme) : Span :=
  (pub.map (Lexeme.span file)).getD Span.none

/-- `Item := Import | VarDecl | ConstDecl`; the item starts with node `node`, and `next` is the
first one after it. -/
inductive ItemOf (file : FileId) (node : NodeId) : List Lexeme → ParsedItem → NodeId → Prop where
  /-- `'pub'? 'import' Path ';'` -/
  | imports {pub : Option Lexeme} {keyword semicolon : Lexeme} {path : List Lexeme}
      {segments : List Segment} (hp : ∀ t ∈ pub, t.text = "pub") (hk : keyword.text = "import")
      (hs : PathOf file path segments) (he : semicolon.text = ";") :
      ItemOf file node (pub.toList ++ keyword :: (path ++ [semicolon]))
        (.imports (((pub.getD keyword).span file).cover (semicolon.span file))
          ⟨node, pub.isSome, pubSpan file pub, keyword.span file, segments⟩)
        (node + 1)
  /-- `'pub'? 'var' Name '=' Expr ';'` -/
  | var {pub : Option Lexeme} {keyword name semicolon : Lexeme} {ts : List Lexeme} {value : Expr}
      (hp : ∀ t ∈ pub, t.text = "pub") (hk : keyword.text = "var")
      (hb : BindingOf file (node + 1) [node] name semicolon value ts) :
      ItemOf file node (pub.toList ++ keyword :: ts)
        (.definition (((pub.getD keyword).span file).cover (semicolon.span file))
          { kind := .var, node, scope := [node], isPublic := pub.isSome,
            pubSpan := pubSpan file pub, keywordSpan := keyword.span file, name := name.text,
            nameSpan := name.span file, value := 0 }
          value)
        (node + 2)
  /-- `'const' Name '=' Expr ';'` -/
  | const {keyword name semicolon : Lexeme} {ts : List Lexeme} {value : Expr}
      (hk : keyword.text = "const")
      (hb : BindingOf file (node + 1) [node] name semicolon value ts) :
      ItemOf file node (keyword :: ts)
        (.definition ((keyword.span file).cover (semicolon.span file))
          { kind := .const, node, scope := [node], isPublic := false, pubSpan := Span.none,
            keywordSpan := keyword.span file, name := name.text, nameSpan := name.span file,
            value := 0 }
          value)
        (node + 2)

/-- `Module := Item*`, with the numbers of its nodes from the first one on. -/
inductive ModuleOf (file : FileId) :
    NodeId → List Lexeme → List ParsedItem → NodeId → Prop where
  | nil (node : NodeId) : ModuleOf file node [] [] node
  | cons {node next last : NodeId} {ts us : List Lexeme} {item : ParsedItem}
      {items : List ParsedItem} (h : ItemOf file node ts item next)
      (hs : ModuleOf file next us items last) : ModuleOf file node (ts ++ us) (item :: items) last

/-! ### Readers of one token -/

variable [CodePoint.Edition]

lemma reads_expr_literal : TokenReader literal IsLiteral
    (fun c t => ⟨c.nextId, t.span c.file, c.scope, .literal (t.text.filter (· ≠ 0x5F))⟩) 1 := by
  refine reads_literal.then fun c t c' h => ⟨{ c' with nextId := c'.nextId + 1 }, ?_, ?_⟩
  · show (Except.ok _, _) = _
    rw [h.nextId, h.scope]
    rfl
  · exact ⟨.nil (.none _), rfl, rfl, rfl, rfl⟩

lemma reads_reference : TokenReader reference IsName
    (fun c t => ⟨c.nextId, t.span c.file, c.scope, .name t.text⟩) 1 := by
  refine reads_name.then fun c t c' h =>
    ⟨{ c' with nextId := c'.nextId + 1, matched := t.text :: c'.matched }, ?_, ?_⟩
  · show (Except.ok _, _) = _
    rw [h.nextId, h.scope]
    rfl
  · exact ⟨.nil (.none _), rfl, rfl, rfl, rfl⟩

lemma reads_dot : TokenReader dot (· = ".") (fun _ _ => ()) 0 :=
  (reads_symbol (terminal_mark (by decide))).then fun _ _ c' _ => ⟨c', rfl, .refl c'⟩

lemma reads_parent : TokenReader parentSegment (· = "~") (fun c t => parentOf c.file t) 0 :=
  (reads_symbol (terminal_mark (by decide))).then fun _ _ c' _ => ⟨c', rfl, .refl c'⟩

lemma reads_nameSegment : TokenReader nameSegment IsName (fun c t => nameOf c.file t) 0 :=
  reads_name.then fun _ t c' _ =>
    ⟨{ c' with matched := t.text :: c'.matched }, rfl, .nil (.none _), rfl, rfl, rfl, rfl⟩

end Grammar

end StateBuffer
