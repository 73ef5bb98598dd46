import StateBuffer.Proofs.Syntax.Repetition

/-!
The readers of whole items. Each of the three kinds of items is read exactly where its tokens come
next: the alternatives before it fail at their keyword, and a path gives back the dot that belongs
to the names after its parents.
-/

namespace StateBuffer

namespace Grammar

open StateBuffer.Parser

/-! ### Alternatives -/

section Choice

variable {α : Type} {fallback : α} {error : Option SyntaxError} {a : α} {c c' : Cursor}

lemma merge_offset (error : Option SyntaxError) (e : SyntaxError) :
    ∃ m, SyntaxError.merge error (some e) = some m ∧
      (∀ e' ∈ error, e'.offset ≤ m.offset) ∧ e.offset ≤ m.offset ∧
      ((∃ e' ∈ error, m.offset = e'.offset) ∨ m.offset = e.offset) := by
  cases error with
  | none => exact ⟨e, rfl, by simp, Int.le_refl _, .inr rfl⟩
  | some e1 =>
    simp only [SyntaxError.merge, Option.mem_some_iff, forall_eq', exists_eq_left']
    split_ifs with h1 h2
    · exact ⟨e1, rfl, Int.le_refl _, by omega, .inl rfl⟩
    · exact ⟨e, rfl, by omega, Int.le_refl _, .inr rfl⟩
    · exact ⟨_, rfl, Int.le_refl _, by simp only; omega, .inl rfl⟩

lemma choiceFrom_sound {ps : List (Parser α)} (hne : error.isSome ∨ ps ≠ [])
    (h : choiceFrom fallback error ps c = (.ok a, c')) :
    ∃ p ∈ ps, ∃ d : Cursor, p (d.rewind c) = (.ok a, c') := by
  induction ps generalizing error c with
  | nil =>
    obtain ⟨e, rfl⟩ := Option.isSome_iff_exists.1 (hne.resolve_right (by simp))
    simp [choiceFrom] at h
  | cons p ps ih =>
    rcases hp : p c with ⟨e | b, c1⟩
    · simp only [choiceFrom, hp] at h
      obtain ⟨e', he, -⟩ := merge_offset error e
      rw [he] at h
      obtain ⟨q, hq, d, hd⟩ := ih (.inl rfl) h
      exact ⟨q, List.mem_cons_of_mem _ hq, d, hd⟩
    · simp only [choiceFrom, hp] at h
      refine ⟨p, List.mem_cons_self, c, ?_⟩
      rw [← h, ← hp]
      rfl

lemma choiceFrom_complete {l r : List (Parser α)} {p : Parser α} {Q : Cursor → Prop}
    (hl : ∀ q ∈ l, ∀ d : Cursor, ∃ e c', q (d.rewind c) = (.error e, c'))
    (hp : ∀ d : Cursor, ∃ c', p (d.rewind c) = (.ok a, c') ∧ Q c') :
    ∃ c', choiceFrom fallback error (l ++ p :: r) c = (.ok a, c') ∧ Q c' := by
  induction l generalizing error c with
  | nil =>
    obtain ⟨c', h, hq⟩ := hp c
    refine ⟨c', ?_, hq⟩
    have h' : p c = (.ok a, c') := h
    simp only [List.nil_append, choiceFrom, h']
  | cons q l ih =>
    obtain ⟨e, c1, h⟩ := hl q List.mem_cons_self c
    have h' : q c = (.error e, c1) := h
    simp only [List.cons_append, choiceFrom, h']
    exact ih (fun q hq d => hl q (List.mem_cons_of_mem _ hq) d) hp

end Choice

/-! ### Scopes and repetitions -/

/-- The cursor inside a new scope. -/
def inner (c : Cursor) : Cursor := { c with nextId := c.nextId + 1, scope := c.scope ++ [c.nextId] }

lemma of_inScope {α : Type} {body : NodeId → Parser α} {c c' : Cursor}
    {r : Except SyntaxError α} (h : inScope body c = (r, c')) :
    ∃ d, body c.nextId (inner c) = (r, d) ∧ c' = { d with scope := c.scope } := by
  rcases hb : body c.nextId (inner c) with ⟨r', d⟩
  have he : inScope body c = (r', { d with scope := c.scope }) := by
    show (_, _) = _
    rw [show body c.nextId { c with nextId := c.nextId + 1, scope := c.scope ++ [c.nextId] }
      = (r', d) from hb]
  rw [he] at h
  simp only [Prod.mk.injEq] at h
  exact ⟨d, by rw [h.1], h.2.symm⟩

lemma many_ok {α : Type} {least : Nat} {separator : Option (Parser Unit)} {item : Parser α}
    {c c' : Cursor} {found : Repetition α} :
    many least separator item c = (.ok found, c') ↔
      manyFrom least separator item 0 c = (found, c') := by
  rcases hm : manyFrom least separator item 0 c with ⟨found', c1⟩
  simp [many, hm]

lemma complete_ok {α : Type} {found : Repetition α} {c c' : Cursor} {items : List α}
    (h : complete found c = (.ok items, c')) :
    found.fatal = none ∧ items = found.items ∧ c' = c := by
  cases hf : found.fatal with
  | some e => simp [complete, hf, fail] at h
  | none =>
    simp only [complete, hf] at h
    cases h
    exact ⟨rfl, rfl, rfl⟩

lemma complete_of_none {α : Type} {found : Repetition α} (h : found.fatal = none) (c : Cursor) :
    complete found c = (.ok found.items, c) := by
  simp only [complete, h]
  rfl

/-! ### Shapes of tokens -/

lemma not_word_of_literal {text : Bytes} (h : IsLiteral text) : ¬ IsWord text := by
  rintro ⟨b, r, rfl, hb, -⟩
  obtain ⟨b', r', he, hb'⟩ := isLiteral_head h
  rw [List.cons.injEq] at he
  have := isWord_head hb
  rw [he.1] at this
  omega

lemma nonempty_dotted {α : Type} {P : Bytes → Prop} {f : Lexeme → α} {ts : List Lexeme}
    {as : List α} (h : Dotted P f ts as) : (!as.isEmpty) = true := by
  cases h <;> rfl

lemma head_dotted {α : Type} {P : Bytes → Prop} {f : Lexeme → α} {ts : List Lexeme} {as : List α}
    (h : Dotted P f ts as) : ∃ t us, ts = t :: us ∧ P t.text := by
  cases h with
  | one h => exact ⟨_, _, rfl, h⟩
  | more h _ _ => exact ⟨_, _, rfl, h⟩

lemma not_tilde_of_name {text : Bytes} (h : IsName text) : text ≠ "~" := by
  rintro rfl
  exact not_mark_of_word h.1 (by decide)

lemma getD_map_span (file : FileId) (pub : Option Lexeme) (k : Lexeme) :
    (pub.map (Lexeme.span file)).getD (k.span file) = (pub.getD k).span file := by
  cases pub <;> rfl

/-! ### Values and bindings -/

variable [CodePoint.Edition]

lemma expr_sound {c c' : Cursor} {value : Expr} (h : expr c = (.ok value, c')) :
    ∃ t, ExprOf c.file c.nextId c.scope t value ∧ Moved c [t] 1 c' := by
  obtain ⟨p, hp, d, hd⟩ := choiceFrom_sound (.inr (by simp)) h
  rcases List.mem_cons.1 hp with rfl | hp
  · obtain ⟨t, ht, rfl, hm⟩ := reads_expr_literal.moved hd
    exact ⟨t, .literal ht, hm.of_rewind⟩
  · obtain rfl := List.mem_singleton.1 hp
    obtain ⟨t, ht, rfl, hm⟩ := reads_reference.moved hd
    exact ⟨t, .name ht, hm.of_rewind⟩

lemma expr_complete {c : Cursor} {t : Lexeme} {us : List Lexeme} {value : Expr}
    (h : Lexed c.size c.rest (t :: us) []) (hv : ExprOf c.file c.nextId c.scope t value) :
    ∃ c', expr c = (.ok value, c') ∧ Moved c [t] 1 c' := by
  cases hv with
  | literal ht =>
    refine choiceFrom_complete (l := []) (by simp) fun d => ?_
    obtain ⟨c', h1, hm⟩ := reads_expr_literal.next (c := d.rewind c) h ht
    exact ⟨c', h1, hm.of_rewind⟩
  | name ht =>
    refine choiceFrom_complete (l := [literal]) (fun q hq d => ?_) fun d => ?_
    · obtain rfl := List.mem_singleton.1 hq
      exact reads_expr_literal.fails (c := d.rewind c) h fun hl => not_word_of_literal hl ht.1
    · obtain ⟨c', h1, hm⟩ := reads_reference.next (c := d.rewind c) h ht
      exact ⟨c', h1, hm.of_rewind⟩

lemma pub_sound {c c' : Cursor} {found : Option Span}
    (h : attempt (symbol "pub") c = (.ok found, c')) :
    ∃ pub : Option Lexeme, (∀ t ∈ pub, t.text = "pub") ∧ found = pub.map (Lexeme.span c.file) ∧
      Moved c pub.toList 0 c' ∧ (pub = none → Lacks c.size c.rest (· = "pub")) := by
  have hpub := reads_symbol (terminal_keyword (show ("pub" : Bytes) ∈ _ by decide))
  rcases hp : symbol "pub" c with ⟨e | span, c1⟩
  · simp only [attempt, hp, Prod.mk.injEq, Except.ok.injEq] at h
    obtain ⟨rfl, rfl⟩ := h
    exact ⟨none, by simp, rfl, (Moved.refl c).rewind, fun _ => (hpub.refused hp).2⟩
  · simp only [attempt, hp, Prod.mk.injEq, Except.ok.injEq] at h
    obtain ⟨rfl, rfl⟩ := h
    obtain ⟨t, ht, rfl, hm⟩ := hpub.moved hp
    exact ⟨some t, by simpa using ht, rfl, hm, by simp⟩

lemma pub_complete {c : Cursor} {pub : Option Lexeme} {t : Lexeme} {us : List Lexeme}
    (h : Lexed c.size c.rest (pub.toList ++ t :: us) []) (hp : ∀ t ∈ pub, t.text = "pub")
    (ht : t.text ≠ "pub") :
    ∃ c', attempt (symbol "pub") c = (.ok (pub.map (Lexeme.span c.file)), c') ∧
      Moved c pub.toList 0 c' := by
  cases pub with
  | none =>
    obtain ⟨e, c1, h1⟩ := (reads_symbol (terminal_keyword (by decide))).fails h ht
    exact ⟨c1.rewind c, by simp only [attempt, h1]; rfl, (Moved.refl c).rewind⟩
  | some p =>
    obtain ⟨c1, h1, hm⟩ := (reads_symbol (terminal_keyword (by decide))).next h (hp p rfl)
    exact ⟨c1, by simp only [attempt, h1]; rfl, hm⟩

lemma binding_sound {c c' : Cursor} {name : Token} {value : Expr} {stop : Span}
    (h : binding c = (.ok (name, value, stop), c')) :
    ∃ n s ts, BindingOf c.file c.nextId c.scope n s value ts ∧ name = ⟨n.span c.file, n.text⟩ ∧
      stop = s.span c.file ∧ Moved c ts 1 c' := by
  obtain ⟨name', c1, h1, h⟩ := bind_ok h
  obtain ⟨_, c2, h2, h⟩ := bind_ok h
  obtain ⟨value', c3, h3, h⟩ := bind_ok h
  obtain ⟨stop', c4, h4, h⟩ := bind_ok h
  cases h
  obtain ⟨n, hn, rfl, m1⟩ := reads_name.moved h1
  obtain ⟨e, he, -, m2⟩ := (reads_symbol (terminal_mark (by decide))).moved h2
  obtain ⟨t, ht, m3⟩ := expr_sound h3
  obtain ⟨s, hs, rfl, m4⟩ := (reads_symbol (terminal_mark (by decide))).moved h4
  have m12 := m1.trans m2
  rw [m12.file, m12.nextId, m12.scope] at ht
  refine ⟨n, s, _, .mk hn he ht hs, rfl, ?_, (m12.trans m3).trans m4⟩
  rw [(m12.trans m3).file]

lemma binding_complete {c : Cursor} {n s : Lexeme} {value : Expr} {ts us : List Lexeme}
    (h : Lexed c.size c.rest (ts ++ us) [])
    (hb : BindingOf c.file c.nextId c.scope n s value ts) :
    ∃ c', binding c = (.ok (⟨n.span c.file, n.text⟩, value, s.span c.file), c') ∧
      Moved c ts 1 c' := by
  obtain ⟨hn, he, ht, hs⟩ := hb
  rename_i equals t
  obtain ⟨c1, h1, m1⟩ := reads_name.next h hn
  obtain ⟨c2, h2, m2⟩ := (reads_symbol (terminal_mark (by decide))).next (m1.rest h) he
  have m12 := m1.trans m2
  have ht' : ExprOf c2.file c2.nextId c2.scope t value := by
    rw [m12.file, m12.nextId, m12.scope]
    exact ht
  obtain ⟨c3, h3, m3⟩ := expr_complete (m12.rest h) ht'
  have m13 := m12.trans m3
  obtain ⟨c4, h4, m4⟩ := (reads_symbol (terminal_mark (by decide))).next (m13.rest h) hs
  refine ⟨c4, ?_, m13.trans m4⟩
  unfold binding
  rw [bind_of_ok h1, bind_of_ok h2, bind_of_ok h3, bind_of_ok h4, m13.file]
  rfl

/-! ### Definitions -/

lemma inScope_moved {α : Type} {body : NodeId → Parser α} {c d : Cursor} {a : α}
    {ts : List Lexeme} {n : Nat} (h : body c.nextId (inner c) = (.ok a, d))
    (hm : Moved (inner c) ts n d) :
    inScope body c = (.ok a, { d with scope := c.scope }) ∧
      Moved c ts (n + 1) { d with scope := c.scope } := by
  constructor
  · show (_, _) = _
    rw [show body c.nextId { c with nextId := c.nextId + 1, scope := c.scope ++ [c.nextId] }
      = (.ok a, d) from h]
  · refine ⟨hm.lexed, hm.size, hm.file, rfl, ?_⟩
    have hn : d.nextId = c.nextId + 1 + n := hm.nextId
    rw [hn, Nat.add_assoc, Nat.add_comm 1 n]

/-- The item of a definition, from its parts. -/
def definitionItem (kind : DefinitionKind) (pub : Option Span) (keyword : Span) (node : NodeId)
    (scope : Scope) (name : Token) (value : Expr) (semicolon : Span) : ParsedItem :=
  .definition ((pub.getD keyword).cover semicolon)
    { kind, node, scope, isPublic := pub.isSome, pubSpan := pub.getD Span.none,
      keywordSpan := keyword, name := name.text, nameSpan := name.span, value := 0 }
    value

/-- The body of a definition after `pub`. -/
def definitionBody (kind : DefinitionKind) (word : Bytes) (pub : Option Span) (node : NodeId) :
    Parser ParsedItem := do
  let keyword ← symbol word
  let (name, value, semicolon) ← binding
  let scope ← scope
  record name.text
  return definitionItem kind pub keyword node scope name value semicolon

lemma varItem_eq : varItem = (do
    let pub ← attempt (symbol "pub")
    inScope (definitionBody .var "var" pub)) := rfl

lemma constItem_eq : constItem = inScope (definitionBody .const "const" none) := rfl

lemma definitionBody_sound {kind : DefinitionKind} {word : Bytes} (hw : Terminal word)
    {pub : Option Span} {node : NodeId} {c c' : Cursor} {item : ParsedItem}
    (h : definitionBody kind word pub node c = (.ok item, c')) :
    ∃ k n s value ts, k.text = word ∧ BindingOf c.file c.nextId c.scope n s value ts ∧
      item = definitionItem kind pub (k.span c.file) node c.scope ⟨n.span c.file, n.text⟩ value
        (s.span c.file) ∧ Moved c (k :: ts) 1 c' := by
  obtain ⟨keyword, c1, h1, h⟩ := bind_ok h
  obtain ⟨⟨name, value, stop⟩, c2, h2, h⟩ := bind_ok h
  obtain ⟨k, hk, rfl, m1⟩ := (reads_symbol hw).moved h1
  obtain ⟨n, s, ts, hb, rfl, rfl, m2⟩ := binding_sound h2
  have m12 := m1.trans m2
  cases h
  rw [m1.file, m1.nextId, m1.scope] at hb
  refine ⟨k, n, s, value, ts, hk, hb, ?_, m12.lexed, m12.size, m12.file, m12.scope, ?_⟩
  · rw [m12.scope, m1.file]
  · simpa using m12.nextId

lemma definitionBody_complete (kind : DefinitionKind) (pub : Option Span) (node : NodeId)
    {k n s : Lexeme} (hw : Terminal k.text) {c : Cursor} {value : Expr} {ts us : List Lexeme}
    (h : Lexed c.size c.rest (k :: (ts ++ us)) [])
    (hb : BindingOf c.file c.nextId c.scope n s value ts) :
    ∃ c', definitionBody kind k.text pub node c = (.ok (definitionItem kind pub (k.span c.file)
      node c.scope ⟨n.span c.file, n.text⟩ value (s.span c.file)), c') ∧
      Moved c (k :: ts) 1 c' := by
  obtain ⟨c1, h1, m1⟩ := (reads_symbol hw).next h rfl
  have hb' : BindingOf c1.file c1.nextId c1.scope n s value ts := by
    rw [m1.file, m1.nextId, m1.scope]
    exact hb
  obtain ⟨c2, h2, m2⟩ := binding_complete (m1.rest h) hb'
  have m12 := m1.trans m2
  refine ⟨{ c2 with matched := n.text :: c2.matched }, ?_, m12.lexed, m12.size, m12.file,
    m12.scope, m12.nextId⟩
  unfold definitionBody
  rw [bind_of_ok h1, bind_of_ok h2, m1.file]
  show (_, _) = _
  rw [m12.scope]

lemma varItem_sound {c c' : Cursor} (hc : c.scope = []) {item : ParsedItem}
    (h : varItem c = (.ok item, c')) :
    ∃ ts n, ItemOf c.file c.nextId ts item (c.nextId + n) ∧ Moved c ts n c' := by
  rw [varItem_eq] at h
  obtain ⟨found, c1, h1, h⟩ := bind_ok h
  obtain ⟨pub, hp, rfl, m1, -⟩ := pub_sound h1
  obtain ⟨d, hd, rfl⟩ := of_inScope h
  obtain ⟨k, n, s, value, ts, hk, hb, rfl, m2⟩ :=
    definitionBody_sound (terminal_keyword (by decide)) hd
  obtain ⟨-, m3⟩ := inScope_moved hd m2
  have hb' : BindingOf c.file (c.nextId + 1) [c.nextId] n s value ts := by
    have e1 : (inner c1).file = c.file := m1.file
    have e2 : (inner c1).nextId = c.nextId + 1 := congrArg (· + 1) m1.nextId
    have e3 : (inner c1).scope = [c.nextId] := by simp [inner, m1.scope, m1.nextId, hc]
    rwa [e1, e2, e3] at hb
  refine ⟨_, 2, ?_, by simpa using m1.trans m3⟩
  have hi := ItemOf.var hp hk hb'
  have e : inner c1 = { c1 with nextId := c.nextId + 1, scope := [c.nextId] } := by
    simp [inner, m1.scope, m1.nextId, hc]
  rw [← getD_map_span] at hi
  simpa [definitionItem, e, m1.file, m1.nextId, pubSpan] using hi

lemma constItem_sound {c c' : Cursor} (hc : c.scope = []) {item : ParsedItem}
    (h : constItem c = (.ok item, c')) :
    ∃ ts n, ItemOf c.file c.nextId ts item (c.nextId + n) ∧ Moved c ts n c' := by
  rw [constItem_eq] at h
  obtain ⟨d, hd, rfl⟩ := of_inScope h
  obtain ⟨k, n, s, value, ts, hk, hb, rfl, m2⟩ :=
    definitionBody_sound (terminal_keyword (by decide)) hd
  obtain ⟨-, m3⟩ := inScope_moved hd m2
  have e : inner c = { c with nextId := c.nextId + 1, scope := [c.nextId] } := by
    simp [inner, hc]
  rw [e] at hb
  refine ⟨_, 2, ?_, m3⟩
  simpa [definitionItem, e] using ItemOf.const hk hb

lemma varItem_complete {c : Cursor} (hc : c.scope = []) {pub : Option Lexeme} {k n s : Lexeme}
    {value : Expr} {ts us : List Lexeme}
    (h : Lexed c.size c.rest (pub.toList ++ k :: (ts ++ us)) [])
    (hp : ∀ t ∈ pub, t.text = "pub") (hk : k.text = "var")
    (hb : BindingOf c.file (c.nextId + 1) [c.nextId] n s value ts) :
    ∃ c', varItem c = (.ok (.definition (((pub.getD k).span c.file).cover (s.span c.file))
        { kind := .var, node := c.nextId, scope := [c.nextId], isPublic := pub.isSome,
          pubSpan := pubSpan c.file pub, keywordSpan := k.span c.file, name := n.text,
          nameSpan := n.span c.file, value := 0 } value), c') ∧
      Moved c (pub.toList ++ k :: ts) 2 c' := by
  obtain ⟨c1, h1, m1⟩ := pub_complete h hp (by rw [hk]; decide)
  have e : inner c1 = { c1 with nextId := c.nextId + 1, scope := [c.nextId] } := by
    simp [inner, m1.scope, m1.nextId, hc]
  have hb' : BindingOf (inner c1).file (inner c1).nextId (inner c1).scope n s value ts := by
    rw [e]
    simpa only [m1.file] using hb
  have hw : Terminal k.text := by rw [hk]; exact terminal_keyword (by decide)
  obtain ⟨c2, h2, m2⟩ := definitionBody_complete .var (pub.map (Lexeme.span c.file)) c1.nextId hw
    (c := inner c1) (m1.rest h) hb'
  rw [hk] at h2
  obtain ⟨h3, m3⟩ := inScope_moved h2 m2
  refine ⟨_, ?_, m1.trans m3⟩
  rw [varItem_eq, bind_of_ok h1, h3]
  have e1 : (inner c1).file = c.file := m1.file
  have e2 : (inner c1).scope = [c.nextId] := by rw [e]
  rw [e1, e2, m1.nextId, definitionItem, getD_map_span, Option.isSome_map]
  rfl

lemma constItem_complete {c : Cursor} (hc : c.scope = []) {k n s : Lexeme} {value : Expr}
    {ts us : List Lexeme} (h : Lexed c.size c.rest (k :: (ts ++ us)) []) (hk : k.text = "const")
    (hb : BindingOf c.file (c.nextId + 1) [c.nextId] n s value ts) :
    ∃ c', constItem c = (.ok (definitionItem .const none (k.span c.file) c.nextId [c.nextId]
      ⟨n.span c.file, n.text⟩ value (s.span c.file)), c') ∧ Moved c (k :: ts) 2 c' := by
  have e : inner c = { c with nextId := c.nextId + 1, scope := [c.nextId] } := by
    simp [inner, hc]
  have hb' : BindingOf (inner c).file (inner c).nextId (inner c).scope n s value ts := by
    rw [e]
    exact hb
  have hw : Terminal k.text := by rw [hk]; exact terminal_keyword (by decide)
  obtain ⟨c2, h2, m2⟩ := definitionBody_complete .const none c.nextId hw (c := inner c) h hb'
  rw [hk] at h2
  obtain ⟨h3, m3⟩ := inScope_moved h2 m2
  refine ⟨_, ?_, m3⟩
  have e1 : (inner c).file = c.file := rfl
  have e2 : (inner c).scope = [c.nextId] := by rw [e]
  rw [constItem_eq, h3, e1, e2]

/-! ### Imports -/

/-- The semicolon of an import, whose absence is reported with what stopped the path. -/
def importEnd (deferred : Option SyntaxError) : Parser Span := fun c =>
  match symbol ";" c with
  | (.ok span, c) => (.ok span, c)
  | (.error e, c) => (.error ((SyntaxError.merge deferred (some e)).getD e), c)

lemma importEnd_ok_iff {deferred : Option SyntaxError} {c c' : Cursor} {span : Span} :
    importEnd deferred c = (.ok span, c') ↔ symbol ";" c = (.ok span, c') := by
  rcases h : symbol ";" c with ⟨e | found, c1⟩ <;> simp [importEnd, h]

def importTail (pub : Option Span) (keyword : Span) (parents : List Segment) :
    Parser ParsedItem := do
  let names ← many 1 (some dot) nameSegment
  let components ← complete names
  let semicolon ← importEnd names.deferred
  let node ← freshId
  return .imports ((pub.getD keyword).cover semicolon)
    ⟨node, pub.isSome, pub.getD Span.none, keyword, parents ++ components⟩

def importPath (pub : Option Span) (keyword : Span) : Parser ParsedItem := do
  let parents ← complete (← many 0 (some dot) parentSegment)
  if !parents.isEmpty then do
    dot
    importTail pub keyword parents
  else importTail pub keyword parents

lemma importItem_eq : importItem = (do
    let pub ← attempt (symbol "pub")
    let keyword ← symbol "import"
    importPath pub keyword) := rfl

lemma importTail_sound {pub : Option Span} {keyword : Span} {parents : List Segment}
    {c c' : Cursor} {item : ParsedItem} (h : importTail pub keyword parents c = (.ok item, c')) :
    ∃ (ts : List Lexeme) (names : List Segment) (s : Lexeme),
      Dotted IsName (nameOf c.file) ts names ∧ s.text = ";" ∧
      item = .imports ((pub.getD keyword).cover (s.span c.file))
        ⟨c.nextId, pub.isSome, pub.getD Span.none, keyword, parents ++ names⟩ ∧
      Moved c (ts ++ [s]) 1 c' := by
  obtain ⟨found, c1, h1, h⟩ := bind_ok h
  obtain ⟨names, c2, h2, h⟩ := bind_ok h
  obtain ⟨stop, c3, h3, h⟩ := bind_ok h
  cases h
  rw [many_ok] at h1
  obtain ⟨hf, rfl, rfl⟩ := complete_ok h2
  obtain ⟨s, hs, rfl, m2⟩ :=
    (reads_symbol (terminal_mark (by decide))).moved (importEnd_ok_iff.1 h3)
  rcases dotted_cases reads_nameSegment (Nat.le_refl 1) h1 with
    ⟨-, -, -, ⟨hzero, -⟩ | ⟨-, e, hfatal, -⟩⟩ | ⟨ts, hts, m1, -, -⟩
  · simp at hzero
  · simp [hf] at hfatal
  · have m12 := m1.trans m2
    refine ⟨ts, _, s, hts, hs, ?_, m12.lexed, m12.size, m12.file, m12.scope, ?_⟩
    · rw [m12.nextId, m1.file]
      rfl
    · exact congrArg (· + 1) m12.nextId

lemma importTail_complete (pub : Option Span) (keyword : Span) (parents : List Segment)
    {c : Cursor} {ts us : List Lexeme} {names : List Segment} {s : Lexeme}
    (h : Lexed c.size c.rest (ts ++ s :: us) []) (hts : Dotted IsName (nameOf c.file) ts names)
    (hs : s.text = ";") :
    ∃ c', importTail pub keyword parents c = (.ok (.imports
      ((pub.getD keyword).cover (s.span c.file))
        ⟨c.nextId, pub.isSome, pub.getD Span.none, keyword, parents ++ names⟩), c') ∧
      Moved c (ts ++ [s]) 1 c' := by
  have hstop : Stops IsName (s :: us) := ⟨s, us, rfl, .inl (by rw [hs]; decide)⟩
  obtain ⟨deferred, c1, h1, m1⟩ := dotted_complete reads_nameSegment h hts hstop (Nat.le_refl 1)
  obtain ⟨c2, h2, m2⟩ := (reads_symbol (terminal_mark (by decide))).next (m1.rest h) hs
  have m12 := m1.trans m2
  refine ⟨{ c2 with nextId := c2.nextId + 1 }, ?_, m12.lexed, m12.size, m12.file, m12.scope,
    congrArg (· + 1) m12.nextId⟩
  unfold importTail
  rw [bind_of_ok (many_ok.2 h1), bind_of_ok (complete_of_none rfl _),
    bind_of_ok (importEnd_ok_iff.2 h2)]
  show (_, _) = _
  rw [m12.nextId, m1.file]
  rfl

lemma importItem_sound {c c' : Cursor} {item : ParsedItem} (h : importItem c = (.ok item, c')) :
    ∃ ts n, ItemOf c.file c.nextId ts item (c.nextId + n) ∧ Moved c ts n c' := by
  rw [importItem_eq] at h
  obtain ⟨found, c1, h1, h⟩ := bind_ok h
  obtain ⟨keyword, c2, h2, h⟩ := bind_ok h
  obtain ⟨pub, hp, rfl, m1, -⟩ := pub_sound h1
  obtain ⟨k, hk, rfl, m2⟩ := (reads_symbol (terminal_keyword (by decide))).moved h2
  obtain ⟨rep, c3, h3, h⟩ := bind_ok h
  obtain ⟨parents, c4, h4, htail⟩ := bind_ok h
  rw [many_ok] at h3
  obtain ⟨hf, rfl, rfl⟩ := complete_ok h4
  have m12 := m1.trans m2
  rw [m1.file] at htail
  -- the item, from the tokens of its path
  have finish : ∀ {path : List Lexeme} {segments : List Segment} {s : Lexeme},
      PathOf c.file path segments → s.text = ";" →
      Moved c2 (path ++ [s]) 1 c' →
      item = .imports (((pub.map (Lexeme.span c.file)).getD (k.span c.file)).cover (s.span c.file))
        ⟨c.nextId, (pub.map (Lexeme.span c.file)).isSome,
          (pub.map (Lexeme.span c.file)).getD Span.none, k.span c.file, segments⟩ →
      ∃ ts n, ItemOf c.file c.nextId ts item (c.nextId + n) ∧ Moved c ts n c' := by
    intro path segments s hpath hs m3 he
    refine ⟨_, 1, ?_, by simpa using m12.trans m3⟩
    have hi : ItemOf c.file c.nextId _ _ _ := .imports hp hk hpath hs
    rw [he]
    simpa [getD_map_span, pubSpan] using hi
  rcases dotted_cases reads_parent (Nat.zero_le 1) h3 with
    ⟨hnil, -, m3, -⟩ | ⟨us, hus, m3, -, -⟩
  · -- no parents
    rw [hnil] at htail
    obtain ⟨ts, names, s, hts, hs, he, m4⟩ := importTail_sound htail
    have m13 := m12.trans m3
    rw [m13.file] at hts he
    refine finish (.names hts) hs (by simpa using m3.trans m4) ?_
    rw [he, m13.nextId]
    rfl
  · rw [if_pos (nonempty_dotted hus)] at htail
    obtain ⟨_, c5, h5, h6⟩ := bind_ok htail
    obtain ⟨d, hd, -, m4⟩ := reads_dot.moved h5
    obtain ⟨ts, names, s, hts, hs, he, m5⟩ := importTail_sound h6
    have m14 := (m12.trans m3).trans m4
    rw [m14.file] at hts he
    rw [m12.file] at hus
    refine finish (.parents hus hd hts) hs (by simpa using (m3.trans m4).trans m5) ?_
    rw [he, m14.nextId]
    rfl

lemma importItem_complete {c : Cursor} {pub : Option Lexeme} {k s : Lexeme}
    {path us : List Lexeme} {segments : List Segment}
    (h : Lexed c.size c.rest (pub.toList ++ k :: (path ++ s :: us)) [])
    (hp : ∀ t ∈ pub, t.text = "pub") (hk : k.text = "import") (hs : s.text = ";")
    (hpath : PathOf c.file path segments) :
    ∃ c', importItem c = (.ok (.imports (((pub.getD k).span c.file).cover (s.span c.file))
        ⟨c.nextId, pub.isSome, pubSpan c.file pub, k.span c.file, segments⟩), c') ∧
      Moved c (pub.toList ++ k :: (path ++ [s])) 1 c' := by
  obtain ⟨c1, h1, m1⟩ := pub_complete h hp (by rw [hk]; decide)
  obtain ⟨c2, h2, m2⟩ := (reads_symbol (terminal_keyword (by decide))).next (m1.rest h) hk
  have m12 := m1.trans m2
  have h12 : Lexed c2.size c2.rest (path ++ s :: us) [] := m2.rest (m1.rest h)
  rw [importItem_eq, bind_of_ok h1, bind_of_ok h2, m1.file]
  unfold importPath
  cases hpath with
  | names hts =>
    obtain ⟨t, vs, hvs, ht⟩ := head_dotted hts
    obtain ⟨deferred, c3, h3, m3⟩ := dotted_absent reads_parent
      (show Lexed c2.size c2.rest (t :: (vs ++ s :: us)) [] by rw [hvs] at h12; exact h12)
      (not_tilde_of_name ht)
    have m13 := m12.trans m3
    obtain ⟨c4, h4, m4⟩ := importTail_complete (pub.map (Lexeme.span c.file)) (k.span c.file) []
      (m3.rest h12) (m13.file ▸ hts) hs
    refine ⟨c4, ?_, by simpa using m13.trans m4⟩
    rw [bind_of_ok (many_ok.2 h3), bind_of_ok (complete_of_none rfl _), if_neg (by simp), h4,
      m13.file, m13.nextId, getD_map_span, Option.isSome_map]
    rfl
  | @parents ps ts d parents names hps hd hts =>
    obtain ⟨t, vs, hvs, ht⟩ := head_dotted hts
    rw [List.append_assoc] at h12
    have hstop : Stops (· = "~") (d :: ts ++ s :: us) :=
      ⟨d, _, rfl, .inr ⟨t, vs ++ s :: us, by rw [hvs]; rfl, not_tilde_of_name ht⟩⟩
    obtain ⟨deferred, c3, h3, m3⟩ := dotted_complete reads_parent h12 (m12.file ▸ hps) hstop
      (Nat.zero_le 1)
    obtain ⟨c4, h4, m4⟩ := reads_dot.next (m3.rest h12) hd
    have m34 := m3.trans m4
    have m14 := m12.trans m34
    obtain ⟨c5, h5, m5⟩ := importTail_complete (pub.map (Lexeme.span c.file)) (k.span c.file)
      parents (m4.rest (m3.rest h12)) (m14.file ▸ hts) hs
    refine ⟨c5, ?_, by simpa using m14.trans m5⟩
    rw [bind_of_ok (many_ok.2 h3), bind_of_ok (complete_of_none rfl _),
      if_pos (nonempty_dotted hps), bind_of_ok h4, h5, m14.file, m14.nextId, getD_map_span,
      Option.isSome_map]
    rfl

/-! ### Items -/

lemma lexed_without_pub {size : Nat} {s : Bytes} {ts : List Lexeme} (h : Lexed size s ts []) :
    Lexed size s ((none : Option Lexeme).toList ++ ts) [] := h

lemma importItem_fails {c : Cursor} {pub : Option Lexeme} {k : Lexeme} {us : List Lexeme}
    (h : Lexed c.size c.rest (pub.toList ++ k :: us) []) (hp : ∀ t ∈ pub, t.text = "pub")
    (hpub : k.text ≠ "pub") (hk : k.text ≠ "import") : ∃ e c', importItem c = (.error e, c') := by
  obtain ⟨c1, h1, m1⟩ := pub_complete h hp hpub
  obtain ⟨e, c2, h2⟩ := (reads_symbol (terminal_keyword (by decide))).fails (m1.rest h) hk
  exact ⟨e, c2, by rw [importItem_eq, bind_of_ok h1, bind_of_error h2]⟩

lemma varItem_fails {c : Cursor} {k : Lexeme} {us : List Lexeme}
    (h : Lexed c.size c.rest (k :: us) []) (hpub : k.text ≠ "pub") (hk : k.text ≠ "var") :
    ∃ e c', varItem c = (.error e, c') := by
  refine fails_of_not_ok fun item c' hi => ?_
  obtain ⟨c1, h1, m1⟩ := pub_complete (lexed_without_pub h) (by simp) hpub
  rw [varItem_eq, bind_of_ok h1] at hi
  obtain ⟨d, hd, -⟩ := of_inScope hi
  obtain ⟨keyword, c2, h2, -⟩ := bind_ok hd
  obtain ⟨e, c3, h3⟩ := (reads_symbol (terminal_keyword (by decide))).fails (c := inner c1)
    (m1.rest h) hk
  rw [h3] at h2
  simp at h2

/-- **Soundness of items**: what is read as an item derives it. -/
lemma item_sound {c c' : Cursor} (hc : c.scope = []) {found : ParsedItem}
    (h : item c = (.ok found, c')) :
    ∃ ts n, ItemOf c.file c.nextId ts found (c.nextId + n) ∧ Moved c ts n c' := by
  obtain ⟨p, hp, d, hd⟩ := choiceFrom_sound (.inr (by simp)) h
  have hread : ∃ ts n, ItemOf c.file c.nextId ts found (c.nextId + n) ∧
      Moved (d.rewind c) ts n c' := by
    simp only [List.mem_cons, List.not_mem_nil, or_false] at hp
    rcases hp with rfl | rfl | rfl
    · exact importItem_sound hd
    · exact varItem_sound (c := d.rewind c) hc hd
    · exact constItem_sound (c := d.rewind c) hc hd
  obtain ⟨ts, n, hi, hm⟩ := hread
  exact ⟨ts, n, hi, hm.of_rewind⟩

/-- **Completeness of items**: what derives an item is read as that item. -/
lemma item_complete {c : Cursor} (hc : c.scope = []) {ts us : List Lexeme} {found : ParsedItem}
    {next : NodeId} (h : Lexed c.size c.rest (ts ++ us) [])
    (hi : ItemOf c.file c.nextId ts found next) :
    ∃ n, next = c.nextId + n ∧ ∃ c', item c = (.ok found, c') ∧ Moved c ts n c' := by
  cases hi with
  | @imports pub k s path segments hp hk hpath hs =>
    have hlex : Lexed c.size c.rest (pub.toList ++ k :: (path ++ s :: us)) [] := by simpa using h
    refine ⟨1, rfl, choiceFrom_complete (l := []) (by simp) fun d => ?_⟩
    obtain ⟨c', h1, m⟩ := importItem_complete (c := d.rewind c) hlex hp hk hs hpath
    exact ⟨c', h1, m.of_rewind⟩
  | @var pub k n s bs value hp hk hb =>
    have hlex : Lexed c.size c.rest (pub.toList ++ k :: (bs ++ us)) [] := by simpa using h
    refine ⟨2, rfl, choiceFrom_complete (l := [importItem]) (fun q hq d => ?_) fun d => ?_⟩
    · obtain rfl := List.mem_singleton.1 hq
      exact importItem_fails (c := d.rewind c) hlex hp (by rw [hk]; decide) (by rw [hk]; decide)
    · obtain ⟨c', h1, m⟩ := varItem_complete (c := d.rewind c) hc hlex hp hk hb
      exact ⟨c', h1, m.of_rewind⟩
  | @const k n s bs value hk hb =>
    have hpub : k.text ≠ "pub" := by rw [hk]; decide
    refine ⟨2, rfl, choiceFrom_complete (l := [importItem, varItem]) (fun q hq d => ?_)
      fun d => ?_⟩
    · simp only [List.mem_cons, List.not_mem_nil, or_false] at hq
      rcases hq with rfl | rfl
      · exact importItem_fails (c := d.rewind c) (lexed_without_pub h) (by simp) hpub
          (by rw [hk]; decide)
      · exact varItem_fails (c := d.rewind c) h hpub (by rw [hk]; decide)
    · obtain ⟨c', h1, m⟩ := constItem_complete (c := d.rewind c) hc h hk hb
      exact ⟨c', h1, m.of_rewind⟩

end Grammar

end StateBuffer
