import StateBuffer.Proofs.Syntax.Items

/-!
Going back. A reader that fails may have skipped trivia, taken node numbers and opened scopes; what
it can never do is go back by itself, end with other scopes than it began with, or leave the text.
`Onward` says so of one run, and `Steady` of every run of a reader, failed ones too. It is what
makes a mark enough to go back: an offset, a number of scopes and a node number.
-/

namespace StateBuffer

open StateBuffer.Parser

/-- The cursor `c'` is `c`, or further on in the same text and under the same scopes. -/
structure Onward (c c' : Cursor) : Prop where
  rest : c'.rest <:+ c.rest
  size : c'.size = c.size
  file : c'.file = c.file
  scope : c'.scope = c.scope
  nextId : c.nextId ≤ c'.nextId

/-- Every run of the reader, failed or not, leaves the cursor where it was or further on. -/
def Steady {α : Type} (p : Parser α) : Prop := ∀ c, Onward c (p c).2

/-- Every successful run of the reader takes something of the text. -/
def Advances {α : Type} (p : Parser α) : Prop :=
  ∀ c a c', p c = (.ok a, c') → c'.rest.length < c.rest.length

/-! ### The order of cursors -/

namespace Onward

variable {c c' c'' d : Cursor}

lemma refl (c : Cursor) : Onward c c := ⟨List.suffix_rfl, rfl, rfl, rfl, Nat.le_refl _⟩

lemma trans (h : Onward c c') (h' : Onward c' c'') : Onward c c'' where
  rest := h'.rest.trans h.rest
  size := h'.size.trans h.size
  file := h'.file.trans h.file
  scope := h'.scope.trans h.scope
  nextId := Nat.le_trans h.nextId h'.nextId

lemma moveTo {rest : Bytes} (h : rest <:+ c.rest) : Onward c (c.moveTo rest) := by
  refine ⟨h, ?_, rfl, rfl, Nat.le_refl _⟩
  have := h.length_le
  simp only [Cursor.size, Cursor.moveTo]
  omega

lemma skipTrivia (c : Cursor) : Onward c c.skipTrivia := moveTo (trivia_dropTrivia c.rest).1.suffix

lemma rewind (h : Onward c c') (d : Cursor) : Onward c (d.rewind c') :=
  ⟨h.rest, h.size, h.file, h.scope, h.nextId⟩

lemma of_rewind (h : Onward (d.rewind c) c') : Onward c c' :=
  ⟨h.rest, h.size, h.file, h.scope, h.nextId⟩

end Onward

/-! ### Parts of tokens -/

lemma takePoints_suffix (accepts : Nat → Bool) (most : Option Nat) (s : Bytes) :
    (takePoints accepts most s).2 <:+ s := by
  fun_induction takePoints with
  | case1 => exact List.suffix_rfl
  | case2 => exact List.suffix_rfl
  | case3 most b r hmost point size hnext haccepts count rest hrec ih =>
    rw [hrec] at ih
    exact ih.trans ((List.drop_suffix _ r).trans (List.suffix_cons b r))
  | case4 => exact List.suffix_rfl

lemma takeParts_suffix {parts : List PatternPart} {s rest : Bytes}
    (h : takeParts parts s = some rest) : rest <:+ s := by
  induction parts generalizing s with
  | nil => exact (Option.some.inj h) ▸ List.suffix_rfl
  | cons part parts ih =>
    have hpoints := takePoints_suffix part.accepts part.most s
    rcases ht : takePoints part.accepts part.most s with ⟨count, s'⟩
    rw [ht] at hpoints
    simp only [takeParts, ht] at h
    split_ifs at h
    exact (ih h).trans hpoints

lemma Pattern.rest?_suffix {p : Pattern} {s rest : Bytes} (h : p.rest? s = some rest) :
    rest <:+ s := by
  simp only [Pattern.rest?, Option.bind_eq_bind, Option.bind_eq_some_iff] at h
  obtain ⟨rest', hparts, h⟩ := h
  split_ifs at h
  exact (Option.some.inj h) ▸ takeParts_suffix hparts

/-! ### Readers that go on -/

namespace Steady

variable {α β : Type} {p : Parser α}

lemma of_eq (hp : Steady p) {c c' : Cursor} {r : Except SyntaxError α} (h : p c = (r, c')) :
    Onward c c' := by
  have := hp c
  rwa [h] at this

lemma pure (a : α) : Steady (pure a : Parser α) := .refl

lemma fail (e : SyntaxError) : Steady (fail e : Parser α) := .refl

lemma bind {f : α → Parser β} (hp : Steady p) (hf : ∀ a, Steady (f a)) : Steady (p >>= f) := by
  intro c
  rcases h : p c with ⟨e | a, c'⟩
  · rw [bind_of_error h]
    exact hp.of_eq h
  · rw [bind_of_ok h]
    exact (hp.of_eq h).trans (hf a c')

lemma freshId : Steady freshId := fun _ => ⟨List.suffix_rfl, rfl, rfl, rfl, Nat.le_succ _⟩

lemma scope : Steady scope := .refl

lemma record (name : Bytes) : Steady (record name) :=
  fun _ => ⟨List.suffix_rfl, rfl, rfl, rfl, Nat.le_refl _⟩

lemma symbol (text : Bytes) : Steady (symbol text) := by
  intro c
  simp only [StateBuffer.symbol]
  split
  · exact .skipTrivia c
  · rename_i rest h
    split_ifs
    · exact .skipTrivia c
    · rw [dropStart?_eq_some] at h
      exact (Onward.skipTrivia c).trans (.moveTo ⟨text, h.symm⟩)

lemma token (shape : Pattern) : Steady (token shape) := by
  intro c
  simp only [StateBuffer.token]
  split
  · exact .skipTrivia c
  · rename_i h
    exact (Onward.skipTrivia c).trans (.moveTo (Pattern.rest?_suffix h))

lemma attempt (hp : Steady p) : Steady (attempt p) := by
  intro c
  rcases h : p c with ⟨e | a, c'⟩ <;> simp only [Parser.attempt, h]
  · exact (Onward.refl c).rewind c'
  · exact hp.of_eq h

lemma choice {fallback : α} {ps : List (Parser α)} (hps : ∀ p ∈ ps, Steady p) :
    Steady (choice fallback ps) := by
  have hfrom : ∀ error c, Onward c (choiceFrom fallback error ps c).2 := by
    induction ps with
    | nil =>
      intro error c
      cases error <;> exact .refl c
    | cons p ps ih =>
      intro error c
      rcases h : p c with ⟨e | a, c'⟩ <;> simp only [choiceFrom, h]
      · exact (ih (fun q hq => hps q (List.mem_cons_of_mem _ hq)) _ _).of_rewind
      · exact (hps p List.mem_cons_self).of_eq h
  exact hfrom none

lemma inScope {body : NodeId → Parser α} (hbody : ∀ id, Steady (body id)) :
    Steady (inScope body) := by
  intro c
  obtain ⟨hrest, hsize, hfile, -, hnext⟩ := hbody c.nextId (Grammar.inner c)
  exact ⟨hrest, hsize, hfile, rfl, Nat.le_trans (Nat.le_succ c.nextId) hnext⟩

lemma further {separator : Option (Parser Unit)} (hsep : ∀ sep ∈ separator, Steady sep)
    (hp : Steady p) (c : Cursor) : Onward c (further separator p c).2 := by
  cases separator with
  | none =>
    rcases h : p c with ⟨e | a, c'⟩ <;> simp only [Grammar.further_none, h] <;> exact hp.of_eq h
  | some sep =>
    rcases hs : sep c with ⟨e | u, c1⟩ <;> simp only [Grammar.further_some, hs]
    · exact (hsep sep rfl).of_eq hs
    · refine ((hsep sep rfl).of_eq hs).trans ?_
      rcases h : p c1 with ⟨e | a, c2⟩ <;> exact hp.of_eq h

lemma due {separator : Option (Parser Unit)} (hsep : ∀ sep ∈ separator, Steady sep) (index : Nat) :
    ∀ sep ∈ if index = 0 then none else separator, Steady sep := by
  split_ifs
  · simp
  · exact hsep

lemma turn {separator : Option (Parser Unit)} (hsep : ∀ sep ∈ separator, Steady sep)
    (hp : Steady p) {index : Nat} {c c' : Cursor} {r : Except Stop α}
    (h : Parser.further (if index = 0 then none else separator) p c.skipTrivia = (r, c')) :
    Onward c.skipTrivia c' := by
  have hgo := further (due hsep index) hp c.skipTrivia
  rwa [h] at hgo

lemma manyFrom {least : Nat} {separator : Option (Parser Unit)}
    (hsep : ∀ sep ∈ separator, Steady sep) (hp : Steady p) (index : Nat) (c : Cursor) :
    Onward c (manyFrom least separator p index c).2 := by
  fun_induction Parser.manyFrom least separator p index c with
  | case1 => exact .skipTrivia _
  | case2 index c start => exact (Onward.skipTrivia c).rewind _
  | case3 index c start => exact (Onward.skipTrivia c).rewind _
  | case4 index c start => exact (Onward.skipTrivia c).rewind _
  | case5 index c start hend a c' hfurther hlt more c'' hrec ih =>
    rw [hrec] at ih
    exact ((Onward.skipTrivia c).trans (turn hsep hp hfurther)).trans ih
  | case6 index c start hend a c' hfurther hlt =>
    exact (Onward.skipTrivia c).trans (turn hsep hp hfurther)

lemma many {least : Nat} {separator : Option (Parser Unit)}
    (hsep : ∀ sep ∈ separator, Steady sep) (hp : Steady p) : Steady (many least separator p) :=
  manyFrom hsep hp 0

end Steady

/-! ### Readers that take something -/

namespace Advances

variable {α β : Type} {p : Parser α} {f : α → Parser β}

lemma bind_left (h : Advances p) (hf : ∀ a, Steady (f a)) :
    Advances (p >>= f) := by
  intro c b c'' he
  obtain ⟨a, c', h1, h2⟩ := bind_ok he
  exact Nat.lt_of_le_of_lt ((hf a).of_eq h2).rest.length_le (h _ _ _ h1)

lemma bind_right (hp : Steady p) (h : ∀ a, Advances (f a)) : Advances (p >>= f) := by
  intro c b c'' he
  obtain ⟨a, c', h1, h2⟩ := bind_ok he
  exact Nat.lt_of_lt_of_le (h a _ _ _ h2) (hp.of_eq h1).rest.length_le

lemma inScope {body : NodeId → Parser α} (h : ∀ id, Advances (body id)) :
    Advances (inScope body) := by
  intro c a c' he
  obtain ⟨d, hd, rfl⟩ := Grammar.of_inScope he
  exact h c.nextId (Grammar.inner c) a d hd

lemma choice {fallback : α} {ps : List (Parser α)} (hne : ps ≠ []) (h : ∀ p ∈ ps, Advances p) :
    Advances (choice fallback ps) := by
  intro c a c' he
  obtain ⟨p, hp, d, hd⟩ := Grammar.choiceFrom_sound (.inr hne) he
  exact h p hp (d.rewind c) a c' hd

lemma further {separator : Option (Parser Unit)} (hsep : ∀ sep ∈ separator, Steady sep)
    (h : Advances p) {c c' : Cursor} {a : α} (he : further separator p c = (.ok a, c')) :
    c'.rest.length < c.rest.length := by
  cases separator with
  | none =>
    rcases hp : p c with ⟨e | b, c1⟩ <;> simp only [Grammar.further_none, hp] at he <;> cases he
    exact h _ _ _ hp
  | some sep =>
    rcases hs : sep c with ⟨e | u, c1⟩ <;> simp only [Grammar.further_some, hs] at he
    · cases he
    · rcases hp : p c1 with ⟨e | b, c2⟩ <;> simp only [hp] at he <;> cases he
      exact Nat.lt_of_lt_of_le (h _ _ _ hp) ((hsep sep rfl).of_eq hs).rest.length_le

end Advances

lemma TokenReader.advances {α : Type} {p : Parser α} {P : Bytes → Prop}
    {f : Cursor → Lexeme → α} {n : Nat} (hp : TokenReader p P f n) : Advances p := by
  intro c a c' h
  obtain ⟨t, -, -, hm⟩ := hp.moved h
  exact hm.lt (by simp)

/-! ### The readers of the grammar -/

namespace Grammar

lemma steady_literal : Steady literal :=
  (Steady.token _).bind fun _ => Steady.freshId.bind fun _ => Steady.scope.bind fun _ => .pure _

lemma steady_reference : Steady reference :=
  (Steady.token _).bind fun _ => Steady.freshId.bind fun _ => Steady.scope.bind fun _ =>
    (Steady.record _).bind fun _ => .pure _

lemma steady_expr : Steady expr := by
  refine .choice fun p hp => ?_
  rcases List.mem_cons.1 hp with rfl | hp
  · exact steady_literal
  · obtain rfl := List.mem_singleton.1 hp
    exact steady_reference

lemma steady_dot : Steady dot := (Steady.symbol _).bind fun _ => .pure _

lemma steady_parentSegment : Steady parentSegment := (Steady.symbol _).bind fun _ => .pure _

lemma steady_nameSegment : Steady nameSegment :=
  (Steady.token _).bind fun _ => (Steady.record _).bind fun _ => .pure _

lemma steady_complete {α : Type} (found : Repetition α) : Steady (complete found) := by
  unfold complete
  split
  · exact .fail _
  · exact .pure _

lemma steady_dotted {α : Type} {p : Parser α} (hp : Steady p) (least : Nat) :
    Steady (many least (some dot) p) :=
  .many (fun _ hs => Option.some.inj hs ▸ steady_dot) hp

lemma steady_importEnd (deferred : Option SyntaxError) : Steady (importEnd deferred) := by
  intro c
  have h := Steady.symbol ";" c
  rcases he : symbol ";" c with ⟨e | span, c'⟩ <;> rw [he] at h <;> simpa only [importEnd, he]

lemma steady_importTail (pub : Option Span) (keyword : Span) (parents : List Segment) :
    Steady (importTail pub keyword parents) :=
  (steady_dotted steady_nameSegment 1).bind fun _ => (steady_complete _).bind fun _ =>
    (steady_importEnd _).bind fun _ => Steady.freshId.bind fun _ => .pure _

lemma steady_importPath (pub : Option Span) (keyword : Span) : Steady (importPath pub keyword) := by
  refine (steady_dotted steady_parentSegment 0).bind fun _ => (steady_complete _).bind fun _ => ?_
  split_ifs
  · exact steady_dot.bind fun _ => steady_importTail _ _ _
  · exact steady_importTail _ _ _

lemma steady_pub : Steady (attempt (symbol "pub")) := (Steady.symbol _).attempt

lemma steady_importItem : Steady importItem := by
  rw [importItem_eq]
  exact steady_pub.bind fun _ => (Steady.symbol _).bind fun _ => steady_importPath _ _

lemma steady_binding : Steady binding :=
  (Steady.token _).bind fun _ => (Steady.symbol _).bind fun _ => steady_expr.bind fun _ =>
    (Steady.symbol _).bind fun _ => .pure _

lemma steady_definitionEnd (kind : DefinitionKind) (pub : Option Span) (node : NodeId)
    (keyword : Span) : Steady (do
      let (name, value, semicolon) ← binding
      let scope ← scope
      record name.text
      return definitionItem kind pub keyword node scope name value semicolon) :=
  steady_binding.bind fun _ => Steady.scope.bind fun _ => (Steady.record _).bind fun _ => .pure _

lemma steady_definitionBody (kind : DefinitionKind) (word : Bytes) (pub : Option Span)
    (node : NodeId) : Steady (definitionBody kind word pub node) :=
  (Steady.symbol _).bind fun _ => steady_definitionEnd kind pub node _

lemma steady_varItem : Steady varItem := by
  rw [varItem_eq]
  exact steady_pub.bind fun _ => .inScope fun _ => steady_definitionBody _ _ _ _

lemma steady_constItem : Steady constItem := by
  rw [constItem_eq]
  exact .inScope fun _ => steady_definitionBody _ _ _ _

lemma advances_symbol {text : Bytes} (h : text ∈ ("pub" : Bytes) :: keywords) :
    Advances (symbol text) :=
  (reads_symbol (terminal_keyword h)).advances

lemma advances_importItem : Advances importItem := by
  rw [importItem_eq]
  exact .bind_right steady_pub fun _ =>
    .bind_left (advances_symbol (by decide)) fun _ => steady_importPath _ _

lemma advances_definitionBody {word : Bytes} (h : word ∈ ("pub" : Bytes) :: keywords)
    (kind : DefinitionKind) (pub : Option Span) (node : NodeId) :
    Advances (definitionBody kind word pub node) :=
  .bind_left (advances_symbol h) fun _ => steady_definitionEnd kind pub node _

lemma advances_varItem : Advances varItem := by
  rw [varItem_eq]
  exact .bind_right steady_pub fun _ =>
    .inScope fun _ => advances_definitionBody (by decide) _ _ _

lemma advances_constItem : Advances constItem := by
  rw [constItem_eq]
  exact .inScope fun _ => advances_definitionBody (by decide) _ _ _

lemma forall_mem_items {P : Parser ParsedItem → Prop} (himport : P importItem) (hvar : P varItem)
    (hconst : P constItem) : ∀ p ∈ [importItem, varItem, constItem], P p := by
  intro p hp
  simp only [List.mem_cons, List.not_mem_nil, or_false] at hp
  rcases hp with rfl | rfl | rfl
  exacts [himport, hvar, hconst]

lemma steady_item : Steady item :=
  .choice (forall_mem_items steady_importItem steady_varItem steady_constItem)

/-- **An item takes something of the text**, under any open scopes. -/
theorem advances_item : Advances item :=
  .choice (by simp) (forall_mem_items advances_importItem advances_varItem advances_constItem)

/-- The readers that the grammar is made of, and what alternatives and options make of them, such as
values and items. -/
inductive OfGrammar : {α : Type} → Parser α → Prop where
  | symbol (text : Bytes) : OfGrammar (symbol text)
  | token (shape : Pattern) : OfGrammar (token shape)
  | literal : OfGrammar literal
  | reference : OfGrammar reference
  | dot : OfGrammar dot
  | parentSegment : OfGrammar parentSegment
  | nameSegment : OfGrammar nameSegment
  | binding : OfGrammar binding
  | importItem : OfGrammar importItem
  | varItem : OfGrammar varItem
  | constItem : OfGrammar constItem
  | choice {α : Type} (fallback : α) {ps : List (Parser α)} (h : ∀ p ∈ ps, OfGrammar p) :
      OfGrammar (choice fallback ps)
  | attempt {α : Type} {p : Parser α} (h : OfGrammar p) : OfGrammar (attempt p)

lemma OfGrammar.steady {α : Type} {p : Parser α} (h : OfGrammar p) : Steady p := by
  induction h with
  | symbol text => exact .symbol text
  | token shape => exact .token shape
  | literal => exact steady_literal
  | reference => exact steady_reference
  | dot => exact steady_dot
  | parentSegment => exact steady_parentSegment
  | nameSegment => exact steady_nameSegment
  | binding => exact steady_binding
  | importItem => exact steady_importItem
  | varItem => exact steady_varItem
  | constItem => exact steady_constItem
  | choice fallback _ ih => exact .choice ih
  | attempt _ ih => exact ih.attempt

end Grammar

/-! ### Marks -/

/-- What is kept of a cursor to go back to it. -/
structure Mark where
  offset : Nat
  depth : Nat
  nextId : NodeId
  deriving DecidableEq, Repr

namespace Cursor

/-- The mark of a cursor: its offset, how many scopes are open and the next node number. -/
def mark (c : Cursor) : Mark := ⟨c.offset, c.scope.length, c.nextId⟩

/-- Goes back to a mark in a text. Scopes above it are closed; those below stay as they are. -/
def restore (text : Bytes) (c : Cursor) (m : Mark) : Cursor :=
  { c with
    offset := m.offset, rest := text.drop m.offset, scope := c.scope.take m.depth,
    nextId := m.nextId }

/-- The cursor stands in the text. -/
def In (text : Bytes) (c : Cursor) : Prop := c.offset ≤ text.length ∧ c.rest = text.drop c.offset

/-- The cursor `c'` is `c` but for the record of names. -/
structure Unmoved (c c' : Cursor) : Prop where
  file : c'.file = c.file
  offset : c'.offset = c.offset
  rest : c'.rest = c.rest
  scope : c'.scope = c.scope
  nextId : c'.nextId = c.nextId

variable {text : Bytes} {c c' d : Cursor}

lemma Unmoved.rewind (c d : Cursor) : c.Unmoved (d.rewind c) := ⟨rfl, rfl, rfl, rfl, rfl⟩

lemma Unmoved.of_rewind (h : (d.rewind c).Unmoved c') : c.Unmoved c' :=
  ⟨h.file, h.offset, h.rest, h.scope, h.nextId⟩

lemma In.size (hc : c.In text) : c.size = text.length := by
  rw [Cursor.size, hc.2, List.length_drop]
  have := hc.1
  omega

lemma In.onward (hc : c.In text) (h : Onward c c') : c'.In text := by
  have hsuffix : c'.rest <:+ text := h.rest.trans (hc.2 ▸ List.drop_suffix _ _)
  have hsize : c'.offset + c'.rest.length = text.length := h.size.trans hc.size
  have hoffset : c'.offset = text.length - c'.rest.length := by omega
  exact ⟨by omega, hoffset ▸ List.suffix_iff_eq_drop.1 hsuffix⟩

/-- **A mark is enough to go back**: wherever a cursor went on to, its mark brings it back. -/
theorem restore_mark (hc : c.In text) (h : Onward c c') :
    c'.restore text c.mark = c'.rewind c := by
  have hrest : text.drop c.offset = c.rest := hc.2.symm
  simp only [restore, mark, Cursor.rewind, h.file, h.scope, List.take_length, hrest]

end Cursor

lemma Parser.choiceFrom_unmoved {α : Type} {fallback : α} {error : Option SyntaxError}
    {ps : List (Parser α)} {c c' : Cursor} {e : SyntaxError}
    (h : choiceFrom fallback error ps c = (.error e, c')) : c.Unmoved c' := by
  induction ps generalizing error c with
  | nil =>
    cases error <;> cases h
    exact .rewind c' c'
  | cons p ps ih =>
    rcases hp : p c with ⟨e' | a, c1⟩ <;> simp only [choiceFrom, hp] at h
    · exact (ih h).of_rewind
    · cases h

lemma Parser.attempt_unmoved {α : Type} {p : Parser α} {c c' : Cursor}
    (h : attempt p c = (.ok none, c')) : c.Unmoved c' := by
  rcases hp : p c with ⟨e | a, c1⟩ <;> simp only [attempt, hp] at h <;> cases h
  exact .rewind c c1

end StateBuffer
