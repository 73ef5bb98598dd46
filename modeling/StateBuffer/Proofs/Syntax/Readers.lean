import StateBuffer.Proofs.Syntax.Lexeme

/-!
What one reader does to the cursor. A reader that succeeds has moved over a list of tokens and taken
some node numbers; `Moved` says both, and leaves out the record of names, on which nothing depends.
For symbols and patterns both directions hold: they succeed exactly when their token comes next.
-/

namespace StateBuffer

open StateBuffer.Utf8

def Cursor.size (c : Cursor) : Nat := c.offset + c.rest.length

lemma size_start (file : FileId) (content : Bytes) (nextId : NodeId) :
    (Cursor.start file content nextId).size = content.length := by
  simp [Cursor.size, Cursor.start]

/-- The offset of what comes next in `s`, the end of a text of `size` bytes. -/
def ahead (size : Nat) (s : Bytes) : Int := size - (dropTrivia s).length

@[simp] lemma skipTrivia_rest (c : Cursor) : c.skipTrivia.rest = dropTrivia c.rest := rfl

lemma dropTrivia_length (s : Bytes) : (dropTrivia s).length ≤ s.length :=
  (trivia_dropTrivia s).1.suffix.length_le

@[simp] lemma skipTrivia_size (c : Cursor) : c.skipTrivia.size = c.size := by
  have := dropTrivia_length c.rest
  simp only [Cursor.size, Cursor.skipTrivia, Cursor.moveTo]
  omega

lemma offset_skipTrivia (c : Cursor) : (c.skipTrivia.offset : Int) = ahead c.size c.rest := by
  have hlen := dropTrivia_length c.rest
  simp only [ahead, Cursor.size, Cursor.skipTrivia, Cursor.moveTo]
  omega

lemma ahead_of_trivia {size : Nat} {s s' : Bytes} (h : Trivia s s') :
    ahead size s = ahead size s' := by
  rw [ahead, ahead, dropTrivia_of_trivia h]

/-! ### Sequences of readers -/

section Sequence

variable {α β : Type} {p : Parser α} {f : α → Parser β} {c c' : Cursor} {a : α} {b : β}
  {e : SyntaxError}

lemma bind_of_ok (h : p c = (.ok a, c')) : (p >>= f) c = f a c' := by
  simp only [bind, h]

lemma bind_of_error (h : p c = (.error e, c')) : (p >>= f) c = (.error e, c') := by
  simp only [bind, h]

lemma bind_ok {c'' : Cursor} (h : (p >>= f) c = (.ok b, c'')) :
    ∃ a c', p c = (.ok a, c') ∧ f a c' = (.ok b, c'') := by
  rcases hp : p c with ⟨e | a, c'⟩
  · rw [bind_of_error hp] at h
    simp at h
  · rw [bind_of_ok hp] at h
    exact ⟨a, c', rfl, h⟩

lemma bind_error {c'' : Cursor} (h : (p >>= f) c = (.error e, c'')) :
    p c = (.error e, c'') ∨ ∃ a c', p c = (.ok a, c') ∧ f a c' = (.error e, c'') := by
  rcases hp : p c with ⟨e' | a, c'⟩
  · rw [bind_of_error hp] at h
    cases h
    exact .inl rfl
  · rw [bind_of_ok hp] at h
    exact .inr ⟨a, c', rfl, h⟩

lemma fails_of_not_ok (h : ∀ a c', p c ≠ (.ok a, c')) : ∃ e c', p c = (.error e, c') := by
  rcases hp : p c with ⟨e | a, c'⟩
  · exact ⟨e, c', rfl⟩
  · exact absurd hp (h a c')

end Sequence

/-! ### Texts of symbols -/

lemma dropStart?_eq_some (s start rest : Bytes) :
    Bytes.dropStart? s start = some rest ↔ s = start ++ rest := by
  induction start generalizing s with
  | nil => simp [Bytes.dropStart?]
  | cons b r ih =>
    cases s with
    | nil => simp [Bytes.dropStart?]
    | cons b' r' =>
      by_cases hb : b' = b
      · simp [Bytes.dropStart?, hb, ih]
      · simp [Bytes.dropStart?, hb]

lemma isWord_of_check {b : UInt8} {r : Bytes}
    (h : ((Bytes.isLetter b || b == 0x5F) && r.all isNameByte) = true) : IsWord (b :: r) := by
  rw [Bool.and_eq_true, List.all_eq_true] at h
  exact ⟨b, r, rfl, h.1, h.2⟩

lemma not_mark_of_word {text : Bytes} (h : IsWord text) : text ∉ marks := by
  intro hm
  obtain ⟨b, hb, hb1⟩ := mark_head hm
  obtain ⟨b', r, hb', hb2, -⟩ := h
  rw [hb, List.cons.injEq] at hb'
  have := isWord_head hb2
  rw [← hb'.1] at this
  omega

lemma not_mark_of_literal {text : Bytes} (h : IsLiteral text) : text ∉ marks := by
  intro hm
  obtain ⟨b, hb, hb1⟩ := mark_head hm
  obtain ⟨b', r, hb', hb2⟩ := isLiteral_head h
  rw [hb, List.cons.injEq] at hb'
  rw [← hb'.1] at hb2
  omega

lemma length_token (text rest : Bytes) : (text ++ rest).length - rest.length = text.length := by
  rw [List.length_append, Nat.add_sub_cancel]

/-! ### Moving along tokens -/

variable [CodePoint.Edition]

/-- No token of the shape `P` comes next in `s`. -/
def Lacks (size : Nat) (s : Bytes) (P : Bytes → Prop) : Prop :=
  ∀ t rest, Leads size s t rest → ¬ P t.text

/-- The cursor `c'` is `c` after the tokens `ts`, with `n` node numbers taken. -/
structure Moved (c : Cursor) (ts : List Lexeme) (n : Nat) (c' : Cursor) : Prop where
  lexed : Lexed c.size c.rest ts c'.rest
  size : c'.size = c.size
  file : c'.file = c.file
  scope : c'.scope = c.scope
  nextId : c'.nextId = c.nextId + n

lemma Leads.of_trivia {size : Nat} {s s' rest : Bytes} {t : Lexeme} (h : Trivia s s')
    (h' : Leads size s' t rest) : Leads size s t rest := by
  obtain ⟨h1, h2, h3⟩ := h'
  exact ⟨h.trans h1, h2, h3⟩

lemma Lexed.of_trivia {size : Nat} {s s' s'' : Bytes} {ts : List Lexeme} (h : Trivia s s')
    (h' : Lexed size s' ts s'') : Lexed size s ts s'' := by
  cases h' with
  | nil h' => exact .nil (h.trans h')
  | cons hl hr => exact .cons (hl.of_trivia h) hr

lemma Lexed.append {size : Nat} {s s' s'' : Bytes} {ts us : List Lexeme}
    (h : Lexed size s ts s') (h' : Lexed size s' us s'') : Lexed size s (ts ++ us) s'' := by
  induction h with
  | nil h => exact h'.of_trivia h
  | cons hl _ ih => exact .cons hl (ih h')

lemma Lexed.length_le {size : Nat} {s s' : Bytes} {ts : List Lexeme} (h : Lexed size s ts s') :
    s'.length + ts.length ≤ s.length := by
  induction h with
  | nil h => simpa using h.suffix.length_le
  | cons hl _ ih =>
    have := hl.length_lt
    simp only [List.length_cons]
    omega

lemma Leads.after_trivia {size : Nat} {s s' rest : Bytes} {t : Lexeme} (h : Trivia s s')
    (h' : Leads size s t rest) : Leads size s' t rest := by
  have he : dropTrivia s' = t.text ++ rest := (dropTrivia_of_trivia h) ▸ h'.dropTrivia_eq
  obtain ⟨-, h2, h3⟩ := h'
  exact ⟨he ▸ (trivia_dropTrivia s').1, h2, h3⟩

lemma Lexed.rest {size : Nat} {s s' : Bytes} {ts us : List Lexeme} (h : Lexed size s ts s')
    (h' : Lexed size s (ts ++ us) []) : Lexed size s' us [] := by
  induction h with
  | @nil s s' h =>
    cases h' with
    | nil h' =>
      have he : dropTrivia s' = [] := by
        rw [← dropTrivia_of_trivia h, dropTrivia_of_trivia h', dropTrivia_solid ⟨rfl, by simp⟩]
      exact .nil (he ▸ (trivia_dropTrivia s').1)
    | cons hl hr => exact .cons (hl.after_trivia h) hr
  | cons hl _ ih =>
    cases h' with
    | cons hl' hr' => exact ih ((hl.unique hl').2 ▸ hr')

lemma Moved.refl (c : Cursor) : Moved c [] 0 c := ⟨.nil (.none _), rfl, rfl, rfl, rfl⟩

lemma Moved.trans {c c' c'' : Cursor} {ts us : List Lexeme} {n m : Nat} (h : Moved c ts n c')
    (h' : Moved c' us m c'') : Moved c (ts ++ us) (n + m) c'' where
  lexed := h.lexed.append (h.size ▸ h'.lexed)
  size := h'.size.trans h.size
  file := h'.file.trans h.file
  scope := h'.scope.trans h.scope
  nextId := by rw [h'.nextId, h.nextId, Nat.add_assoc]

lemma Moved.lt {c c' : Cursor} {ts : List Lexeme} {n : Nat} (h : Moved c ts n c')
    (hts : ts ≠ []) : c'.rest.length < c.rest.length := by
  have := h.lexed.length_le
  have := List.length_pos_iff.2 hts
  omega

lemma moved_of_leads {c : Cursor} {t : Lexeme} {rest : Bytes} (h : Leads c.size c.rest t rest) :
    Moved c [t] 0 (c.moveTo rest) := by
  refine ⟨.cons h (.nil (.none _)), ?_, rfl, rfl, rfl⟩
  have := h.length_lt
  simp only [Cursor.size, Cursor.moveTo]
  omega

lemma Moved.leads {c c' : Cursor} {t : Lexeme} {n : Nat} (h : Moved c [t] n c') :
    ∃ rest, Leads c.size c.rest t rest ∧ Trivia rest c'.rest := by
  cases h.lexed with
  | cons hl hs =>
    cases hs with
    | nil ht => exact ⟨_, hl, ht⟩

lemma Moved.rest {c c' : Cursor} {ts us : List Lexeme} {n : Nat} (h : Moved c ts n c')
    (h' : Lexed c.size c.rest (ts ++ us) []) : Lexed c'.size c'.rest us [] :=
  h.size ▸ h.lexed.rest h'

/-! ### Skipping, and going back -/

lemma Lacks.of_trivia {size : Nat} {s s' : Bytes} {P : Bytes → Prop} (h : Lacks size s' P)
    (ht : Trivia s s') : Lacks size s P :=
  fun t rest hl => h t rest (hl.after_trivia ht)

lemma Lacks.after_trivia {size : Nat} {s s' : Bytes} {P : Bytes → Prop} (h : Lacks size s P)
    (ht : Trivia s s') : Lacks size s' P :=
  fun t rest hl => h t rest (hl.of_trivia ht)

lemma lacks_nil (size : Nat) (P : Bytes → Prop) : Lacks size [] P := by
  intro t rest h
  exact absurd h.length_lt (Nat.not_lt_zero _)

lemma moved_skipTrivia (c : Cursor) : Moved c [] 0 c.skipTrivia :=
  ⟨.nil (trivia_dropTrivia c.rest).1, skipTrivia_size c, rfl, rfl, rfl⟩

lemma Moved.of_skip {c c' : Cursor} {ts : List Lexeme} {n : Nat}
    (h : Moved c.skipTrivia ts n c') : Moved c ts n c' := by
  simpa using (moved_skipTrivia c).trans h

lemma Lexed.skipTrivia {c : Cursor} {ts : List Lexeme} (h : Lexed c.size c.rest ts []) :
    Lexed c.skipTrivia.size c.skipTrivia.rest ts [] :=
  (moved_skipTrivia c).rest h

lemma not_atEnd {c : Cursor} {t : Lexeme} {ts : List Lexeme}
    (h : Lexed c.size c.rest (t :: ts) []) (b : Bool) : ¬ (c.skipTrivia.atEnd && b) = true := by
  cases h with
  | cons hl _ =>
    obtain ⟨b', r, hb, -⟩ := hl.isToken.head
    simp [Cursor.atEnd, hl.dropTrivia_eq, hb]

/-- Where a cursor was put back, the same is read as from the earlier one. -/
lemma Moved.of_rewind {c d c' : Cursor} {ts : List Lexeme} {n : Nat}
    (h : Moved (d.rewind c) ts n c') : Moved c ts n c' :=
  ⟨h.lexed, h.size, h.file, h.scope, h.nextId⟩

lemma Moved.rewind {c c' d : Cursor} {ts : List Lexeme} {n : Nat} (h : Moved c ts n c') :
    Moved c ts n (d.rewind c') :=
  ⟨h.lexed, h.size, h.file, h.scope, h.nextId⟩

/-! ### Symbols and patterns -/

/-- The texts that symbols are: a mark, or a word that says so of itself. -/
def Terminal (text : Bytes) : Prop :=
  (text ∈ marks ∧ isWord text = false) ∨ (IsWord text ∧ isWord text = true)

lemma terminal_mark {text : Bytes} (h : text ∈ marks) : Terminal text := by
  refine .inl ⟨h, ?_⟩
  simp only [marks, List.mem_cons, List.not_mem_nil, or_false] at h
  rcases h with rfl | rfl | rfl | rfl <;> cbv

lemma terminal_keyword {text : Bytes} (h : text ∈ ("pub" : Bytes) :: Grammar.keywords) :
    Terminal text := by
  simp only [Grammar.keywords, List.mem_cons, List.not_mem_nil, or_false] at h
  rcases h with rfl | rfl | rfl | rfl <;>
    exact .inr ⟨isWord_of_check (by decide +kernel), by cbv⟩

lemma moveTo_skipTrivia {c : Cursor} {t : Lexeme} {rest : Bytes}
    (h : Leads c.size c.rest t rest) : c.skipTrivia.moveTo rest = c.moveTo rest := by
  have h1 := dropTrivia_length c.rest
  have h2 : rest.length ≤ (dropTrivia c.rest).length := by rw [h.dropTrivia_eq]; simp
  simp only [Cursor.skipTrivia, Cursor.moveTo, Cursor.mk.injEq, true_and, and_true]
  omega

lemma start_skipTrivia {c : Cursor} {t : Lexeme} {rest : Bytes}
    (h : Leads c.size c.rest t rest) : c.skipTrivia.offset = t.start := by
  have h1 := dropTrivia_length c.rest
  have h2 := h.dropTrivia_eq
  obtain ⟨-, -, hs⟩ := h
  rw [hs, ← h2]
  simp only [Cursor.skipTrivia, Cursor.moveTo, Cursor.size]
  omega

lemma leads_of_text {c : Cursor} {text rest : Bytes} (he : dropTrivia c.rest = text ++ rest)
    (hs : text ∈ marks ∨ (IsWord text ∨ IsLiteral text) ∧ ¬ Glued rest) :
    Leads c.size c.rest ⟨c.size - (text ++ rest).length, text⟩ rest :=
  ⟨he ▸ (trivia_dropTrivia c.rest).1, hs, rfl⟩

/-- **Symbols**: a symbol is read exactly when it is the next token. -/
theorem symbol_ok_iff {text : Bytes} (ht : Terminal text) {c c' : Cursor} {span : Span} :
    symbol text c = (.ok span, c') ↔ ∃ t rest, Leads c.size c.rest t rest ∧ t.text = text ∧
      span = t.span c.file ∧ c' = c.moveTo rest := by
  simp only [symbol, skipTrivia_rest]
  constructor
  · intro h
    cases hd : Bytes.dropStart? (dropTrivia c.rest) text with
    | none => simp [hd] at h
    | some rest =>
      simp only [hd] at h
      split_ifs at h with hw
      · simp at h
      simp only [Prod.mk.injEq, Except.ok.injEq] at h
      have he := (dropStart?_eq_some _ _ _).1 hd
      have hl := leads_of_text he (by
        rcases ht with ⟨hm, -⟩ | ⟨hi, hk⟩
        · exact .inl hm
        · exact .inr ⟨.inl hi, fun hg => hw (by rw [hk, (runsOn_iff rest).2 hg]; rfl)⟩)
      refine ⟨_, rest, hl, rfl, ?_, ?_⟩
      · rw [← h.1, start_skipTrivia hl]; rfl
      · rw [← h.2, moveTo_skipTrivia hl]
  · rintro ⟨t, rest, hl, rfl, rfl, rfl⟩
    have hd := (dropStart?_eq_some _ _ _).2 hl.dropTrivia_eq
    have hw : ¬ (isWord t.text && runsOn rest) = true := by
      rw [Bool.and_eq_true, runsOn_iff]
      rintro ⟨hw, hg⟩
      obtain ⟨-, hm | ⟨-, hn⟩, -⟩ := hl
      · rcases ht with ⟨-, hk⟩ | ⟨hi, -⟩
        · rw [hk] at hw; simp at hw
        · exact not_mark_of_word hi hm
      · exact hn hg
    simp only [hd, if_neg hw, moveTo_skipTrivia hl, start_skipTrivia hl]
    rfl

/-- **Patterns**: a token of a shape is read exactly when it is the next token. -/
theorem token_ok_iff {p : Pattern} {Shape : Bytes → Prop}
    (hp : ∀ s rest, p.rest? s = some rest ↔ ∃ text, s = text ++ rest ∧ Shape text ∧ ¬ Glued rest)
    (hshape : ∀ text, Shape text → IsWord text ∨ IsLiteral text)
    (hmark : ∀ text, Shape text → text ∉ marks) {c c' : Cursor} {found : Token} :
    token p c = (.ok found, c') ↔ ∃ t rest, Leads c.size c.rest t rest ∧ Shape t.text ∧
      found = ⟨t.span c.file, t.text⟩ ∧ c' = c.moveTo rest := by
  simp only [token, skipTrivia_rest]
  constructor
  · intro h
    cases hd : p.rest? (dropTrivia c.rest) with
    | none => simp [hd] at h
    | some rest =>
      obtain ⟨text, he, hs, hg⟩ := (hp _ _).1 hd
      have hl := leads_of_text he (.inr ⟨hshape text hs, hg⟩)
      simp only [hd, Prod.mk.injEq, Except.ok.injEq] at h
      rw [he, take_token, start_skipTrivia hl, length_token, moveTo_skipTrivia hl] at h
      exact ⟨_, rest, hl, hs, h.1.symm, h.2.symm⟩
  · rintro ⟨t, rest, hl, hs, rfl, rfl⟩
    have he := hl.dropTrivia_eq
    have hg : ¬ Glued rest := by
      obtain ⟨-, hm | ⟨-, hg⟩, -⟩ := hl
      · exact absurd hm (hmark _ hs)
      · exact hg
    have hd := (hp _ rest).2 ⟨t.text, he, hs, hg⟩
    simp only [hd]
    rw [he, take_token, start_skipTrivia hl, length_token, moveTo_skipTrivia hl]
    rfl

/-! ### Reading along a list of tokens -/

/-- The reader `p` takes one token, which must have the shape `P`, and makes of it what `f` says,
taking `n` node numbers. Where no such token comes next it fails there. -/
structure TokenReader {α : Type} (p : Parser α) (P : Bytes → Prop) (f : Cursor → Lexeme → α)
    (n : Nat) : Prop where
  moved : ∀ {c c' : Cursor} {a : α}, p c = (.ok a, c') →
    ∃ t, P t.text ∧ a = f c t ∧ Moved c [t] n c'
  next : ∀ {c : Cursor} {t : Lexeme} {ts : List Lexeme}, Lexed c.size c.rest (t :: ts) [] →
    P t.text → ∃ c', p c = (.ok (f c t), c') ∧ Moved c [t] n c'
  refused : ∀ {c c' : Cursor} {e : SyntaxError}, p c = (.error e, c') →
    e.offset = ahead c.size c.rest ∧ Lacks c.size c.rest P

lemma TokenReader.fails {α : Type} {p : Parser α} {P : Bytes → Prop} {f : Cursor → Lexeme → α}
    {n : Nat} (hp : TokenReader p P f n) {c : Cursor} {t : Lexeme} {ts : List Lexeme}
    (h : Lexed c.size c.rest (t :: ts) []) (hn : ¬ P t.text) : ∃ e c', p c = (.error e, c') := by
  refine fails_of_not_ok fun a c' ha => ?_
  obtain ⟨t', ht', -, hm⟩ := hp.moved ha
  cases h with
  | cons hl _ =>
    cases hm.lexed with
    | cons hl' _ => exact hn ((hl.unique hl').1 ▸ ht')

lemma TokenReader.of_iff {α : Type} {p : Parser α} {P : Bytes → Prop} {f : Cursor → Lexeme → α}
    (hp : ∀ {c c' a}, p c = (.ok a, c') ↔ ∃ t rest, Leads c.size c.rest t rest ∧ P t.text ∧
      a = f c t ∧ c' = c.moveTo rest)
    (he : ∀ {c c' e}, p c = (.error e, c') → e.offset = c.skipTrivia.offset) :
    TokenReader p P f 0 where
  moved h := by
    obtain ⟨t, rest, hl, h1, h2, rfl⟩ := hp.1 h
    exact ⟨t, h1, h2, moved_of_leads hl⟩
  next h ht := by
    cases h with
    | cons hl _ => exact ⟨_, hp.2 ⟨_, _, hl, ht, rfl, rfl⟩, moved_of_leads hl⟩
  refused {c c' e} h := by
    refine ⟨(he h).trans (offset_skipTrivia c), fun t rest hl ht => ?_⟩
    rw [hp.2 ⟨t, rest, hl, ht, rfl, rfl⟩] at h
    simp at h

lemma symbol_error {text : Bytes} {c c' : Cursor} {e : SyntaxError}
    (h : symbol text c = (.error e, c')) : e.offset = c.skipTrivia.offset := by
  simp only [symbol] at h
  split at h
  · cases h
    rfl
  · split_ifs at h
    · cases h
      rfl
    · simp at h

lemma token_error {p : Pattern} {c c' : Cursor} {e : SyntaxError}
    (h : token p c = (.error e, c')) : e.offset = c.skipTrivia.offset := by
  simp only [token] at h
  split at h
  · cases h
    rfl
  · simp at h

lemma reads_symbol {text : Bytes} (ht : Terminal text) :
    TokenReader (symbol text) (· = text) (fun c t => t.span c.file) 0 :=
  .of_iff (symbol_ok_iff ht) symbol_error

lemma reads_name : TokenReader (token Grammar.namePattern) IsName
    (fun c t => ⟨t.span c.file, t.text⟩) 0 :=
  .of_iff (token_ok_iff name_rest? (fun _ h => .inl h.1) fun _ h => not_mark_of_word h.1)
    token_error

lemma reads_literal : TokenReader (token Grammar.literalPattern) IsLiteral
    (fun c t => ⟨t.span c.file, t.text⟩) 0 :=
  .of_iff (token_ok_iff literal_rest? (fun _ h => .inr h) fun _ h => not_mark_of_literal h)
    token_error

lemma TokenReader.then {α β : Type} {p : Parser α} {P : Bytes → Prop} {f : Cursor → Lexeme → α}
    {g : α → Parser β} {f' : Cursor → Lexeme → β} {n : Nat} (hp : TokenReader p P f 0)
    (hg : ∀ c t c', Moved c [t] 0 c' → ∃ c'', g (f c t) c' = (.ok (f' c t), c'') ∧
      Moved c' [] n c'') : TokenReader (p >>= g) P f' n where
  moved h := by
    obtain ⟨a, c1, h1, h2⟩ := bind_ok h
    obtain ⟨t, ht, rfl, hm⟩ := hp.moved h1
    obtain ⟨c'', hg1, hg2⟩ := hg _ t _ hm
    rw [hg1] at h2
    simp only [Prod.mk.injEq, Except.ok.injEq] at h2
    obtain ⟨rfl, rfl⟩ := h2
    exact ⟨t, ht, rfl, by simpa using hm.trans hg2⟩
  next h ht := by
    obtain ⟨c1, h1, hm⟩ := hp.next h ht
    obtain ⟨c'', hg1, hg2⟩ := hg _ _ _ hm
    exact ⟨c'', by rw [bind_of_ok h1, hg1], by simpa using hm.trans hg2⟩
  refused h := by
    rcases bind_error h with h1 | ⟨a, c1, h1, h2⟩
    · exact hp.refused h1
    · obtain ⟨t, -, rfl, hm⟩ := hp.moved h1
      obtain ⟨c'', hg1, -⟩ := hg _ t _ hm
      rw [hg1] at h2
      simp at h2

end StateBuffer
