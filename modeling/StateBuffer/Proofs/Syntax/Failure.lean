import StateBuffer.Proofs.Syntax.Places

/-!
Where the readers fail. A text leads on from a place as long as its next token fits; where none
fits it is blocked, and it is blocked at one offset only. A reader of items fails where the text is
blocked, or at its keyword, where another kind of item may lead on. So the error that got furthest,
which is the one that a choice reports, stands where the text is blocked, and the errors that are
dropped on the way, those of a missing `pub` and of the parents of a path, stand before it.
-/

namespace StateBuffer

lemma ahead_dropTrivia (size : Nat) (s : Bytes) : ahead size (dropTrivia s) = ahead size s :=
  (ahead_of_trivia (trivia_dropTrivia s).1).symm

namespace Grammar

open StateBuffer.Parser

/-! ### Errors of alternatives -/

/-- From this place a reader fails with an error, whatever was noted before. -/
def FailsWith {α : Type} (p : Parser α) (c : Cursor) (e : SyntaxError) : Prop :=
  ∃ d c1 : Cursor, p (d.rewind c) = (.error e, c1)

lemma choiceFrom_error {α : Type} {fallback : α} {error : Option SyntaxError}
    {ps : List (Parser α)} {c c' : Cursor} {e : SyntaxError}
    (h : choiceFrom fallback error ps c = (.error e, c')) :
    (∀ e' ∈ error, e'.offset ≤ e.offset) ∧
      (∀ p ∈ ps, ∃ e', FailsWith p c e' ∧ e'.offset ≤ e.offset) ∧
      ((∃ e' ∈ error, e.offset = e'.offset) ∨
        ∃ p ∈ ps, ∃ e', FailsWith p c e' ∧ e.offset = e'.offset) := by
  induction ps generalizing error c with
  | nil =>
    cases error with
    | none => simp [choiceFrom] at h
    | some e1 =>
      obtain rfl : e1 = e := by simpa [choiceFrom] using congrArg Prod.fst h
      exact ⟨by simp, by simp, .inl ⟨e1, rfl, rfl⟩⟩
  | cons p ps ih =>
    rcases hp : p c with ⟨e1 | a, c1⟩
    · simp only [choiceFrom, hp] at h
      obtain ⟨m, hm, hbefore, hnow, hmax⟩ := merge_offset error e1
      rw [hm] at h
      obtain ⟨hme, hall, hsome⟩ := ih h
      have hme : m.offset ≤ e.offset := hme m rfl
      have hfails : FailsWith p c e1 := ⟨c, c1, hp⟩
      refine ⟨fun e' he' => Int.le_trans (hbefore e' he') hme, ?_, ?_⟩
      · exact List.forall_mem_cons.2 ⟨⟨e1, hfails, Int.le_trans hnow hme⟩, hall⟩
      · rcases hsome with ⟨_, ⟨⟩, ho⟩ | ⟨p', hp', e', hf, ho⟩
        · rcases hmax with ⟨e', he', ho'⟩ | ho'
          · exact .inl ⟨e', he', ho.trans ho'⟩
          · exact .inr ⟨p, List.mem_cons_self, e1, hfails, ho.trans ho'⟩
        · exact .inr ⟨p', List.mem_cons_of_mem _ hp', e', hf, ho⟩
    · simp [choiceFrom, hp] at h

lemma attempt_ne_error {α : Type} (p : Parser α) (c : Cursor) (e : SyntaxError) (c' : Cursor) :
    attempt p c ≠ (.error e, c') := by
  rcases hp : p c with ⟨e' | a, c1⟩ <;> simp [attempt, hp]

end Grammar

variable [CodePoint.Edition]

/-! ### Two readings of one text -/

section Compare

variable {size : Nat} {s s1 s2 : Bytes} {ts us : List Lexeme}

lemma Lexed.after_trivia (h : Lexed size s ts s2) (ht : Trivia s s1) :
    Lexed size s1 ts (dropTrivia s2) := by
  have hskip : Lexed size s2 [] (dropTrivia s2) := .nil (trivia_dropTrivia s2).1
  cases h with
  | nil h =>
    have he : dropTrivia s1 = dropTrivia s2 :=
      (dropTrivia_of_trivia ht).symm.trans (dropTrivia_of_trivia h)
    exact .nil (he ▸ (trivia_dropTrivia s1).1)
  | cons hl hs => simpa using (Lexed.cons (hl.after_trivia ht) hs).append hskip

lemma Lexed.compare (h : Lexed size s ts s1) (h' : Lexed size s us s2) :
    (∃ vs, us = ts ++ vs ∧ Lexed size s1 vs (dropTrivia s2)) ∨
      ∃ v vs rest, ts = us ++ v :: vs ∧ Leads size s2 v rest := by
  induction h generalizing us with
  | nil ht => exact .inl ⟨us, rfl, h'.after_trivia ht⟩
  | @cons _ rest s1 t ts hl _ ih =>
    cases h' with
    | nil ht => exact .inr ⟨t, ts, rest, rfl, hl.after_trivia ht⟩
    | cons hl' hs' =>
      obtain ⟨rfl, rfl⟩ := hl.unique hl'
      rcases ih hs' with ⟨vs, rfl, hv⟩ | ⟨v, vs, rest', rfl, hv⟩
      · exact .inl ⟨vs, rfl, hv⟩
      · exact .inr ⟨v, vs, rest', rfl, hv⟩

lemma Lexed.ahead_le (h : Lexed size s ts s1) : ahead size s ≤ ahead size s1 := by
  cases h with
  | nil ht => exact Int.le_of_eq (ahead_of_trivia ht)
  | @cons _ rest _ t _ hl hs =>
    have hlen := hs.length_le
    have hskip := dropTrivia_length s1
    rw [ahead, ahead, hl.dropTrivia_eq, List.length_append]
    omega

end Compare

namespace Grammar

open StateBuffer.Parser

/-! ### How far a text leads -/

section Blocked

variable {size : Nat} {q q' : Place} {s s' : Bytes} {ts : List Lexeme} {offset : Int}

/-- The text `s` leads from the place `q` to `q'`, and `s'` is left. -/
def Reached (size : Nat) (q : Place) (s : Bytes) (q' : Place) (s' : Bytes) : Prop :=
  ∃ ts, Lexed size s ts s' ∧ Trail q (ts.map Lexeme.text) q'

/-- The text leads from a place up to an offset, and perhaps on from there. -/
def LeadsTo (size : Nat) (q : Place) (s : Bytes) (offset : Int) : Prop :=
  ∃ q' s', Reached size q s q' s' ∧ offset = ahead size s'

/-- The text leads from a place up to an offset, and no token leads on from there. -/
def Blocked (size : Nat) (q : Place) (s : Bytes) (offset : Int) : Prop :=
  ∃ q' s', Reached size q s q' s' ∧ offset = ahead size s' ∧
    Lacks size s' fun x => ∃ q'', Step q' x q''

lemma Blocked.leadsTo (h : Blocked size q s offset) : LeadsTo size q s offset := by
  obtain ⟨q', s', hr, ho, -⟩ := h
  exact ⟨q', s', hr, ho⟩

lemma blocked_here (h : Lacks size s fun x => ∃ q', Step q x q') :
    Blocked size q s (ahead size s) :=
  ⟨q, s, ⟨[], .nil (.none s), rfl⟩, rfl, h⟩

lemma Blocked.before (h : Blocked size q' s' offset) (hl : Lexed size s ts s')
    (ht : Trail q (ts.map Lexeme.text) q') : Blocked size q s offset := by
  obtain ⟨q2, s2, ⟨us, hus, htrail⟩, ho, hlacks⟩ := h
  refine ⟨q2, s2, ⟨ts ++ us, hl.append hus, ?_⟩, ho, hlacks⟩
  rw [List.map_append]
  exact ht.append htrail

/-- **Nothing leads further** than to where the text is blocked. -/
lemma LeadsTo.le {offset' : Int} (h : LeadsTo size q s offset) (h' : Blocked size q s offset') :
    offset ≤ offset' := by
  obtain ⟨q1, s1, ⟨ts, hts, ht⟩, rfl⟩ := h
  obtain ⟨q2, s2, ⟨us, hus, hu⟩, rfl, hlacks⟩ := h'
  rcases hts.compare hus with ⟨vs, -, hvs⟩ | ⟨v, vs, rest, rfl, hv⟩
  · rw [← ahead_dropTrivia size s2]
    exact hvs.ahead_le
  · -- a token more would lead on from where the text is blocked
    rw [List.map_append] at ht
    exact absurd (ht.next hu) (hlacks v rest hv)

lemma Blocked.moved {c c' : Cursor} {n : Nat} (h : Blocked c'.size q' c'.rest offset)
    (hm : Moved c ts n c') (ht : Trail q (ts.map Lexeme.text) q') :
    Blocked c.size q c.rest offset :=
  (hm.size ▸ h).before hm.lexed ht

lemma blocked_of_refused {α : Type} {p : Parser α} {P : Bytes → Prop} {f : Cursor → Lexeme → α}
    {n : Nat} {c c' : Cursor} {e : SyntaxError} (hp : TokenReader p P f n)
    (h : p c = (.error e, c')) (hq : ∀ x q', Step q x q' → P x) :
    Blocked c.size q c.rest e.offset := by
  obtain ⟨he, hlacks⟩ := hp.refused h
  rw [he]
  exact blocked_here fun t rest hl ⟨q', hs⟩ => hlacks t rest hl (hq _ _ hs)

end Blocked

/-! ### Definitions -/

section Readers

variable {c c' : Cursor} {e : SyntaxError}

lemma expr_blocked (h : expr c = (.error e, c')) : Blocked c.size .value c.rest e.offset := by
  obtain ⟨-, hall, hsome⟩ := choiceFrom_error h
  obtain ⟨_, ⟨d1, c1, h1⟩, -⟩ := hall literal (by simp)
  obtain ⟨_, ⟨d2, c2, h2⟩, -⟩ := hall reference (by simp)
  have hliteral := reads_expr_literal.refused h1
  have hname := reads_reference.refused h2
  have ho : e.offset = ahead c.size c.rest := by
    rcases hsome with ⟨e', he', -⟩ | ⟨p, hp, e', ⟨d, c3, h3⟩, ho⟩
    · simp at he'
    rw [ho]
    rcases List.mem_cons.1 hp with rfl | hp
    · exact (reads_expr_literal.refused h3).1
    · obtain rfl := List.mem_singleton.1 hp
      exact (reads_reference.refused h3).1
  rw [ho]
  refine blocked_here ?_
  rintro t rest hl ⟨q, hv | hv, -⟩
  · exact hliteral.2 t rest hl hv
  · exact hname.2 t rest hl hv

lemma binding_blocked (h : binding c = (.error e, c')) :
    Blocked c.size .name c.rest e.offset := by
  rcases bind_error h with h1 | ⟨_, c1, h1, h⟩
  · exact blocked_of_refused reads_name h1 fun _ _ hs => hs.1
  obtain ⟨n, hn, -, m1⟩ := reads_name.moved h1
  refine .moved ?_ m1 ⟨.equals, ⟨hn, rfl⟩, rfl⟩
  rcases bind_error h with h2 | ⟨_, c2, h2, h⟩
  · exact blocked_of_refused (reads_symbol (terminal_mark (by decide))) h2 fun _ _ hs => hs.1
  obtain ⟨q, hq, -, m2⟩ := (reads_symbol (terminal_mark (by decide))).moved h2
  refine .moved ?_ m2 ⟨.value, ⟨hq, rfl⟩, rfl⟩
  rcases bind_error h with h3 | ⟨_, c3, h3, h⟩
  · exact expr_blocked h3
  obtain ⟨t, ht, m3⟩ := expr_sound h3
  have hstep : Step .value t.text .semicolon := by
    cases ht with
    | literal ht => exact ⟨.inl ht, rfl⟩
    | name ht => exact ⟨.inr ht, rfl⟩
  refine .moved ?_ m3 ⟨.semicolon, hstep, rfl⟩
  rcases bind_error h with h4 | ⟨_, c4, h4, h⟩
  · exact blocked_of_refused (reads_symbol (terminal_mark (by decide))) h4 fun _ _ hs => hs.1
  · cases h

lemma definitionBody_blocked {kind : DefinitionKind} {word : Bytes} (hw : Terminal word)
    {pub : Option Span} {node : NodeId} (h : definitionBody kind word pub node c = (.error e, c')) :
    (Lacks c.size c.rest (· = word) ∧ e.offset = ahead c.size c.rest) ∨
      ∃ (k : Lexeme) (s' : Bytes), k.text = word ∧ Lexed c.size c.rest [k] s' ∧
        Blocked c.size .name s' e.offset := by
  rcases bind_error h with h1 | ⟨_, c1, h1, h⟩
  · exact .inl ((reads_symbol hw).refused h1).symm
  obtain ⟨k, hk, -, m1⟩ := (reads_symbol hw).moved h1
  refine .inr ⟨k, c1.rest, hk, m1.lexed, ?_⟩
  rw [← m1.size]
  rcases bind_error h with h2 | ⟨⟨_, _, _⟩, c2, h2, h⟩
  · exact binding_blocked h2
  · cases h

/-! ### Imports -/

lemma importEnd_blocked {deferred : Option SyntaxError}
    (hhalt : Halts IsName c.size c.rest deferred) (h : importEnd deferred c = (.error e, c')) :
    Blocked c.size .component c.rest e.offset := by
  have hsemicolon := reads_symbol (terminal_mark (show (";" : Bytes) ∈ marks by decide))
  rcases hs : symbol ";" c with ⟨e1 | span, c1⟩
  · obtain ⟨ho1, hlacks⟩ := hsemicolon.refused hs
    obtain ⟨m, hm, hbefore, hnow, hmax⟩ := merge_offset deferred e1
    obtain rfl : m = e := by simpa [importEnd, hs, hm] using congrArg Prod.fst h
    rcases hhalt with ⟨hdot, hd⟩ | ⟨d, rest, e2, hl, hd, hname, rfl, ho2⟩
    · have ho : m.offset = ahead c.size c.rest := by
        rcases hmax with ⟨e', he', ho⟩ | ho
        · rw [ho, hd e' he']
        · rw [ho, ho1]
      rw [ho]
      refine blocked_here ?_
      rintro t rest hl ⟨q, ⟨ht, -⟩ | ⟨ht, -⟩⟩
      · exact hdot t rest hl ht
      · exact hlacks t rest hl ht
    · -- the dot was given back, so the error that was put off is further
      have hlex : Lexed c.size c.rest [d] rest := .cons hl (.nil (.none rest))
      have ho : m.offset = ahead c.size rest := by
        have hle := hlex.ahead_le
        have h2 := hbefore e2 rfl
        rcases hmax with ⟨_, ⟨⟩, ho⟩ | ho <;> omega
      rw [ho]
      refine (blocked_here ?_).before hlex ⟨.segment, .inl ⟨hd, rfl⟩, rfl⟩
      rintro t rest' hl' ⟨q, ht, -⟩
      exact hname t rest' hl' ht
  · simp [importEnd, hs] at h

lemma importTail_blocked {pub : Option Span} {keyword : Span} {parents : List Segment} {q : Place}
    (hq : q = .path ∨ q = .level) (htilde : Lacks c.size c.rest (· = "~"))
    (h : importTail pub keyword parents c = (.error e, c')) :
    Blocked c.size q c.rest e.offset := by
  have hname : ∀ x, IsName x → Step q x .component := by
    rcases hq with rfl | rfl <;> exact fun x hx => .inr ⟨hx, rfl⟩
  have hstep : ∀ x q', Step q x q' → x = "~" ∨ IsName x := by
    rcases hq with rfl | rfl <;> exact fun x q' hs => hs.imp And.left And.left
  rcases bind_error h with h1 | ⟨found, c1, h1, h⟩
  · simp [many] at h1
  rw [many_ok] at h1
  rcases dotted_cases reads_nameSegment (Nat.le_refl 1) h1 with
    ⟨-, hlacks, -, ⟨hzero, -⟩ | ⟨-, e1, hfatal, ho⟩⟩ | ⟨ts, hts, m1, hf, hhalt⟩
  · simp at hzero
  · -- no name comes next
    have he : complete found c1 = (.error e1, c1) := by simp [complete, hfatal, fail]
    rw [bind_of_error he] at h
    cases h
    rw [ho]
    refine blocked_here ?_
    rintro t rest hl ⟨q', hs⟩
    rcases hstep _ _ hs with ht | ht
    · exact htilde t rest hl ht
    · exact hlacks t rest hl ht
  · rw [bind_of_ok (complete_of_none hf c1)] at h
    refine .moved ?_ m1 (names_trail hts hname)
    rcases bind_error h with h2 | ⟨_, c2, h2, h⟩
    · exact importEnd_blocked hhalt h2
    · cases h

lemma importPath_blocked {pub : Option Span} {keyword : Span}
    (h : importPath pub keyword c = (.error e, c')) : Blocked c.size .path c.rest e.offset := by
  rcases bind_error h with h1 | ⟨found, c1, h1, h⟩
  · simp [many] at h1
  rw [many_ok] at h1
  rcases dotted_cases reads_parent (Nat.zero_le 1) h1 with
    ⟨hnil, hlacks, m1, ⟨-, hf⟩ | ⟨hone, -⟩⟩ | ⟨us, hus, m1, hf, hhalt⟩
  · rw [bind_of_ok (complete_of_none hf c1), hnil] at h
    refine .moved (importTail_blocked (.inl rfl) ?_ h) m1 rfl
    rw [m1.size]
    cases m1.lexed with
    | nil ht => exact hlacks.after_trivia ht
  · simp at hone
  · rw [bind_of_ok (complete_of_none hf c1), if_pos (nonempty_dotted hus)] at h
    refine .moved ?_ m1 (parents_trail hus)
    rcases bind_error h with h2 | ⟨_, c2, h2, h⟩
    · exact blocked_of_refused reads_dot h2 fun _ _ hs => hs.1
    obtain ⟨d, hd, -, m2⟩ := reads_dot.moved h2
    obtain ⟨rest, hl, htrivia⟩ := m2.leads
    refine .moved (importTail_blocked (.inr rfl) ?_ h) m2 ⟨.level, ⟨hd, rfl⟩, rfl⟩
    -- the parents stopped at this dot, so no tilde follows it
    rcases hhalt with ⟨hdot, -⟩ | ⟨d', rest', _, hl', -, htilde, -⟩
    · exact absurd hd (hdot d rest hl)
    · obtain ⟨rfl, rfl⟩ := hl.unique hl'
      rw [m2.size]
      exact htilde.after_trivia htrivia

/-! ### Items -/

/-- The keyword `word` is missing at an offset, in front of which stands `pub` or nothing. -/
def Unkeyed (word : Bytes) (size : Nat) (s : Bytes) (offset : Int) : Prop :=
  (Lacks size s (· = "pub") ∧ Lacks size s (· = word) ∧ offset = ahead size s) ∨
    ∃ p rest, Leads size s p rest ∧ p.text = "pub" ∧ Lacks size rest (· = word) ∧
      offset = ahead size rest

lemma Unkeyed.leadsTo {word : Bytes} {size : Nat} {s : Bytes} {offset : Int}
    (h : Unkeyed word size s offset) : LeadsTo size .item s offset := by
  rcases h with ⟨-, -, ho⟩ | ⟨p, rest, hl, hp, -, ho⟩
  · exact ⟨.item, s, ⟨[], .nil (.none s), rfl⟩, ho⟩
  · exact ⟨.marked, rest, ⟨[p], .cons hl (.nil (.none rest)), .marked, .inl ⟨hp, rfl⟩, rfl⟩, ho⟩

lemma Unkeyed.blocked {size : Nat} {s : Bytes} {offset offset' : Int}
    (h : Unkeyed "import" size s offset) (h' : Unkeyed "var" size s offset')
    (hconst : Lacks size s (· = "const")) : Blocked size .item s offset := by
  rcases h with ⟨hpub, himport, rfl⟩ | ⟨p, rest, hl, hp, himport, rfl⟩
  · rcases h' with ⟨-, hvar, -⟩ | ⟨p, rest, hl, hp, -⟩
    · refine blocked_here ?_
      rintro t rest hl ⟨q, ⟨ht, -⟩ | ⟨ht, -⟩ | ⟨ht, -⟩ | ⟨ht, -⟩⟩
      · exact hpub t rest hl ht
      · exact himport t rest hl ht
      · exact hvar t rest hl ht
      · exact hconst t rest hl ht
    · exact absurd hp (hpub p rest hl)
  · rcases h' with ⟨hpub, -⟩ | ⟨p', rest', hl', -, hvar, -⟩
    · exact absurd hp (hpub p rest hl)
    · obtain ⟨rfl, rfl⟩ := hl.unique hl'
      refine (blocked_here ?_).before (.cons hl (.nil (.none rest)))
        ⟨.marked, .inl ⟨hp, rfl⟩, rfl⟩
      rintro t rest' hl' ⟨q, ⟨ht, -⟩ | ⟨ht, -⟩⟩
      · exact himport t rest' hl' ht
      · exact hvar t rest' hl' ht

lemma unkeyed_of_pub {word : Bytes} {pub : Option Lexeme} {n : Nat} {offset : Int}
    (hp : ∀ t ∈ pub, t.text = "pub") (hm : Moved c pub.toList n c')
    (hno : pub = none → Lacks c.size c.rest (· = "pub")) (hw : Lacks c'.size c'.rest (· = word))
    (ho : offset = ahead c'.size c'.rest) : Unkeyed word c.size c.rest offset := by
  rw [hm.size] at hw ho
  cases pub with
  | none =>
    cases hm.lexed with
    | nil ht => exact .inl ⟨hno rfl, hw.of_trivia ht, ho.trans (ahead_of_trivia ht).symm⟩
  | some p =>
    obtain ⟨rest, hl, ht⟩ := hm.leads
    exact .inr ⟨p, rest, hl, hp p rfl, hw.of_trivia ht, ho.trans (ahead_of_trivia ht).symm⟩

lemma importItem_blocked (h : importItem c = (.error e, c')) :
    Unkeyed "import" c.size c.rest e.offset ∨ Blocked c.size .item c.rest e.offset := by
  have hkeyword := reads_symbol (terminal_keyword (show ("import" : Bytes) ∈ _ by decide))
  rw [importItem_eq] at h
  rcases bind_error h with h1 | ⟨found, c1, h1, h⟩
  · exact absurd h1 (attempt_ne_error _ _ _ _)
  obtain ⟨pub, hp, -, m1, hno⟩ := pub_sound h1
  rcases bind_error h with h2 | ⟨_, c2, h2, h⟩
  · obtain ⟨ho, hlacks⟩ := hkeyword.refused h2
    exact .inl (unkeyed_of_pub hp m1 hno hlacks ho)
  · obtain ⟨k, hk, -, m2⟩ := hkeyword.moved h2
    exact .inr ((importPath_blocked h).moved (m1.trans m2)
      (pub_trail hp (.inr (.inl ⟨hk, rfl⟩)) (.inl ⟨hk, rfl⟩) rfl))

lemma varItem_blocked (h : varItem c = (.error e, c')) :
    Unkeyed "var" c.size c.rest e.offset ∨ Blocked c.size .item c.rest e.offset := by
  rw [varItem_eq] at h
  rcases bind_error h with h1 | ⟨found, c1, h1, h⟩
  · exact absurd h1 (attempt_ne_error _ _ _ _)
  obtain ⟨pub, hp, -, m1, hno⟩ := pub_sound h1
  obtain ⟨d, h2, -⟩ := of_inScope h
  have hbody := definitionBody_blocked (terminal_keyword (by decide)) h2
  rcases hbody with ⟨hlacks, ho⟩ | ⟨k, s', hk, hl, hb⟩
  · exact .inl (unkeyed_of_pub hp m1 hno hlacks ho)
  · have hs : (inner c1).size = c.size := m1.size
    rw [hs] at hl hb
    exact .inr (hb.before (m1.lexed.append hl)
      (pub_trail hp (.inr (.inr (.inl ⟨hk, rfl⟩))) (.inr ⟨hk, rfl⟩) rfl))

lemma constItem_blocked (h : constItem c = (.error e, c')) :
    (Lacks c.size c.rest (· = "const") ∧ e.offset = ahead c.size c.rest) ∨
      Blocked c.size .item c.rest e.offset := by
  rw [constItem_eq] at h
  obtain ⟨d, h1, -⟩ := of_inScope h
  rcases definitionBody_blocked (terminal_keyword (by decide)) h1 with hk | ⟨k, s', hk, hl, hb⟩
  · exact .inl hk
  · exact .inr (hb.before hl ⟨.name, .inr (.inr (.inr ⟨hk, rfl⟩)), rfl⟩)

/-- **An item fails where the text is blocked**: of the errors of its three kinds the one that got
furthest is reported, and if none got past its keyword then no item begins here. -/
theorem item_blocked (h : item c = (.error e, c')) : Blocked c.size .item c.rest e.offset := by
  obtain ⟨-, hall, hsome⟩ := choiceFrom_error h
  obtain ⟨e1, ⟨d1, c1, h1⟩, hle1⟩ := hall importItem (by simp)
  obtain ⟨e2, ⟨d2, c2, h2⟩, hle2⟩ := hall varItem (by simp)
  obtain ⟨e3, ⟨d3, c3, h3⟩, hle3⟩ := hall constItem (by simp)
  have hlead : LeadsTo c.size .item c.rest e.offset := by
    rcases hsome with ⟨e', he', -⟩ | ⟨p, hp, e', ⟨d, c', hf⟩, ho⟩
    · simp at he'
    rw [ho]
    simp only [List.mem_cons, List.not_mem_nil, or_false] at hp
    rcases hp with rfl | rfl | rfl
    · exact (importItem_blocked hf).elim Unkeyed.leadsTo Blocked.leadsTo
    · exact (varItem_blocked hf).elim Unkeyed.leadsTo Blocked.leadsTo
    · rcases constItem_blocked hf with ⟨-, ho⟩ | hb
      · exact ⟨.item, _, ⟨[], .nil (.none _), rfl⟩, ho⟩
      · exact hb.leadsTo
  have hfurthest : ∀ offset, Blocked c.size .item c.rest offset → offset ≤ e.offset →
      Blocked c.size .item c.rest e.offset := by
    intro offset hb hle
    have ho : e.offset = offset := Int.le_antisymm (hlead.le hb) hle
    rwa [ho]
  rcases importItem_blocked h1 with hk1 | hb
  · rcases varItem_blocked h2 with hk2 | hb
    · rcases constItem_blocked h3 with ⟨hk3, -⟩ | hb
      · exact hfurthest _ (hk1.blocked hk2 hk3) hle1
      · exact hfurthest _ hb hle3
    · exact hfurthest _ hb hle2
  · exact hfurthest _ hb hle1

end Readers

end Grammar

end StateBuffer
