import StateBuffer.Proofs.Syntax.Derivation

/-!
Repetition with dots between. The reader of a repetition gives a dot back when no item follows it,
so after the last item the text goes on with whatever does not continue the list: another mark, or
a dot before something of another shape.
-/

namespace StateBuffer

namespace Grammar

open StateBuffer.Parser

/-! ### Repetition -/

section Repetition

variable {α : Type} {least index : Nat} {separator : Option (Parser Unit)} {item : Parser α}
  {c c' : Cursor} {a : α}

lemma manyFrom_end (h : (c.skipTrivia.atEnd && decide (least ≤ index)) = true) :
    manyFrom least separator item index c = (⟨[], none, none⟩, c.skipTrivia) := by
  rw [manyFrom.eq_def]
  simp only [h, if_true]

lemma manyFrom_step (hend : ¬ (c.skipTrivia.atEnd && decide (least ≤ index)) = true)
    (h : further (if index = 0 then none else separator) item c.skipTrivia = (.ok a, c'))
    (hlt : c'.rest.length < c.rest.length) :
    manyFrom least separator item index c =
      (⟨a :: (manyFrom least separator item (index + 1) c').1.items,
        (manyFrom least separator item (index + 1) c').1.deferred,
        (manyFrom least separator item (index + 1) c').1.fatal⟩,
        (manyFrom least separator item (index + 1) c').2) := by
  rw [manyFrom.eq_def]
  simp only [if_neg hend, h]
  rw [if_pos (by omega)]

/-- What was missing where a repetition found no further item. -/
def stopError : Stop → SyntaxError
  | .separator e => e
  | .item e => e

lemma manyFrom_halt (hend : ¬ (c.skipTrivia.atEnd && decide (least ≤ index)) = true) {stop : Stop}
    (h : further (if index = 0 then none else separator) item c.skipTrivia = (.error stop, c')) :
    ∃ deferred fatal, manyFrom least separator item index c =
      (⟨[], deferred, fatal⟩, c'.rewind c.skipTrivia) ∧
        (least ≤ index → fatal = none ∧ deferred = some (stopError stop)) ∧
        ∀ e, stop = .item e → index < least → fatal = some e := by
  rw [manyFrom.eq_def]
  simp only [if_neg hend, h]
  cases stop with
  | separator e => exact ⟨_, _, rfl, fun _ => ⟨rfl, rfl⟩, by simp⟩
  | item e =>
    simp only
    split_ifs with hi
    · exact ⟨_, _, rfl, fun _ => by omega, fun e' he _ => by rw [Stop.item.inj he]⟩
    · exact ⟨_, _, rfl, fun _ => ⟨rfl, rfl⟩, fun _ _ _ => by omega⟩

lemma further_none (c : Cursor) : further none item c = match item c with
    | (.error e, c) => (.error (.item e), c)
    | (.ok a, c) => (.ok a, c) := rfl

lemma further_some (sep : Parser Unit) (c : Cursor) : further (some sep) item c =
    match sep c with
    | (.error e, c) => (.error (.separator e), c)
    | (.ok _, c) => match item c with
      | (.error e, c) => (.error (.item e), c)
      | (.ok a, c) => (.ok a, c) := rfl

end Repetition

variable [CodePoint.Edition]

section Dots

variable {α : Type} {P : Bytes → Prop} {f : FileId → Lexeme → α} {item : Parser α} {least : Nat}

/-- Why a repetition with dots goes no further: no dot comes next, or a dot does and no item after
it. The error that it puts off is at that place. -/
def Halts (P : Bytes → Prop) (size : Nat) (s : Bytes) (deferred : Option SyntaxError) : Prop :=
  (Lacks size s (· = ".") ∧ ∀ e ∈ deferred, e.offset = ahead size s) ∨
    ∃ d rest e, Leads size s d rest ∧ d.text = "." ∧ Lacks size rest P ∧ deferred = some e ∧
      e.offset = ahead size rest

lemma further_dot_cases (hi : TokenReader item P (fun c t => f c.file t) 0) {c c' : Cursor}
    {r : Except Stop α} (h : further (some dot) item c = (r, c')) :
    (∃ stop, r = .error stop ∧ Halts P c.size c.rest (some (stopError stop))) ∨
      ∃ d t : Lexeme, d.text = "." ∧ P t.text ∧ r = .ok (f c.file t) ∧ Moved c [d, t] 0 c' := by
  rw [further_some] at h
  rcases hdot : dot c with ⟨e | u, c1⟩
  · simp only [hdot] at h
    cases h
    obtain ⟨he, hlacks⟩ := reads_dot.refused hdot
    exact .inl ⟨_, rfl, .inl ⟨hlacks, by simpa [stopError] using he⟩⟩
  obtain ⟨d, hd, -, m1⟩ := reads_dot.moved hdot
  simp only [hdot] at h
  rcases hitem : item c1 with ⟨e | a, c2⟩
  · simp only [hitem] at h
    cases h
    obtain ⟨he, hlacks⟩ := hi.refused hitem
    obtain ⟨rest, hl, htrivia⟩ := m1.leads
    rw [m1.size] at he hlacks
    exact .inl ⟨_, rfl, .inr ⟨d, rest, e, hl, hd, hlacks.of_trivia htrivia, rfl,
      he.trans (ahead_of_trivia htrivia).symm⟩⟩
  · simp only [hitem] at h
    cases h
    obtain ⟨t, ht, rfl, m2⟩ := hi.moved hitem
    exact .inr ⟨d, t, hd, ht, by rw [m1.file], m1.trans m2⟩

lemma further_dotted_sound (hi : TokenReader item P (fun c t => f c.file t) 0) {index : Nat}
    {c c' : Cursor} {found : Repetition α} (hl : least ≤ index + 1)
    (h : manyFrom least (some dot) item (index + 1) c = (found, c')) :
    found.fatal = none ∧ Halts P c'.size c'.rest found.deferred ∧
      (found.items = [] ∧ Moved c [] 0 c' ∨
        ∃ (d : Lexeme) (ts : List Lexeme), d.text = "." ∧ Dotted P (f c.file) ts found.items ∧
          Moved c (d :: ts) 0 c') := by
  induction hn : c.rest.length using Nat.strongRecOn generalizing c c' index found with
  | _ n ih =>
    by_cases hend : (c.skipTrivia.atEnd && decide (least ≤ index + 1)) = true
    · rw [manyFrom_end hend] at h
      cases h
      have hnil : c.skipTrivia.rest = [] := by
        simp only [Cursor.atEnd, Bool.and_eq_true, List.isEmpty_iff] at hend
        exact hend.1
      refine ⟨rfl, .inl ⟨?_, by simp⟩, .inl ⟨rfl, moved_skipTrivia c⟩⟩
      rw [hnil]
      exact lacks_nil _ _
    rcases hfur : further (if index + 1 = 0 then none else some dot) item c.skipTrivia
      with ⟨r, c1⟩
    have hdot : further (some dot) item c.skipTrivia = (r, c1) := by
      rwa [if_neg (by omega)] at hfur
    rcases further_dot_cases hi hdot with ⟨stop, rfl, hhalt⟩ | ⟨d, t, hd, ht, rfl, hm⟩
    · obtain ⟨deferred, fatal, he, hf, -⟩ := manyFrom_halt hend hfur
      obtain ⟨rfl, rfl⟩ := hf hl
      rw [he] at h
      cases h
      exact ⟨rfl, hhalt, .inl ⟨rfl, (moved_skipTrivia c).rewind⟩⟩
    · have hm := hm.of_skip
      have hlt := hm.lt (by simp)
      rw [manyFrom_step hend hfur hlt] at h
      cases h
      rcases hrec : manyFrom least (some dot) item (index + 1 + 1) c1 with ⟨more, c2⟩
      obtain ⟨hf, hhalt, hmore⟩ := ih c1.rest.length (hn ▸ hlt) (by omega) hrec rfl
      refine ⟨hf, hhalt, .inr ⟨d, ?_⟩⟩
      rcases hmore with ⟨hnil, hm'⟩ | ⟨d', ts, hd', hts, hm'⟩
      · refine ⟨[t], hd, ?_, by simpa using hm.trans hm'⟩
        simp only [hnil]
        exact .one ht
      · exact ⟨t :: d' :: ts, hd, .more ht hd' (hm.file ▸ hts), by simpa using hm.trans hm'⟩

/-- **Soundness of repetition**: what is read with dots between is dotted and followed by nothing
that goes on with it, or no item comes next, which is an error only if one was asked for. -/
lemma dotted_cases (hi : TokenReader item P (fun c t => f c.file t) 0) {c c' : Cursor}
    {found : Repetition α} (hl : least ≤ 1)
    (h : manyFrom least (some dot) item 0 c = (found, c')) :
    (found.items = [] ∧ Lacks c.size c.rest P ∧ Moved c [] 0 c' ∧
        (least = 0 ∧ found.fatal = none ∨
          least = 1 ∧ ∃ e, found.fatal = some e ∧ e.offset = ahead c.size c.rest)) ∨
      ∃ ts, Dotted P (f c.file) ts found.items ∧ Moved c ts 0 c' ∧ found.fatal = none ∧
        Halts P c'.size c'.rest found.deferred := by
  have htrivia := (trivia_dropTrivia c.rest).1
  by_cases hend : (c.skipTrivia.atEnd && decide (least ≤ 0)) = true
  · rw [manyFrom_end hend] at h
    cases h
    obtain ⟨hnil, hleast⟩ : dropTrivia c.rest = [] ∧ least = 0 := by
      simpa [Cursor.atEnd] using hend
    rw [hnil] at htrivia
    exact .inl ⟨rfl, (lacks_nil _ _).of_trivia htrivia, moved_skipTrivia c, .inl ⟨hleast, rfl⟩⟩
  have hfirst : further (if 0 = 0 then none else some dot) item c.skipTrivia =
      match item c.skipTrivia with
        | (.error e, c) => (.error (.item e), c)
        | (.ok a, c) => (.ok a, c) := by
    rw [if_pos rfl, further_none]
  rcases hitem : item c.skipTrivia with ⟨e | a, c1⟩
  · rw [hitem] at hfirst
    obtain ⟨he, hlacks⟩ := hi.refused hitem
    rw [skipTrivia_size] at he hlacks
    obtain ⟨deferred, fatal, hmany, hnone, hsome⟩ := manyFrom_halt hend hfirst
    rw [hmany] at h
    cases h
    refine .inl ⟨rfl, hlacks.of_trivia htrivia, (moved_skipTrivia c).rewind, ?_⟩
    rcases Nat.le_one_iff_eq_zero_or_eq_one.1 hl with rfl | rfl
    · exact .inl ⟨rfl, (hnone (Nat.le_refl 0)).1⟩
    · refine .inr ⟨rfl, e, hsome e rfl Nat.zero_lt_one, ?_⟩
      rw [he]
      exact (ahead_of_trivia htrivia).symm
  · obtain ⟨t, ht, rfl, hm⟩ := hi.moved hitem
    rw [hitem] at hfirst
    have hm := hm.of_skip
    rw [manyFrom_step hend hfirst (hm.lt (by simp))] at h
    cases h
    rcases hrec : manyFrom least (some dot) item (0 + 1) c1 with ⟨more, c2⟩
    obtain ⟨hf, hhalt, hmore⟩ := further_dotted_sound hi hl hrec
    refine .inr ?_
    rcases hmore with ⟨hnil, hm'⟩ | ⟨d, ts, hd, hts, hm'⟩
    · refine ⟨[t], ?_, by simpa using hm.trans hm', hf, hhalt⟩
      simp only [hnil]
      exact .one ht
    · exact ⟨t :: d :: ts, .more ht hd (hm.file ▸ hts), by simpa using hm.trans hm', hf, hhalt⟩

lemma further_dot_next (hi : TokenReader item P (fun c t => f c.file t) 0) {c : Cursor}
    {d t : Lexeme} {us : List Lexeme} (h : Lexed c.size c.rest (d :: t :: us) [])
    (hd : d.text = ".") (ht : P t.text) :
    ∃ c', further (some dot) item c.skipTrivia = (.ok (f c.file t), c') ∧ Moved c [d, t] 0 c' := by
  obtain ⟨c1, h1, hm1⟩ := reads_dot.next h.skipTrivia hd
  obtain ⟨c2, h2, hm2⟩ := hi.next (hm1.rest h.skipTrivia) ht
  refine ⟨c2, ?_, (hm1.trans hm2).of_skip⟩
  rw [further_some, h1]
  simp only [h2, hm1.file]
  rfl

lemma further_dot (index : Nat) {c c' : Cursor} {r : Except Stop α}
    (h : further (some dot) item c = (r, c')) :
    further (if index + 1 = 0 then none else some dot) item c = (r, c') := by
  rw [if_neg (by omega), h]

/-- The tokens `us` do not go on with a dot and a construct of shape `P`. -/
def Stops (P : Bytes → Prop) (us : List Lexeme) : Prop :=
  ∃ t us', us = t :: us' ∧ (t.text ≠ "." ∨ ∃ t' us'', us' = t' :: us'' ∧ ¬ P t'.text)

lemma further_stops (hi : TokenReader item P (fun c t => f c.file t) 0) {index : Nat} {c : Cursor}
    {us : List Lexeme} (h : Lexed c.size c.rest us []) (hs : Stops P us) (hl : least ≤ index + 1) :
    ∃ deferred c', manyFrom least (some dot) item (index + 1) c = (⟨[], deferred, none⟩, c') ∧
      Moved c [] 0 c' := by
  obtain ⟨t, us', rfl, hs⟩ := hs
  have hstop : ∃ stop c', further (some dot) item c.skipTrivia = (.error stop, c') := by
    rw [further_some]
    by_cases ht : t.text = "."
    · obtain ⟨t', us'', rfl, ht'⟩ := hs.resolve_left (not_not.2 ht)
      obtain ⟨c1, h1, hm⟩ := reads_dot.next h.skipTrivia ht
      obtain ⟨e, c2, h2⟩ := hi.fails (hm.rest h.skipTrivia) ht'
      exact ⟨.item e, c2, by rw [h1]; simp only [h2]⟩
    · obtain ⟨e, c1, h1⟩ := reads_dot.fails h.skipTrivia ht
      exact ⟨.separator e, c1, by rw [h1]⟩
  obtain ⟨stop, c', hfur⟩ := hstop
  obtain ⟨deferred, fatal, he, hfatal, -⟩ := manyFrom_halt
    (not_atEnd h (decide (least ≤ index + 1))) (further_dot index hfur)
  rw [(hfatal hl).1] at he
  exact ⟨deferred, _, he, (moved_skipTrivia c).rewind⟩

lemma further_dotted_complete (hi : TokenReader item P (fun c t => f c.file t) 0) {index : Nat}
    {c : Cursor} {d : Lexeme} {ts us : List Lexeme} {as : List α}
    (h : Lexed c.size c.rest (d :: (ts ++ us)) []) (hd : d.text = ".")
    (hts : Dotted P (f c.file) ts as) (hs : Stops P us) (hl : least ≤ index + 1) :
    ∃ deferred c', manyFrom least (some dot) item (index + 1) c = (⟨as, deferred, none⟩, c') ∧
      Moved c (d :: ts) 0 c' := by
  generalize hfile : f c.file = g at hts
  induction hts generalizing c d index with
  | @one t ht =>
    obtain ⟨c1, h1, hm1⟩ := further_dot_next hi h hd ht
    obtain ⟨deferred, c2, h2, hm2⟩ := further_stops hi (hm1.rest h) hs
      (show least ≤ index + 1 + 1 by omega)
    refine ⟨deferred, c2, ?_, by simpa using hm1.trans hm2⟩
    rw [manyFrom_step (not_atEnd h _) (further_dot index h1) (hm1.lt (by simp)), h2, ← hfile]
  | @more t d' ts as ht hd' _ ih =>
    obtain ⟨c1, h1, hm1⟩ := further_dot_next hi h hd ht
    obtain ⟨deferred, c2, h2, hm2⟩ := ih (hm1.rest h) hd'
      (show least ≤ index + 1 + 1 by omega) (by rw [hm1.file, hfile])
    refine ⟨deferred, c2, ?_, by simpa using hm1.trans hm2⟩
    rw [manyFrom_step (not_atEnd h _) (further_dot index h1) (hm1.lt (by simp)), h2, ← hfile]

/-- **Completeness of repetition**: dotted constructs are read up to where they stop. -/
lemma dotted_complete (hi : TokenReader item P (fun c t => f c.file t) 0) {c : Cursor}
    {ts us : List Lexeme} {as : List α} (h : Lexed c.size c.rest (ts ++ us) [])
    (hts : Dotted P (f c.file) ts as) (hs : Stops P us) (hl : least ≤ 1) :
    ∃ deferred c', manyFrom least (some dot) item 0 c = (⟨as, deferred, none⟩, c') ∧
      Moved c ts 0 c' := by
  have hstep : ∀ {t : Lexeme} {vs : List Lexeme}, Lexed c.size c.rest (t :: vs) [] → P t.text →
      ∃ c1, further (if 0 = 0 then none else some dot) item c.skipTrivia = (.ok (f c.file t), c1) ∧
        Moved c [t] 0 c1 := by
    intro t vs h ht
    obtain ⟨c1, h1, hm1⟩ := hi.next h.skipTrivia ht
    exact ⟨c1, by rw [if_pos rfl, further_none, h1]; rfl, hm1.of_skip⟩
  cases hts with
  | @one t ht =>
    obtain ⟨c1, h1, hm1⟩ := hstep h ht
    obtain ⟨deferred, c2, h2, hm2⟩ := further_stops hi (hm1.rest h) hs
      (show least ≤ 0 + 1 by omega)
    refine ⟨deferred, c2, ?_, by simpa using hm1.trans hm2⟩
    rw [manyFrom_step (not_atEnd h _) h1 (hm1.lt (by simp)), h2]
  | @more t d ts as ht hd hts =>
    obtain ⟨c1, h1, hm1⟩ := hstep h ht
    obtain ⟨deferred, c2, h2, hm2⟩ := further_dotted_complete hi (hm1.rest h) hd
      (hm1.file ▸ hts) hs (show least ≤ 0 + 1 by omega)
    refine ⟨deferred, c2, ?_, by simpa using hm1.trans hm2⟩
    rw [manyFrom_step (not_atEnd h _) h1 (hm1.lt (by simp)), h2]

lemma dotted_absent (hi : TokenReader item P (fun c t => f c.file t) 0) {c : Cursor}
    {t : Lexeme} {us : List Lexeme} (h : Lexed c.size c.rest (t :: us) []) (ht : ¬ P t.text) :
    ∃ deferred c', manyFrom 0 (some dot) item 0 c = (⟨[], deferred, none⟩, c') ∧
      Moved c [] 0 c' := by
  obtain ⟨e, c1, h1⟩ := hi.fails h.skipTrivia ht
  obtain ⟨deferred, fatal, he, hfatal, -⟩ := manyFrom_halt (not_atEnd h (decide (0 ≤ 0)))
    (show further (if 0 = 0 then none else some dot) item c.skipTrivia = (.error (.item e), c1) by
      rw [if_pos rfl, further_none, h1])
  rw [(hfatal (Nat.le_refl 0)).1] at he
  exact ⟨deferred, _, he, (moved_skipTrivia c).rewind⟩

end Dots

end Grammar

end StateBuffer
