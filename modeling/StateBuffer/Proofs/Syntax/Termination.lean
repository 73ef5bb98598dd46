import StateBuffer.Proofs.Syntax.Backtracking

/-!
Why reading ends. The loops over characters, over trivia and over items are written here turn by
turn: each makes at most `fuel` turns, has no other bound, and gives nothing if that is not enough.
A character takes at least one byte, ill-formed ones too, and so does an item; so one turn more than
there are bytes left is always enough, and the loops give what the readers give.
-/

namespace StateBuffer

open StateBuffer.Utf8 StateBuffer.Parser

/-! ### Loops over characters -/

/-- Takes characters of a class one by one, up to a bound: how many, and the rest. -/
def pointTurns (accepts : Nat → Bool) : Nat → Option Nat → Bytes → Option (Nat × Bytes)
  | 0, _, _ => none
  | fuel + 1, most, s =>
    if most = some 0 || s.isEmpty then some (0, s)
    else if accepts (next s).1 then
      (pointTurns accepts fuel (most.map (· - 1)) (s.drop (next s).2)).map
        fun (count, rest) => (count + 1, rest)
    else some (0, s)

/-- Skips white space and a comment after it, round after round, until a round skips nothing. -/
def triviaTurns : Nat → Bytes → Option Bytes
  | 0, _ => none
  | fuel + 1, s => do
    let (_, t) ← pointTurns CodePoint.isSpace (fuel + 1) none s
    if (dropComment t).length = s.length then some s else triviaTurns fuel (dropComment t)

lemma takePoints_cons (accepts : Nat → Bool) {most : Option Nat} (hmost : most ≠ some 0) (b : UInt8)
    (r : Bytes) : takePoints accepts most (b :: r) =
      if accepts (next (b :: r)).1 then
        ((takePoints accepts (most.map (· - 1)) ((b :: r).drop (next (b :: r)).2)).1 + 1,
          (takePoints accepts (most.map (· - 1)) ((b :: r).drop (next (b :: r)).2)).2)
      else (0, b :: r) := by
  obtain ⟨n, hn⟩ := Nat.exists_eq_add_of_le' (next_size_pos b r)
  rw [hn, List.drop_succ_cons, takePoints.eq_def]
  rcases most with _ | _ | m <;> simp_all

/-- **Characters run out**: what a turn takes is never empty, so the loop ends. -/
theorem pointTurns_eq (accepts : Nat → Bool) {fuel : Nat} {most : Option Nat} {s : Bytes}
    (h : s.length < fuel) : pointTurns accepts fuel most s = some (takePoints accepts most s) := by
  induction fuel generalizing most s with
  | zero => omega
  | succ fuel ih =>
    by_cases hmost : most = some 0
    · rw [takePoints.eq_def]
      simp [pointTurns, hmost]
    cases s with
    | nil => simp [pointTurns, takePoints_nil]
    | cons b r =>
      have hsize := next_size_pos b r
      rw [takePoints_cons accepts hmost]
      simp only [pointTurns, hmost, decide_false, List.isEmpty_cons, Bool.or_false,
        Bool.false_eq_true, if_false]
      split_ifs
      · rw [ih (by simp only [List.length_drop, List.length_cons] at *; omega)]
        rfl
      · rfl

lemma takePoints_isSpace (s : Bytes) : (takePoints CodePoint.isSpace none s).2 = dropSpaces s := by
  induction hn : s.length using Nat.strongRecOn generalizing s with
  | _ n ih =>
    cases s with
    | nil => simp [takePoints_nil]
    | cons b r =>
      have hsize := next_size_pos b r
      rw [takePoints_cons _ (by simp), dropSpaces_cons]
      split_ifs
      · exact ih _ (by simp only [List.length_drop, List.length_cons] at *; omega) _ rfl
      · rfl

/-- **Trivia runs out**: a round that skips something leaves less, and one that skips nothing is the
last. -/
theorem triviaTurns_eq {fuel : Nat} {s : Bytes} (h : s.length < fuel) :
    triviaTurns fuel s = some (dropTrivia s) := by
  induction fuel generalizing s with
  | zero => omega
  | succ fuel ih =>
    have hround : triviaTurns (fuel + 1) s =
        if (dropComment (dropSpaces s)).length = s.length then some s
        else triviaTurns fuel (dropComment (dropSpaces s)) := by
      simp only [triviaTurns, pointTurns_eq _ h, Option.bind_eq_bind, Option.bind_some,
        takePoints_isSpace]
    have hle : (dropComment (dropSpaces s)).length ≤ s.length :=
      ((trivia_dropSpaces s).1.trans (trivia_dropComment _)).suffix.length_le
    rw [hround]
    split_ifs with he
    · -- the round came back to where it began
      rw [dropTrivia_eq, if_neg (by omega)]
    · rw [ih (by omega), dropTrivia_round]

lemma Cursor.skipTrivia_skipTrivia (c : Cursor) : c.skipTrivia.skipTrivia = c.skipTrivia := by
  have hrest : dropTrivia c.skipTrivia.rest = c.skipTrivia.rest :=
    dropTrivia_solid (trivia_dropTrivia c.rest).2
  show c.skipTrivia.moveTo (dropTrivia c.skipTrivia.rest) = c.skipTrivia
  rw [hrest]
  simp only [Cursor.moveTo, Nat.sub_self, Nat.add_zero]

/-! ### Loops over items -/

section Repetition

variable {α : Type} (text : Bytes) (least : Nat) (separator : Option (Parser Unit))
  (item : Parser α)

/-- One turn of a repetition: what it ends with, or one more item. -/
def Parser.turn (index : Nat) (c : Cursor) : (Repetition α × Cursor) ⊕ (α × Cursor) :=
  let start := c.skipTrivia
  if start.atEnd && least ≤ index then .inl (⟨[], none, none⟩, start)
  else
    match further (if index = 0 then none else separator) item start with
    | (.error (.separator e), c') => .inl (⟨[], some e, none⟩, c'.restore text start.mark)
    | (.error (.item e), c') =>
      if index < least then .inl (⟨[], none, some e⟩, c'.restore text start.mark)
      else .inl (⟨[], some e, none⟩, c'.restore text start.mark)
    | (.ok a, c') => .inr (a, c')

/-- Turn after turn of a repetition, for as long as there are more items. -/
def Parser.turns : Nat → Nat → Cursor → Option (Repetition α × Cursor)
  | 0, _, _ => none
  | fuel + 1, index, c =>
    match turn text least separator item index c with
    | .inl result => some result
    | .inr (a, c') => (turns fuel (index + 1) c').map
        fun (more, c'') => ({ more with items := a :: more.items }, c'')

variable {text least separator item} (hsep : ∀ sep ∈ separator, Steady sep) (hitem : Steady item)

include hsep hitem

/-- What a turn does to a repetition: it is the last, or one item is put in front of the rest. -/
lemma manyFrom_turn (hadvances : Advances item) (least index : Nat) {c : Cursor} (hc : c.In text) :
    match turn text least separator item index c with
    | .inl result => manyFrom least separator item index c = result
    | .inr (a, c') => Onward c c' ∧ c'.rest.length < c.rest.length ∧
        manyFrom least separator item index c =
          ({ (manyFrom least separator item (index + 1) c').1 with
              items := a :: (manyFrom least separator item (index + 1) c').1.items },
            (manyFrom least separator item (index + 1) c').2) := by
  have hskip := Onward.skipTrivia c
  -- the end of the text, a missing separator, a missing item, or one more item
  by_cases hend : (c.skipTrivia.atEnd && decide (least ≤ index)) = true
  · simp only [turn, hend, if_true]
    exact Grammar.manyFrom_end hend
  rcases hfurther : further (if index = 0 then none else separator) item c.skipTrivia
    with ⟨(e | e) | a, c'⟩
  · have hgo := Steady.turn hsep hitem hfurther
    simp only [turn, if_neg hend, hfurther, Cursor.restore_mark (hc.onward hskip) hgo]
    rw [manyFrom.eq_def]
    simp only [if_neg hend, hfurther]
  · have hgo := Steady.turn hsep hitem hfurther
    simp only [turn, if_neg hend, hfurther, Cursor.restore_mark (hc.onward hskip) hgo]
    rw [manyFrom.eq_def]
    simp only [if_neg hend, hfurther]
    split_ifs <;> rfl
  · have hgo := hskip.trans (Steady.turn hsep hitem hfurther)
    have hlt : c'.rest.length < c.rest.length :=
      Nat.lt_of_lt_of_le (hadvances.further (Steady.due hsep index) hfurther)
        hskip.rest.length_le
    simp only [turn, if_neg hend, hfurther]
    exact ⟨hgo, hlt, Grammar.manyFrom_step hend hfurther hlt⟩

/-- **Items run out**: a repetition of an item that takes something ends, and gives what reading
many of them gives. -/
theorem turns_eq (hadvances : Advances item) {fuel index : Nat} {c : Cursor} (hc : c.In text)
    (h : c.rest.length < fuel) :
    turns text least separator item fuel index c
      = some (manyFrom least separator item index c) := by
  induction fuel generalizing index c with
  | zero => omega
  | succ fuel ih =>
    have hturn := manyFrom_turn hsep hitem hadvances least index hc
    rcases ht : turn text least separator item index c with result | ⟨a, c'⟩
    · rw [ht] at hturn
      simp only [turns, ht, hturn]
    · rw [ht] at hturn
      obtain ⟨hgo, hlt, he⟩ := hturn
      simp only [turns, ht, ih (hc.onward hgo) (by omega), he, Option.map_some]

end Repetition

/-! ### Reading a file -/

namespace Grammar

/-- The repetition at `c` ends in the text, within one turn more than there are bytes left. -/
structure LoopEnds {α : Type} (text : Bytes) (least : Nat) (separator : Option (Parser Unit))
    (item : Parser α) (c : Cursor) : Prop where
  turns : ∀ fuel, c.rest.length < fuel →
    turns text least separator item fuel 0 c = some (manyFrom least separator item 0 c)
  inText : (manyFrom least separator item 0 c).2.In text

/-- Readers that fail at `c` leave nothing behind. -/
structure GivesBack (text : Bytes) (c : Cursor) : Prop where
  item : ∀ e c', item c = (.error e, c') → c.Unmoved c'
  expr : ∀ e c', expr c = (.error e, c') → c.Unmoved c'
  choice : ∀ {α : Type} (fallback : α) (ps : List (Parser α)) (e : SyntaxError) (c' : Cursor),
    choice fallback ps c = (.error e, c') → c.Unmoved c'
  attempt : ∀ {α : Type} (p : Parser α) (c' : Cursor),
    attempt p c = (.ok none, c') → c.Unmoved c'
  /-- The mark is enough to go back from wherever a reader of the grammar ended. -/
  restore : ∀ {α : Type} {p : Parser α}, OfGrammar p →
    (p c).2.In text ∧ (p c).2.restore text c.mark = (p c).2.rewind c

/-- Readers of items and segments that succeed at `c` have gone on in the text. -/
structure GoesOn (text : Bytes) (c : Cursor) : Prop where
  item : ∀ a c', item c = (.ok a, c') → c.offset < c'.offset ∧ c'.offset ≤ text.length
  parent : ∀ a c', parentSegment c = (.ok a, c') → c.offset < c'.offset ∧ c'.offset ≤ text.length
  name : ∀ a c', nameSegment c = (.ok a, c') → c.offset < c'.offset ∧ c'.offset ≤ text.length

/-- Every loop that reading a file may start at `c` ends. -/
structure Finishes (text : Bytes) (c : Cursor) : Prop where
  points : ∀ accepts most fuel, c.rest.length < fuel →
    pointTurns accepts fuel most c.rest = some (takePoints accepts most c.rest)
  trivia : ∀ fuel, c.rest.length < fuel → triviaTurns fuel c.rest = some c.skipTrivia.rest
  again : c.skipTrivia.skipTrivia = c.skipTrivia
  items : LoopEnds text 0 none Grammar.item c
  parents : LoopEnds text 0 (some dot) parentSegment c
  names : LoopEnds text 1 (some dot) nameSegment c

variable {α : Type} {text : Bytes} {c : Cursor}

lemma loopEnds_of_advances {separator : Option (Parser Unit)} {item : Parser α}
    (hsep : ∀ sep ∈ separator, Steady sep) (hitem : Steady item) (hadvances : Advances item)
    (hc : c.In text) (least : Nat) : LoopEnds text least separator item c where
  turns _ h := turns_eq hsep hitem hadvances hc h
  inText := hc.onward (Steady.manyFrom hsep hitem 0 c)

lemma offset_of_advances {p : Parser α} (hp : Steady p) (hadvances : Advances p) (hc : c.In text)
    (a : α) (c' : Cursor) (h : p c = (.ok a, c')) :
    c.offset < c'.offset ∧ c'.offset ≤ text.length := by
  have hgo := hp.of_eq h
  have hlt := hadvances c a c' h
  have hsize := hgo.size
  simp only [Cursor.size] at hsize
  exact ⟨by omega, (hc.onward hgo).1⟩

/-- **Backtracking is clean and reading ends**: wherever a cursor stands in a text, under whatever
scopes and with whatever node number next, failed readers leave it as it was, items and segments
take it further, and each loop from there ends; so reading a whole file is its loop turn by turn,
which ends. -/
theorem backtracks_and_ends (hc : c.In text) :
    GivesBack text c ∧ GoesOn text c ∧ Finishes text c ∧
      ∀ id nextId, ∃ found c', turns text 0 none item (text.length + 1) 0
        (Cursor.start id text nextId) = some (found, c') ∧
        file id text nextId =
          ⟨found.items, found.fatal.or found.deferred, c'.nextId, c'.matched.reverse⟩ := by
  have hdot : ∀ sep ∈ some dot, Steady sep := fun _ hs => Option.some.inj hs ▸ steady_dot
  refine ⟨⟨fun _ _ => choiceFrom_unmoved, fun _ _ => choiceFrom_unmoved,
      fun _ _ _ _ => choiceFrom_unmoved, fun _ _ => attempt_unmoved, fun hp => ?_⟩,
    ⟨offset_of_advances steady_item advances_item hc,
      offset_of_advances steady_parentSegment reads_parent.advances hc,
      offset_of_advances steady_nameSegment reads_nameSegment.advances hc⟩,
    ⟨fun accepts _ _ h => pointTurns_eq accepts h, fun _ h => triviaTurns_eq h,
      c.skipTrivia_skipTrivia,
      loopEnds_of_advances (by simp) steady_item advances_item hc 0,
      loopEnds_of_advances hdot steady_parentSegment reads_parent.advances hc 0,
      loopEnds_of_advances hdot steady_nameSegment reads_nameSegment.advances hc 1⟩, ?_⟩
  · exact ⟨hc.onward (hp.steady c), Cursor.restore_mark hc (hp.steady c)⟩
  · intro id nextId
    have hstart : (Cursor.start id text nextId).In text := ⟨Nat.zero_le _, rfl⟩
    exact ⟨_, _, turns_eq (by simp) steady_item advances_item hstart (Nat.lt_succ_self _), rfl⟩

/-- A constant, then a text that breaks off in a slash, an ill-formed byte and a comment with no
line end. -/
def brokenText : Bytes := ("const x = 1; pub /" : Bytes) ++ [0xFF, 0x2F, 0x2F]

/-- A cursor in it, inside a scope. -/
def brokenAt (offset : Nat) : Cursor := ⟨1, offset, brokenText.drop offset, [4], 9, []⟩

/-- The constant is taken; what follows it is skipped and read in vain, and given back. -/
theorem backtracks_and_ends_broken :
    ((brokenAt 0).In brokenText ∧ (brokenAt 12).In brokenText) ∧
      (∃ found c', item (brokenAt 0) = (.ok found, c') ∧ 0 < c'.offset ∧ c'.offset ≤ 21) ∧
      ∃ e c', item (brokenAt 12) = (.error e, c') ∧
        c'.offset = 12 ∧ c'.scope = [4] ∧ c'.nextId = 9 := by
  have hin0 : (brokenAt 0).In brokenText := ⟨by decide +kernel, rfl⟩
  have hin12 : (brokenAt 12).In brokenText := ⟨by decide +kernel, rfl⟩
  have hlength : brokenText.length = 21 := by decide +kernel
  obtain ⟨-, hon, -⟩ := backtracks_and_ends hin0
  obtain ⟨hback, -⟩ := backtracks_and_ends hin12
  refine ⟨⟨hin0, hin12⟩, ?_, ?_⟩
  · have hfound : (item (brokenAt 0)).1.isOk = true := by decide +kernel
    rcases h : item (brokenAt 0) with ⟨e | found, c'⟩
    · simp [h, Except.isOk, Except.toBool] at hfound
    · exact ⟨found, c', rfl, hlength ▸ hon.item found c' h⟩
  · have hfailed : (item (brokenAt 12)).1.isOk = false := by decide +kernel
    rcases h : item (brokenAt 12) with ⟨e | found, c'⟩
    · have hunmoved := hback.item e c' h
      exact ⟨e, c', rfl, hunmoved.offset, hunmoved.scope, hunmoved.nextId⟩
    · simp [h, Except.isOk, Except.toBool] at hfailed

end Grammar

end StateBuffer
