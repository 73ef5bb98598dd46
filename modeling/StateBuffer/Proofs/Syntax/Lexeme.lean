import StateBuffer.Proofs.Syntax.Trivia
import StateBuffer.Syntax.Grammar

/-!
The tokens of the language, told by their shapes alone: four marks, words and integer literals. A
word or a literal must not be followed by an underscore, a letter or a digit of any script, so a
text has at most one token in front. The readers of symbols and of patterns take exactly that
token.
-/

namespace StateBuffer

open StateBuffer.Utf8

/-- A token and the offset where it starts. -/
structure Lexeme where
  start : Nat
  text : Bytes
  deriving DecidableEq

def Lexeme.span (file : FileId) (t : Lexeme) : Span :=
  Span.ofOffsets file t.start (t.start + t.text.length)

def marks : List Bytes := [".", "~", "=", ";"]

/-- An ASCII letter, a digit or an underscore. -/
def isNameByte (b : UInt8) : Bool := Bytes.isLetter b || b == 0x5F || Bytes.isDigit b

def isDigitByte (b : UInt8) : Bool := Bytes.isDigit b || b == 0x5F

/-- A letter or an underscore, then letters, digits and underscores. -/
def IsWord (text : Bytes) : Prop :=
  ∃ b r, text = b :: r ∧ (Bytes.isLetter b || b == 0x5F) = true ∧ ∀ c ∈ r, isNameByte c = true

/-- A minus sign if any, a digit, then digits and underscores. -/
def IsLiteral (text : Bytes) : Prop :=
  ∃ sign d r, text = sign ++ d :: r ∧ (sign = [] ∨ sign = [0x2D]) ∧ Bytes.isDigit d = true ∧
    ∀ c ∈ r, isDigitByte c = true

def IsName (text : Bytes) : Prop := IsWord text ∧ text ∉ Grammar.keywords

def IsToken (text : Bytes) : Prop := text ∈ marks ∨ IsWord text ∨ IsLiteral text

/-! ### Characters and bytes -/

lemma next_high {b : UInt8} (h : ¬ b < 0x80) (rest : Bytes) : 0x80 ≤ (next (b :: rest)).1 := by
  by_contra hlt
  have hn : next (b :: rest) = ((next (b :: rest)).1, (next (b :: rest)).2) := rfl
  obtain ⟨tail, ht, -⟩ := encode_of_next hn (by unfold replacement; omega)
  rw [encode, if_pos (by omega)] at ht
  have hb : b = (next (b :: rest)).1.toUInt8 := by simpa using congrArg List.head? ht
  apply h
  rw [UInt8.lt_iff_toNat_lt, hb, toNat_toUInt8 (by omega)]
  simpa using hlt

/-- A class of code points that is a class of ASCII bytes. -/
def OfBytes (accepts : Nat → Bool) (member : UInt8 → Bool) : Prop :=
  (∀ b : UInt8, b < 0x80 → accepts b.toNat = member b) ∧ (∀ b, member b = true → b < 0x80) ∧
    ∀ p, 0x80 ≤ p → accepts p = false

lemma takePoints_nil (accepts : Nat → Bool) (most : Option Nat) :
    takePoints accepts most [] = (0, []) := by
  rw [takePoints.eq_def]
  split <;> simp_all

lemma takePoints_none_cons {accepts : Nat → Bool} {member : UInt8 → Bool}
    (h : OfBytes accepts member) (b : UInt8) (r : Bytes) :
    takePoints accepts none (b :: r) =
      if member b then ((takePoints accepts none r).1 + 1, (takePoints accepts none r).2)
      else (0, b :: r) := by
  rw [takePoints.eq_def]
  by_cases hb : b < 0x80
  · simp [next_ascii hb, h.1 b hb]
  · have hm : member b = false := Bool.eq_false_iff.2 fun hm => hb (h.2.1 b hm)
    simp [hm, h.2.2 _ (next_high hb r)]

lemma takePoints_none {accepts : Nat → Bool} {member : UInt8 → Bool} (h : OfBytes accepts member)
    (s : Bytes) :
    takePoints accepts none s = ((s.takeWhile member).length, s.dropWhile member) := by
  induction s with
  | nil => rw [takePoints_nil]; rfl
  | cons b r ih =>
    rw [takePoints_none_cons h, ih]
    cases hb : member b <;> simp [hb]

lemma takePoints_one {accepts : Nat → Bool} {member : UInt8 → Bool} (h : OfBytes accepts member)
    (b : UInt8) (r : Bytes) :
    takePoints accepts (some 1) (b :: r) = if member b then (1, r) else (0, b :: r) := by
  have hz : takePoints accepts (some 0) r = (0, r) := by
    rw [takePoints.eq_def]
    cases r <;> rfl
  rw [takePoints.eq_def]
  by_cases hb : b < 0x80
  · simp [next_ascii hb, h.1 b hb, hz]
  · have hm : member b = false := Bool.eq_false_iff.2 fun hm => hb (h.2.1 b hm)
    simp [hm, h.2.2 _ (next_high hb r)]

lemma ofBytes_of_toNat {accepts : Nat → Bool} {member : UInt8 → Bool}
    (h : ∀ b : UInt8, accepts b.toNat = member b) (ha : ∀ p, accepts p = true → p < 0x80) :
    OfBytes accepts member := by
  refine ⟨fun b _ => h b, fun b hb => ?_, fun p hp => ?_⟩
  · exact UInt8.lt_iff_toNat_lt.2 (ha _ ((h b).trans hb))
  · exact Bool.eq_false_iff.2 fun hp' => by have := ha p hp'; omega

lemma ofBytes_startsName : OfBytes Grammar.startsName fun b => Bytes.isLetter b || b == 0x5F := by
  refine ofBytes_of_toNat (fun b => ?_) fun p hp => ?_
  · rw [Bool.eq_iff_iff]
    simp [Grammar.startsName, CodePoint.isAsciiLetter, Bytes.isLetter, Bytes.isUpper,
      Bytes.isLower, UInt8.le_iff_toNat_le, ← UInt8.toNat_inj]
  · simp [Grammar.startsName, CodePoint.isAsciiLetter] at hp
    omega

lemma ofBytes_digit : OfBytes CodePoint.isAsciiDigit Bytes.isDigit := by
  refine ofBytes_of_toNat (fun b => ?_) fun p hp => ?_
  · rw [Bool.eq_iff_iff]
    simp [CodePoint.isAsciiDigit, Bytes.isDigit, UInt8.le_iff_toNat_le]
  · simp [CodePoint.isAsciiDigit] at hp
    omega

lemma OfBytes.or {f g : Nat → Bool} {x y : UInt8 → Bool} (h : OfBytes f x) (h' : OfBytes g y) :
    OfBytes (fun p => f p || g p) fun b => x b || y b := by
  refine ⟨fun b hb => ?_, fun b hb => ?_, fun p hp => ?_⟩
  · simp only [h.1 b hb, h'.1 b hb]
  · rcases Bool.or_eq_true_iff.1 hb with hb | hb
    · exact h.2.1 b hb
    · exact h'.2.1 b hb
  · simp only [h.2.2 p hp, h'.2.2 p hp, Bool.or_false]

lemma ofBytes_single {c : UInt8} {n : Nat} (hn : n = c.toNat) (hc : c < 0x80) :
    OfBytes (fun p => p == n) fun b => b == c := by
  subst hn
  have hlt : c.toNat < 0x80 := UInt8.lt_iff_toNat_lt.1 hc
  refine ofBytes_of_toNat (fun b => ?_) fun p hp => ?_
  · rw [Bool.eq_iff_iff]
    simp [UInt8.toNat_inj]
  · simp only [beq_iff_eq] at hp
    omega

/-! ### The shapes of tokens -/

lemma nameParts (s : Bytes) : takeParts Grammar.namePattern.parts s =
    match s with
    | [] => none
    | b :: r =>
      if (Bytes.isLetter b || b == 0x5F) then some (r.dropWhile isNameByte) else none := by
  have hall : OfBytes Grammar.continuesName isNameByte := ofBytes_startsName.or ofBytes_digit
  cases s with
  | nil => simp [Grammar.namePattern, takeParts, takePoints_nil]
  | cons b r =>
    simp only [Grammar.namePattern, takeParts, takePoints_one ofBytes_startsName]
    cases hb : (Bytes.isLetter b || b == 0x5F) <;> simp [takePoints_none hall]

lemma literalParts_digits {d : UInt8} {r : Bytes} (hd : Bytes.isDigit d = true) :
    takeParts (Grammar.literalPattern.parts.drop 1) (d :: r) = some (r.dropWhile isDigitByte) := by
  have hall : OfBytes (fun p => CodePoint.isAsciiDigit p || p == 0x5F) isDigitByte :=
    ofBytes_digit.or (ofBytes_single rfl (by decide))
  simp [Grammar.literalPattern, takeParts, takePoints_one ofBytes_digit, hd, takePoints_none hall]

lemma literalParts_not {s : Bytes} (h : ∀ d r, s = d :: r → Bytes.isDigit d = false) :
    takeParts (Grammar.literalPattern.parts.drop 1) s = none := by
  cases s with
  | nil => simp [Grammar.literalPattern, takeParts, takePoints_nil]
  | cons d r =>
    simp [Grammar.literalPattern, takeParts, takePoints_one ofBytes_digit, h d r rfl]

lemma literalParts (s : Bytes) : takeParts Grammar.literalPattern.parts s =
    takeParts (Grammar.literalPattern.parts.drop 1)
      (if s.head? = some 0x2D then s.tail else s) := by
  have hsign : OfBytes (fun p => p == 0x2D) fun b => b == 0x2D := ofBytes_single rfl (by decide)
  cases s with
  | nil => simp [Grammar.literalPattern, takeParts, takePoints_nil]
  | cons b r =>
    by_cases hb : b = 0x2D
    · simp [Grammar.literalPattern, takeParts, takePoints_one hsign, hb]
    · simp [Grammar.literalPattern, takeParts, takePoints_one hsign, hb]

lemma isWord_head {b : UInt8} (h : (Bytes.isLetter b || b == 0x5F) = true) :
    (0x41 ≤ b.toNat ∧ b.toNat ≤ 0x5A) ∨ (0x61 ≤ b.toNat ∧ b.toNat ≤ 0x7A) ∨ b.toNat = 0x5F := by
  simp only [Bytes.isLetter, Bytes.isUpper, Bytes.isLower, Bool.or_eq_true, Bool.and_eq_true,
    decide_eq_true_eq, beq_iff_eq, UInt8.le_iff_toNat_le, ← UInt8.toNat_inj,
    UInt8.reduceToNat] at h
  omega

lemma isLiteral_head {text : Bytes} (h : IsLiteral text) :
    ∃ b r, text = b :: r ∧ (b.toNat = 0x2D ∨ 0x30 ≤ b.toNat ∧ b.toNat ≤ 0x39) := by
  obtain ⟨sign, d, r, rfl, rfl | rfl, hd, -⟩ := h
  · refine ⟨d, r, rfl, .inr ?_⟩
    simpa only [Bytes.isDigit, Bool.and_eq_true, decide_eq_true_eq, UInt8.le_iff_toNat_le,
      UInt8.reduceToNat] using hd
  · exact ⟨0x2D, d :: r, rfl, .inl rfl⟩

lemma mark_head {text : Bytes} (h : text ∈ marks) : ∃ b, text = [b] ∧
    (b.toNat = 0x2E ∨ b.toNat = 0x7E ∨ b.toNat = 0x3D ∨ b.toNat = 0x3B) := by
  simp only [marks, List.mem_cons, List.not_mem_nil, or_false] at h
  rcases h with rfl | rfl | rfl | rfl
  · exact ⟨0x2E, rfl, by decide⟩
  · exact ⟨0x7E, rfl, by decide⟩
  · exact ⟨0x3D, rfl, by decide⟩
  · exact ⟨0x3B, rfl, by decide⟩

lemma IsToken.head {text : Bytes} (h : IsToken text) :
    ∃ b r, text = b :: r ∧ 0x20 < b.toNat ∧ b.toNat < 0x7F ∧ b.toNat ≠ 0x2F := by
  rcases h with h | ⟨b, r, rfl, hb, -⟩ | h
  · obtain ⟨b, rfl, hb⟩ := mark_head h
    exact ⟨b, [], rfl, by omega, by omega, by omega⟩
  · have := isWord_head hb
    exact ⟨b, r, rfl, by omega, by omega, by omega⟩
  · obtain ⟨b, r, rfl, hb⟩ := isLiteral_head h
    exact ⟨b, r, rfl, by omega, by omega, by omega⟩

lemma IsToken.solid {text : Bytes} (h : IsToken text) (rest : Bytes) : Solid (text ++ rest) := by
  obtain ⟨b, r, rfl, h1, h2, h3⟩ := h.head
  have hb : b < 0x80 := UInt8.lt_iff_toNat_lt.2 (by simp only [UInt8.reduceToNat]; omega)
  constructor
  · rw [List.cons_append, next_ascii hb]
    simp only [CodePoint.isSpace, Bool.or_eq_false_iff, Bool.and_eq_false_iff,
      decide_eq_false_iff_not, beq_eq_false_iff_ne]
    omega
  · intro u hu
    rw [List.cons_append, List.cons.injEq] at hu
    rw [hu.1] at h3
    exact h3 rfl

lemma take_token (text rest : Bytes) :
    (text ++ rest).take ((text ++ rest).length - rest.length) = text := by
  rw [List.length_append, Nat.add_sub_cancel, List.take_left]

/-! ### Tokens in a text

Where a word ends depends on the letters and digits that there are. -/

variable [CodePoint.Edition]

/-- An underscore, a letter or a digit of any script begins here. -/
def Glued (s : Bytes) : Prop := ∃ p r, continuesWord p = true ∧ s = encode p ++ r

/-- The token `t` comes next in `s`, which is the end of a text of `size` bytes, and `rest` follows
it. -/
inductive Leads (size : Nat) (s : Bytes) (t : Lexeme) (rest : Bytes) : Prop where
  | mk
    (trivia : Trivia s (t.text ++ rest))
    (shape : t.text ∈ marks ∨ (IsWord t.text ∨ IsLiteral t.text) ∧ ¬ Glued rest)
    (start : t.start = size - (t.text ++ rest).length)

/-- `s` begins with the tokens of a list, and `rest` is left after them; some white space and
comments after the last token may be gone too. -/
inductive Lexed (size : Nat) : Bytes → List Lexeme → Bytes → Prop where
  | nil {s rest : Bytes} (h : Trivia s rest) : Lexed size s [] rest
  | cons {s rest rest' : Bytes} {t : Lexeme} {ts : List Lexeme} (h : Leads size s t rest)
      (hs : Lexed size rest ts rest') : Lexed size s (t :: ts) rest'

lemma scalar_of_continuesWord {p : Nat} (h : continuesWord p = true) :
    IsScalar p ∧ p ≠ replacement := by
  simp only [continuesWord, Bool.or_eq_true, beq_iff_eq] at h
  rcases (or_assoc.1 h) with rfl | h | h
  · exact ⟨.inl (by decide), by decide⟩
  · exact CodePoint.scalar_of_isLetter h
  · exact CodePoint.scalar_of_isDigit h

lemma runsOn_iff (s : Bytes) : runsOn s = true ↔ Glued s := by
  constructor
  · intro h
    rcases hn : next s with ⟨p, size⟩
    cases size with
    | zero => simp [runsOn, hn] at h
    | succ n =>
      have hp : continuesWord p = true := by simpa [runsOn, hn] using h
      obtain ⟨tail, ht, -⟩ := encode_of_next hn (scalar_of_continuesWord hp).2
      exact ⟨p, tail, hp, ht⟩
  · rintro ⟨p, r, hp, rfl⟩
    have hn := next_encode (scalar_of_continuesWord hp).1 r
    have hlen := List.length_pos_iff.2 (encode_ne_nil p)
    obtain ⟨n, hl⟩ := Nat.exists_eq_add_of_le' hlen
    simp [runsOn, hn, hl, hp]

lemma not_glued_cons {b : UInt8} {r : Bytes} (h : ¬ Glued (b :: r)) : isNameByte b = false := by
  refine Bool.eq_false_iff.2 fun hb => h ?_
  have hb' : b.toNat < 0x80 ∧ continuesWord b.toNat = true := by
    simp only [isNameByte, Bytes.isLetter, Bytes.isUpper, Bytes.isLower, Bytes.isDigit,
      Bool.or_eq_true, Bool.and_eq_true, decide_eq_true_eq, beq_iff_eq, UInt8.le_iff_toNat_le,
      ← UInt8.toNat_inj, UInt8.reduceToNat] at hb
    have hlt : b.toNat < 0x80 := by omega
    refine ⟨hlt, ?_⟩
    simp only [continuesWord, CodePoint.isLetter, CodePoint.isDigit, if_pos hlt,
      CodePoint.isAsciiLetter, CodePoint.isAsciiDigit, Bool.or_eq_true, Bool.and_eq_true,
      decide_eq_true_eq, beq_iff_eq]
    omega
  exact ⟨b.toNat, r, hb'.2, by simp [encode, hb'.1]⟩

lemma dropWhile_run {member : UInt8 → Bool} (hm : ∀ b, member b = true → isNameByte b = true)
    {run rest : Bytes} (hr : ∀ b ∈ run, member b = true) (hg : ¬ Glued rest) :
    (run ++ rest).dropWhile member = rest ∧ (run ++ rest).takeWhile member = run := by
  rw [List.dropWhile_append_of_pos hr, List.takeWhile_append_of_pos hr]
  cases rest with
  | nil => simp
  | cons b r =>
    have hb : ¬ member b = true := fun h => by
      have := not_glued_cons hg
      rw [hm b h] at this
      simp at this
    simp [List.dropWhile_cons_of_neg hb, List.takeWhile_cons_of_neg hb]

lemma rest?_iff (p : Pattern) (s rest : Bytes) : p.rest? s = some rest ↔
    takeParts p.parts s = some rest ∧ s.take (s.length - rest.length) ∉ p.excluded ∧
      ¬ Glued rest := by
  rw [← runsOn_iff]
  simp only [Pattern.rest?, bind, Option.bind_eq_some_iff]
  constructor
  · rintro ⟨r, hr, h⟩
    split_ifs at h with h1 h2
    cases h
    exact ⟨hr, by simpa using h1, by simpa using h2⟩
  · rintro ⟨hr, h1, h2⟩
    exact ⟨rest, hr, by rw [if_neg (by simpa using h1), if_neg h2]⟩

lemma name_rest? (s rest : Bytes) : Grammar.namePattern.rest? s = some rest ↔
    ∃ text, s = text ++ rest ∧ IsName text ∧ ¬ Glued rest := by
  rw [rest?_iff, nameParts]
  constructor
  · rintro ⟨h, hk, hg⟩
    cases s with
    | nil => simp at h
    | cons b r =>
      simp only [Option.ite_none_right_eq_some, Option.some.injEq] at h
      obtain ⟨hb, rfl⟩ := h
      have hs : b :: r = (b :: r.takeWhile isNameByte) ++ r.dropWhile isNameByte := by
        rw [List.cons_append, List.takeWhile_append_dropWhile]
      rw [hs, take_token] at hk
      exact ⟨_, hs, ⟨⟨b, _, rfl, hb, List.all_eq_true.1 List.all_takeWhile⟩, hk⟩, hg⟩
  · rintro ⟨text, rfl, ⟨⟨b, r, rfl, hb, hr⟩, hk⟩, hg⟩
    refine ⟨?_, by rwa [take_token], hg⟩
    simp only [List.cons_append, if_pos hb, (dropWhile_run (fun _ h => h) hr hg).1]

lemma literal_rest? (s rest : Bytes) : Grammar.literalPattern.rest? s = some rest ↔
    ∃ text, s = text ++ rest ∧ IsLiteral text ∧ ¬ Glued rest := by
  have hx : ∀ t, t ∉ Grammar.literalPattern.excluded := fun t => List.not_mem_nil
  rw [rest?_iff, literalParts]
  constructor
  · rintro ⟨h, -, hg⟩
    obtain ⟨sign, u, hs, hu, hsign⟩ : ∃ sign u, s = sign ++ u ∧
        (if s.head? = some 0x2D then s.tail else s) = u ∧ (sign = [] ∨ sign = [0x2D]) := by
      split_ifs with hh
      · cases s with
        | nil => simp at hh
        | cons b r => exact ⟨[0x2D], r, by simpa using hh, rfl, .inr rfl⟩
      · exact ⟨[], s, rfl, rfl, .inl rfl⟩
    rw [hu] at h
    by_cases hd : ∃ d r, u = d :: r ∧ Bytes.isDigit d = true
    · obtain ⟨d, r, rfl, hd⟩ := hd
      rw [literalParts_digits hd] at h
      cases h
      refine ⟨sign ++ d :: r.takeWhile isDigitByte, ?_, ?_, hg⟩
      · rw [hs, List.append_assoc, List.cons_append, List.takeWhile_append_dropWhile]
      · exact ⟨sign, d, _, rfl, hsign, hd, List.all_eq_true.1 List.all_takeWhile⟩
    · rw [literalParts_not fun d r he => Bool.eq_false_iff.2 fun h' => hd ⟨d, r, he, h'⟩] at h
      simp at h
  · rintro ⟨text, rfl, ⟨sign, d, r, rfl, hsign, hd, hr⟩, hg⟩
    refine ⟨?_, hx _, hg⟩
    have hne : d ≠ 0x2D := by rintro rfl; revert hd; decide
    have hrun : (r ++ rest).dropWhile isDigitByte = rest := by
      refine (dropWhile_run (fun b hb => ?_) hr hg).1
      simp only [isDigitByte, Bool.or_eq_true] at hb
      simp only [isNameByte, Bool.or_eq_true]
      tauto
    have hu : (if (sign ++ d :: r ++ rest).head? = some 0x2D then (sign ++ d :: r ++ rest).tail
        else sign ++ d :: r ++ rest) = d :: (r ++ rest) := by
      rcases hsign with rfl | rfl <;> simp [hne]
    rw [hu, literalParts_digits hd, hrun]

/-! ### The token in front -/

lemma token_unique {text text' rest rest' : Bytes}
    (h : text ∈ marks ∨ (IsWord text ∨ IsLiteral text) ∧ ¬ Glued rest)
    (h' : text' ∈ marks ∨ (IsWord text' ∨ IsLiteral text') ∧ ¬ Glued rest')
    (he : text ++ rest = text' ++ rest') : text = text' ∧ rest = rest' := by
  have hlen : rest = rest' → text = text' ∧ rest = rest' := by
    rintro rfl
    exact ⟨List.append_cancel_right he, rfl⟩
  have hhead : ∀ {b b' : UInt8} {r r'}, text = b :: r → text' = b' :: r' → b.toNat = b'.toNat := by
    rintro b b' r r' rfl rfl
    rw [List.cons_append, List.cons_append, List.cons.injEq] at he
    rw [he.1]
  rcases h with h | ⟨⟨b, r, hb, hbl, hr⟩ | h, hg⟩ <;>
    rcases h' with h' | ⟨⟨b', r', hb', hbl', hr'⟩ | h', hg'⟩
  · obtain ⟨b, rfl, -⟩ := mark_head h
    obtain ⟨b', rfl, -⟩ := mark_head h'
    simpa using he
  · obtain ⟨b, hb, hb1⟩ := mark_head h
    have := hhead hb hb'
    have := isWord_head hbl'
    omega
  · obtain ⟨b, hb, hb1⟩ := mark_head h
    obtain ⟨b', r', hb', hb2⟩ := isLiteral_head h'
    have := hhead hb hb'
    omega
  · obtain ⟨b', hb', hb1⟩ := mark_head h'
    have := hhead hb hb'
    have := isWord_head hbl
    omega
  · subst hb hb'
    rw [List.cons_append, List.cons_append, List.cons.injEq] at he
    apply hlen
    rw [← (dropWhile_run (fun _ h => h) hr hg).1, he.2, (dropWhile_run (fun _ h => h) hr' hg').1]
  · obtain ⟨b', r', hb', hb2⟩ := isLiteral_head h'
    have := hhead hb hb'
    have := isWord_head hbl
    omega
  · obtain ⟨b', hb', hb1⟩ := mark_head h'
    obtain ⟨b, r, hb, hb2⟩ := isLiteral_head h
    have := hhead hb hb'
    omega
  · obtain ⟨b, r, hb, hb2⟩ := isLiteral_head h
    have := hhead hb hb'
    have := isWord_head hbl'
    omega
  · apply hlen
    have h1 := (literal_rest? _ rest).2 ⟨text, rfl, h, hg⟩
    have h2 := (literal_rest? _ rest').2 ⟨text', rfl, h', hg'⟩
    rw [he, h2] at h1
    exact (Option.some.inj h1).symm

lemma Leads.isToken {size : Nat} {s rest : Bytes} {t : Lexeme} (h : Leads size s t rest) :
    IsToken t.text := by
  obtain ⟨-, h | ⟨h, -⟩, -⟩ := h
  · exact .inl h
  · exact .inr h

lemma Leads.dropTrivia_eq {size : Nat} {s rest : Bytes} {t : Lexeme} (h : Leads size s t rest) :
    dropTrivia s = t.text ++ rest := by
  have hs := h.isToken.solid rest
  obtain ⟨ht, -, -⟩ := h
  rw [dropTrivia_of_trivia ht, dropTrivia_solid hs]

/-- A text has at most one token in front. -/
theorem Leads.unique {size : Nat} {s rest rest' : Bytes} {t t' : Lexeme}
    (h : Leads size s t rest) (h' : Leads size s t' rest') : t = t' ∧ rest = rest' := by
  have he := h.dropTrivia_eq.symm.trans h'.dropTrivia_eq
  obtain ⟨-, hshape, hstart⟩ := h
  obtain ⟨-, hshape', hstart'⟩ := h'
  obtain ⟨h1, h2⟩ := token_unique hshape hshape' he
  refine ⟨?_, h2⟩
  rw [he, ← hstart'] at hstart
  cases t; cases t'
  simp_all

lemma Leads.length_lt {size : Nat} {s rest : Bytes} {t : Lexeme} (h : Leads size s t rest) :
    rest.length < s.length := by
  obtain ⟨b, r, hb, -⟩ := h.isToken.head
  obtain ⟨ht, -, -⟩ := h
  have := ht.suffix.length_le
  rw [hb, List.length_append, List.length_cons] at this
  omega

end StateBuffer
