import Mathlib.Tactic.Common
import StateBuffer.Text.CodePoint
import StateBuffer.Text.Utf8

/-!
Reading and writing characters. The bytes of a character read as that character whatever follows
them, and a character that was read stands in the text with exactly those bytes; only the
replacement character can be read where it was not written. White space, letters and digits are
characters, and the replacement is none of them.
-/

namespace StateBuffer

namespace Utf8

/-- The numbers that characters have: all up to U+10FFFF but the surrogates. -/
def IsScalar (point : Nat) : Prop := point < 0xD800 ∨ 0xE000 ≤ point ∧ point < 0x110000

lemma encode_ne_nil (p : Nat) : encode p ≠ [] := by
  unfold encode
  split_ifs <;> simp

lemma toNat_toUInt8 {n : Nat} (h : n < 256) : n.toUInt8.toNat = n := by
  simp [Nat.toUInt8, UInt8.toNat_ofNat', Nat.mod_eq_of_lt h]

lemma continuation_zero (low high : UInt8) (value : Nat) (s : Bytes) :
    continuation 0 low high value s = (0, some value) := by simp [continuation]

lemma continuation_bits {n bits value : Nat} {low high : UInt8} {rest : Bytes} {count point : Nat}
    (hb : bits < 64) (hl : low.toNat ≤ 0x80 + bits) (hh : 0x80 + bits ≤ high.toNat)
    (h : continuation n 0x80 0xBF (value * 64 + bits) rest = (count, some point)) :
    continuation (n + 1) low high value ((0x80 + bits).toUInt8 :: rest)
      = (count + 1, some point) := by
  have e : (0x80 + bits).toUInt8.toNat = 0x80 + bits := toNat_toUInt8 (by omega)
  have hm : (0x80 + bits).toUInt8.toNat % 64 = bits := by rw [e]; omega
  have hr : low ≤ (0x80 + bits).toUInt8 ∧ (0x80 + bits).toUInt8 ≤ high := by
    rw [UInt8.le_iff_toNat_le, UInt8.le_iff_toNat_le, e]
    exact ⟨hl, hh⟩
  simp only [continuation, if_pos hr, hm, h]

lemma ofByte?_toUInt8 {n : Nat} (h : n < 256) :
    Lead.ofByte? n.toUInt8 =
      if n < 0x80 then some ⟨0, 0x80, 0xBF, n⟩
      else if n < 0xC2 then none
      else if n < 0xE0 then some ⟨1, 0x80, 0xBF, n % 0x20⟩
      else if n = 0xE0 then some ⟨2, 0xA0, 0xBF, 0⟩
      else if n = 0xED then some ⟨2, 0x80, 0x9F, 0x0D⟩
      else if n < 0xF0 then some ⟨2, 0x80, 0xBF, n % 0x10⟩
      else if n = 0xF0 then some ⟨3, 0x90, 0xBF, 0⟩
      else if n < 0xF4 then some ⟨3, 0x80, 0xBF, n % 0x08⟩
      else if n = 0xF4 then some ⟨3, 0x80, 0x8F, 4⟩
      else none := by
  unfold Lead.ofByte?
  simp only [UInt8.lt_iff_toNat_lt, ← UInt8.toNat_inj, toNat_toUInt8 h, UInt8.reduceToNat]

lemma next_of_lead {b : UInt8} {n bits : Nat} {low high : UInt8} {rest : Bytes} {count point : Nat}
    (hl : Lead.ofByte? b = some ⟨n, low, high, bits⟩)
    (hc : continuation n low high bits rest = (count, some point)) :
    next (b :: rest) = (point, count + 1) := by
  simp only [next, sequence, hl, hc]

lemma lead_two {p : Nat} (h1 : 0x80 ≤ p) (h2 : p < 0x800) :
    Lead.ofByte? (0xC0 + p / 64).toUInt8 = some ⟨1, 0x80, 0xBF, p / 64⟩ := by
  have e : (0xC0 + p / 64) % 0x20 = p / 64 := by omega
  rw [ofByte?_toUInt8 (by omega), if_neg (by omega), if_neg (by omega), if_pos (by omega), e]

lemma lead_three {p : Nat} (h1 : 0x800 ≤ p) (h2 : p < 0x10000) (h : IsScalar p) :
    ∃ low high : UInt8, Lead.ofByte? (0xE0 + p / 4096).toUInt8 = some ⟨2, low, high, p / 4096⟩ ∧
      low.toNat ≤ 0x80 + p / 64 % 64 ∧ 0x80 + p / 64 % 64 ≤ high.toNat := by
  unfold IsScalar at h
  have e : (0xE0 + p / 4096) % 0x10 = p / 4096 := by omega
  rw [ofByte?_toUInt8 (by omega), if_neg (by omega), if_neg (by omega), if_neg (by omega), e]
  split_ifs with c1 c2 c3
  · have : p / 4096 = 0 := by omega
    exact ⟨0xA0, 0xBF, by rw [this], by simp only [UInt8.reduceToNat]; omega,
      by simp only [UInt8.reduceToNat]; omega⟩
  · have : p / 4096 = 0x0D := by omega
    exact ⟨0x80, 0x9F, by rw [this], by simp only [UInt8.reduceToNat]; omega,
      by simp only [UInt8.reduceToNat]; omega⟩
  · exact ⟨0x80, 0xBF, rfl, by simp only [UInt8.reduceToNat]; omega,
      by simp only [UInt8.reduceToNat]; omega⟩
  all_goals omega

lemma lead_four {p : Nat} (h1 : 0x10000 ≤ p) (h2 : p < 0x110000) :
    ∃ low high : UInt8,
      Lead.ofByte? (0xF0 + p / 262144).toUInt8 = some ⟨3, low, high, p / 262144⟩ ∧
      low.toNat ≤ 0x80 + p / 4096 % 64 ∧ 0x80 + p / 4096 % 64 ≤ high.toNat := by
  have e : (0xF0 + p / 262144) % 0x08 = p / 262144 := by omega
  rw [ofByte?_toUInt8 (by omega), if_neg (by omega), if_neg (by omega), if_neg (by omega),
    if_neg (by omega), if_neg (by omega), if_neg (by omega), e]
  split_ifs with c1 c2 c3
  · have : p / 262144 = 0 := by omega
    exact ⟨0x90, 0xBF, by rw [this], by simp only [UInt8.reduceToNat]; omega,
      by simp only [UInt8.reduceToNat]; omega⟩
  · exact ⟨0x80, 0xBF, rfl, by simp only [UInt8.reduceToNat]; omega,
      by simp only [UInt8.reduceToNat]; omega⟩
  · have : p / 262144 = 4 := by omega
    exact ⟨0x80, 0x8F, by rw [this], by simp only [UInt8.reduceToNat]; omega,
      by simp only [UInt8.reduceToNat]; omega⟩
  · omega

lemma continuation_tail {n bits value : Nat} {rest : Bytes} {count point : Nat} (hb : bits < 64)
    (h : continuation n 0x80 0xBF (value * 64 + bits) rest = (count, some point)) :
    continuation (n + 1) 0x80 0xBF value ((0x80 + bits).toUInt8 :: rest)
      = (count + 1, some point) :=
  continuation_bits hb (by simp only [UInt8.reduceToNat]; omega)
    (by simp only [UInt8.reduceToNat]; omega) h

/-- **Reading what was written**: the bytes of a character read as that character. -/
theorem next_encode {p : Nat} (h : IsScalar p) (rest : Bytes) :
    next (encode p ++ rest) = (p, (encode p).length) := by
  have hp : p < 0x110000 := by unfold IsScalar at h; omega
  unfold encode
  split_ifs with h1 h2 h3
  · have hl : Lead.ofByte? p.toUInt8 = some ⟨0, 0x80, 0xBF, p⟩ := by
      rw [ofByte?_toUInt8 (by omega), if_pos h1]
    exact next_of_lead hl (continuation_zero _ _ _ _)
  · have e : p / 64 * 64 + p % 64 = p := by omega
    refine next_of_lead (lead_two (by omega) h2) (continuation_tail (by omega) ?_)
    rw [continuation_zero, e]; rfl
  · obtain ⟨low, high, hl, h4, h5⟩ := lead_three (by omega) h3 h
    have e : (p / 4096 * 64 + p / 64 % 64) * 64 + p % 64 = p := by omega
    refine next_of_lead hl (continuation_bits (by omega) h4 h5 (continuation_tail (by omega) ?_))
    rw [continuation_zero, e]; rfl
  · obtain ⟨low, high, hl, h4, h5⟩ := lead_four (by omega) hp
    have e : ((p / 262144 * 64 + p / 4096 % 64) * 64 + p / 64 % 64) * 64 + p % 64 = p := by omega
    refine next_of_lead hl (continuation_bits (by omega) h4 h5
      (continuation_tail (by omega) (continuation_tail (by omega) ?_)))
    rw [continuation_zero, e]; rfl

lemma continuation_inv {n value : Nat} {low high : UInt8} {s : Bytes} {count point : Nat}
    (hl : 0x80 ≤ low.toNat) (hh : high.toNat ≤ 0xBF)
    (h : continuation (n + 1) low high value s = (count, some point)) :
    ∃ bits rest count', s = (0x80 + bits).toUInt8 :: rest ∧ bits < 64 ∧
      low.toNat ≤ 0x80 + bits ∧ 0x80 + bits ≤ high.toNat ∧ count = count' + 1 ∧
      continuation n 0x80 0xBF (value * 64 + bits) rest = (count', some point) := by
  cases s with
  | nil => simp [continuation] at h
  | cons b rest =>
    simp only [continuation] at h
    split_ifs at h with hr
    · rw [UInt8.le_iff_toNat_le, UInt8.le_iff_toNat_le] at hr
      rcases hc : continuation n 0x80 0xBF (value * 64 + b.toNat % 64) rest with ⟨count', result⟩
      rw [hc] at h
      simp only [Prod.mk.injEq] at h
      have hb : 0x80 + b.toNat % 64 = b.toNat := by omega
      refine ⟨b.toNat % 64, rest, count', ?_, by omega, by omega, by omega, h.1.symm, ?_⟩
      · rw [hb]; simp
      · rw [hc, h.2]
    · simp at h

lemma continuation_tail_inv {n value : Nat} {s : Bytes} {count point : Nat}
    (h : continuation (n + 1) 0x80 0xBF value s = (count, some point)) :
    ∃ bits rest count', s = (0x80 + bits).toUInt8 :: rest ∧ bits < 64 ∧ count = count' + 1 ∧
      continuation n 0x80 0xBF (value * 64 + bits) rest = (count', some point) := by
  obtain ⟨bits, rest, count', hs, hb, -, -, hc, h⟩ := continuation_inv (by decide) (by decide) h
  exact ⟨bits, rest, count', hs, hb, hc, h⟩

lemma continuation_zero_inv {value : Nat} {low high : UInt8} {s : Bytes} {count point : Nat}
    (h : continuation 0 low high value s = (count, some point)) : count = 0 ∧ point = value := by
  rw [continuation_zero] at h
  simp only [Prod.mk.injEq, Option.some.injEq] at h
  exact ⟨h.1.symm, h.2.symm⟩

lemma encode_two {v x : Nat} (hv : 2 ≤ v) (hv' : v < 32) (hx : x < 64) :
    encode (v * 64 + x) = [(0xC0 + v).toUInt8, (0x80 + x).toUInt8] := by
  have e1 : (v * 64 + x) / 64 = v := by omega
  have e2 : (v * 64 + x) % 64 = x := by omega
  rw [encode, if_neg (by omega), if_pos (by omega), e1, e2]

lemma encode_three {v x y : Nat} (hv : v < 16) (hx : x < 64) (hy : y < 64)
    (h : v = 0 → 0x20 ≤ x) : encode ((v * 64 + x) * 64 + y) =
      [(0xE0 + v).toUInt8, (0x80 + x).toUInt8, (0x80 + y).toUInt8] := by
  have e1 : ((v * 64 + x) * 64 + y) / 4096 = v := by omega
  have e2 : ((v * 64 + x) * 64 + y) / 64 % 64 = x := by omega
  have e3 : ((v * 64 + x) * 64 + y) % 64 = y := by omega
  rw [encode, if_neg (by omega), if_neg (by omega), if_pos (by omega), e1, e2, e3]

lemma encode_four {v x y z : Nat} (hx : x < 64) (hy : y < 64) (hz : z < 64)
    (h : v = 0 → 0x10 ≤ x) : encode (((v * 64 + x) * 64 + y) * 64 + z) =
      [(0xF0 + v).toUInt8, (0x80 + x).toUInt8, (0x80 + y).toUInt8, (0x80 + z).toUInt8] := by
  have e1 : (((v * 64 + x) * 64 + y) * 64 + z) / 262144 = v := by omega
  have e2 : (((v * 64 + x) * 64 + y) * 64 + z) / 4096 % 64 = x := by omega
  have e3 : (((v * 64 + x) * 64 + y) * 64 + z) / 64 % 64 = y := by omega
  have e4 : (((v * 64 + x) * 64 + y) * 64 + z) % 64 = z := by omega
  rw [encode, if_neg (by omega), if_neg (by omega), if_neg (by omega), e1, e2, e3, e4]

lemma encode_of_two {v point count : Nat} {rest : Bytes} (hv : 2 ≤ v) (hv' : v < 32)
    (h : continuation 1 0x80 0xBF v rest = (count, some point)) :
    IsScalar point ∧ ∃ tail, (0xC0 + v).toUInt8 :: rest = encode point ++ tail ∧
      count + 1 = (encode point).length := by
  obtain ⟨x, s, c, rfl, hx, rfl, h1⟩ := continuation_tail_inv h
  obtain ⟨rfl, rfl⟩ := continuation_zero_inv h1
  have hscalar : IsScalar (v * 64 + x) := by unfold IsScalar; omega
  exact ⟨hscalar, s, by rw [encode_two hv hv' hx]; simp, by rw [encode_two hv hv' hx]; simp⟩

lemma encode_of_three {v point count : Nat} {low high : UInt8} {rest : Bytes} (hv : v < 16)
    (hl : 0x80 ≤ low.toNat) (hh : high.toNat ≤ 0xBF) (h0 : v = 0 → 0xA0 ≤ low.toNat)
    (hs : v = 0x0D → high.toNat ≤ 0x9F)
    (h : continuation 2 low high v rest = (count, some point)) :
    IsScalar point ∧ ∃ tail, (0xE0 + v).toUInt8 :: rest = encode point ++ tail ∧
      count + 1 = (encode point).length := by
  obtain ⟨x, s, c, rfl, hx, hx1, hx2, rfl, h1⟩ := continuation_inv hl hh h
  obtain ⟨y, s, c, rfl, hy, rfl, h2⟩ := continuation_tail_inv h1
  obtain ⟨rfl, rfl⟩ := continuation_zero_inv h2
  have e := encode_three hv hx hy (by omega)
  have hscalar : IsScalar ((v * 64 + x) * 64 + y) := by unfold IsScalar; omega
  exact ⟨hscalar, s, by rw [e]; simp, by rw [e]; simp⟩

lemma encode_of_four {v point count : Nat} {low high : UInt8} {rest : Bytes} (hv : v ≤ 4)
    (hl : 0x80 ≤ low.toNat) (hh : high.toNat ≤ 0xBF) (h0 : v = 0 → 0x90 ≤ low.toNat)
    (h4 : v = 4 → high.toNat ≤ 0x8F) (h : continuation 3 low high v rest = (count, some point)) :
    IsScalar point ∧ ∃ tail, (0xF0 + v).toUInt8 :: rest = encode point ++ tail ∧
      count + 1 = (encode point).length := by
  obtain ⟨x, s, c, rfl, hx, hx1, hx2, rfl, h1⟩ := continuation_inv hl hh h
  obtain ⟨y, s, c, rfl, hy, rfl, h2⟩ := continuation_tail_inv h1
  obtain ⟨z, s, c, rfl, hz, rfl, h3⟩ := continuation_tail_inv h2
  obtain ⟨rfl, rfl⟩ := continuation_zero_inv h3
  have e := encode_four (v := v) hx hy hz (by omega)
  have hscalar : IsScalar (((v * 64 + x) * 64 + y) * 64 + z) := by unfold IsScalar; omega
  exact ⟨hscalar, s, by rw [e]; simp, by rw [e]; simp⟩

lemma sequence_of_lead {b : UInt8} {n bits : Nat} {low high : UInt8} {rest : Bytes}
    (hl : Lead.ofByte? b = some ⟨n, low, high, bits⟩) :
    sequence b rest = continuation n low high bits rest := by
  simp only [sequence, hl]

lemma encode_of_sequence {b : UInt8} {rest : Bytes} {count point : Nat}
    (h : sequence b rest = (count, some point)) :
    IsScalar point ∧ ∃ tail, b :: rest = encode point ++ tail ∧ count + 1 = (encode point).length := by
  obtain ⟨n, hn, rfl⟩ : ∃ n, n < 256 ∧ b = n.toUInt8 := ⟨b.toNat, UInt8.toNat_lt b, by simp⟩
  have hl := ofByte?_toUInt8 hn
  -- one case for each row of the table of lead bytes
  by_cases c1 : n < 0x80
  · rw [if_pos c1] at hl
    rw [sequence_of_lead hl] at h
    obtain ⟨rfl, rfl⟩ := continuation_zero_inv h
    exact ⟨.inl (by omega), rest, by simp [encode, c1], by simp [encode, c1]⟩
  rw [if_neg c1] at hl
  by_cases c2 : n < 0xC2
  · rw [if_pos c2] at hl
    simp [sequence, hl] at h
  rw [if_neg c2] at hl
  by_cases c3 : n < 0xE0
  · rw [if_pos c3] at hl
    rw [sequence_of_lead hl] at h
    rw [show n = 0xC0 + n % 0x20 by omega]
    exact encode_of_two (by omega) (by omega) h
  rw [if_neg c3] at hl
  by_cases c4 : n = 0xE0
  · rw [if_pos c4] at hl
    rw [sequence_of_lead hl] at h
    rw [c4]
    exact encode_of_three (v := 0) (by omega) (by decide) (by decide) (fun _ => by decide)
      (fun h => by omega) h
  rw [if_neg c4] at hl
  by_cases c5 : n = 0xED
  · rw [if_pos c5] at hl
    rw [sequence_of_lead hl] at h
    rw [c5]
    exact encode_of_three (v := 0x0D) (by omega) (by decide) (by decide) (fun h => by omega)
      (fun _ => by decide) h
  rw [if_neg c5] at hl
  by_cases c6 : n < 0xF0
  · rw [if_pos c6] at hl
    rw [sequence_of_lead hl] at h
    rw [show n = 0xE0 + n % 0x10 by omega]
    exact encode_of_three (by omega) (by decide) (by decide) (fun h => by omega)
      (fun h => by omega) h
  rw [if_neg c6] at hl
  by_cases c7 : n = 0xF0
  · rw [if_pos c7] at hl
    rw [sequence_of_lead hl] at h
    rw [c7]
    exact encode_of_four (v := 0) (by omega) (by decide) (by decide) (fun _ => by decide)
      (fun h => by omega) h
  rw [if_neg c7] at hl
  by_cases c8 : n < 0xF4
  · rw [if_pos c8] at hl
    rw [sequence_of_lead hl] at h
    rw [show n = 0xF0 + n % 0x08 by omega]
    exact encode_of_four (by omega) (by decide) (by decide) (fun h => by omega)
      (fun h => by omega) h
  rw [if_neg c8] at hl
  by_cases c9 : n = 0xF4
  · rw [if_pos c9] at hl
    rw [sequence_of_lead hl] at h
    rw [c9]
    exact encode_of_four (v := 4) (by omega) (by decide) (by decide) (fun h => by omega)
      (fun _ => by decide) h
  · rw [if_neg c9] at hl
    simp [sequence, hl] at h

/-- A character that is not the replacement for something ill-formed stands in the text. -/
theorem encode_of_next {s : Bytes} {point size : Nat} (h : next s = (point, size))
    (hp : point ≠ replacement) :
    ∃ tail, s = encode point ++ tail ∧ size = (encode point).length := by
  cases s with
  | nil => simp only [next, Prod.mk.injEq] at h; exact absurd h.1.symm hp
  | cons b rest =>
    rcases hs : sequence b rest with ⟨count, _ | q⟩
    · simp only [next, hs, Prod.mk.injEq] at h; exact absurd h.1.symm hp
    · simp only [next, hs, Prod.mk.injEq] at h
      obtain ⟨rfl, rfl⟩ := h
      exact (encode_of_sequence hs).2

lemma next_ascii {b : UInt8} (h : b < 0x80) (rest : Bytes) : next (b :: rest) = (b.toNat, 1) := by
  have hb : b.toNat < 0x80 := UInt8.lt_iff_toNat_lt.1 h
  have he : encode b.toNat = [b] := by simp [encode, hb]
  have := next_encode (p := b.toNat) (.inl (by omega)) rest
  rwa [he] at this

/-! ### Well-formed texts -/

lemma points_encode {p : Nat} (h : IsScalar p) (s : Bytes) :
    points (encode p ++ s) = (p, encode p) :: points s := by
  obtain ⟨b, tail, hb⟩ := List.exists_cons_of_ne_nil (encode_ne_nil p)
  have hnext := next_encode h s
  rw [hb, List.cons_append] at hnext ⊢
  rw [points, hnext]
  simp

@[elab_as_elim]
lemma isValid_induction {motive : Bytes → Prop} {s : Bytes} (h : isValid s = true)
    (nil : motive []) (cons : ∀ p s, IsScalar p → motive s → motive (encode p ++ s)) :
    motive s := by
  induction hn : s.length using Nat.strongRecOn generalizing s with
  | _ n ih =>
    cases s with
    | nil => exact nil
    | cons b rest =>
      rw [isValid] at h
      split at h
      · rename_i count point hseq
        obtain ⟨hscalar, tail, htail, hcount⟩ := encode_of_sequence hseq
        have hdrop : rest.drop count = tail := by
          have := congrArg (List.drop (count + 1)) htail
          rwa [List.drop_succ_cons, hcount, List.drop_left] at this
        rw [hdrop] at h
        rw [htail]
        refine cons point tail hscalar (ih tail.length ?_ h rfl)
        have hlen := congrArg List.length htail
        rw [List.length_append, ← hcount] at hlen
        omega
      · cases h

end Utf8

namespace CodePoint

open StateBuffer.Utf8

lemma isScalar_of_isSpace {p : Nat} (h : isSpace p = true) : IsScalar p := by
  simp only [isSpace, Bool.or_eq_true, Bool.and_eq_true, decide_eq_true_eq, beq_iff_eq] at h
  unfold IsScalar
  omega

lemma scalar_of_inRanges {ranges : Array (Nat × Nat)} {p : Nat}
    (hr : ∀ r ∈ ranges.toList, IsScalarRange r) (h : inRanges ranges p = true) :
    IsScalar p ∧ p ≠ replacement := by
  simp only [inRanges, Array.any_eq_true', Bool.and_eq_true, decide_eq_true_eq] at h
  obtain ⟨r, hmem, h1, h2⟩ := h
  have := hr r (Array.mem_toList_iff.2 hmem)
  unfold IsScalarRange at this
  unfold IsScalar replacement
  omega

lemma scalar_of_isLetter [Edition] {p : Nat} (h : isLetter p = true) :
    IsScalar p ∧ p ≠ replacement := by
  unfold isLetter at h
  split_ifs at h with hp
  · unfold IsScalar replacement; omega
  · exact scalar_of_inRanges Edition.letters_scalar h

lemma scalar_of_isDigit [Edition] {p : Nat} (h : isDigit p = true) :
    IsScalar p ∧ p ≠ replacement := by
  unfold isDigit at h
  split_ifs at h with hp
  · unfold IsScalar replacement; omega
  · exact scalar_of_inRanges Edition.digits_scalar h

end CodePoint

end StateBuffer
