import Mathlib.Data.Nat.Init
import Mathlib.Tactic.SplitIfs
import StateBuffer.Text.Integer

/-!
Numbers in decimal. A number is written in digits only and without leading zeros, so different
numbers are written differently, and reading gives the number back.
-/

namespace StateBuffer

namespace Bytes

def digit (d : Nat) : UInt8 := byte (Nat.digitChar d)

lemma isDigit_digit {d : Nat} (h : d < 10) : isDigit (digit d) = true := by
  have hall : ∀ d < 10, isDigit (digit d) = true := by decide
  exact hall d h

lemma digit_toNat {d : Nat} (h : d < 10) : (digit d).toNat = 0x30 + d := by
  have hall : ∀ d < 10, (digit d).toNat = 0x30 + d := by decide
  exact hall d h

lemma ofNat_of_lt {n : Nat} (h : n < 10) : ofNat n = [digit n] := by
  rw [ofNat, Nat.toDigits_of_lt_base h]
  rfl

lemma ofNat_of_le {n : Nat} (h : 10 ≤ n) : ofNat n = ofNat (n / 10) ++ [digit (n % 10)] := by
  rw [ofNat, Nat.toDigits_of_base_le (by decide) h, List.map_append]
  rfl

@[elab_as_elim]
lemma numeral_induction {motive : Nat → Prop} (one : ∀ n < 10, motive n)
    (more : ∀ n, 10 ≤ n → motive (n / 10) → motive n) (n : Nat) : motive n := by
  induction n using Nat.strongRecOn with
  | ind n ih =>
    rcases Nat.lt_or_ge n 10 with h | h
    · exact one n h
    · exact more n h (ih (n / 10) (by omega))

lemma isDigit_of_mem_ofNat {n : Nat} {b : UInt8} (h : b ∈ ofNat n) : isDigit b = true := by
  induction n using numeral_induction with
  | one n hn =>
    rw [ofNat_of_lt hn, List.mem_singleton] at h
    rw [h]
    exact isDigit_digit hn
  | more n hn ih =>
    rw [ofNat_of_le hn, List.mem_append, List.mem_singleton] at h
    rcases h with h | rfl
    · exact ih h
    · exact isDigit_digit (Nat.mod_lt n (by decide))

lemma ofNat_ne_nil (n : Nat) : ofNat n ≠ [] := by
  simp [ofNat, Nat.toDigits_ne_nil]

lemma head?_ofNat {n : Nat} (h : n ≠ 0) : (ofNat n).head? ≠ some 0x30 := by
  induction n using numeral_induction with
  | one n hn =>
    rw [ofNat_of_lt hn]
    have hall : ∀ d < 10, d ≠ 0 → [digit d].head? ≠ some 0x30 := by decide
    exact hall n hn h
  | more n hn ih =>
    obtain ⟨b, rest, hb⟩ := List.exists_cons_of_ne_nil (ofNat_ne_nil (n / 10))
    have hhead := ih (by omega)
    rw [hb] at hhead
    rwa [ofNat_of_le hn, hb]

lemma digitsValue_append (s : Bytes) (b : UInt8) :
    digitsValue (s ++ [b]) = digitsValue s * 10 + (b.toNat - 0x30) := by
  simp [digitsValue]

lemma digitsValue_ofNat (n : Nat) : digitsValue (ofNat n) = n := by
  induction n using numeral_induction with
  | one n hn =>
    rw [ofNat_of_lt hn]
    simp [digitsValue, digit_toNat hn]
  | more n hn ih =>
    rw [ofNat_of_le hn, digitsValue_append, ih, digit_toNat (Nat.mod_lt n (by decide))]
    omega

lemma ofNat_inj {m n : Nat} (h : ofNat m = ofNat n) : m = n := by
  rw [← digitsValue_ofNat m, h, digitsValue_ofNat]

end Bytes

/-! ### Reading -/

namespace Integer

lemma digits_append (base value : Nat) (s t : Bytes) :
    digits base value (s ++ t) = digits base value s >>= fun v => digits base v t := by
  induction s generalizing value with
  | nil => rfl
  | cons b s ih =>
    simp only [List.cons_append, digits]
    split_ifs with h1
    · exact ih value
    · cases Bytes.hexDigit? b with
      | none => rfl
      | some d =>
        simp only
        split_ifs with h2 h3
        · rfl
        · rfl
        · exact ih _

lemma digits_digit {value d : Nat} (hd : d < 10) (h : value * 10 + d < 18446744073709551616) :
    digits 10 value [Bytes.digit d] = .ok (value * 10 + d) := by
  have hall : ∀ d < 10, Bytes.digit d ≠ 0x5F ∧ Bytes.hexDigit? (Bytes.digit d) = some d := by
    decide
  obtain ⟨h1, h2⟩ := hall d hd
  simp only [digits, if_neg h1, h2, if_neg (Nat.not_le.2 hd), if_neg (Nat.not_le.2 h)]

lemma digits_ofNat {n : Nat} (h : n < 18446744073709551616) :
    digits 10 0 (Bytes.ofNat n) = .ok n := by
  induction n using Bytes.numeral_induction with
  | one n hn =>
    rw [Bytes.ofNat_of_lt hn, digits_digit hn (by omega)]
    simp
  | more n hn ih =>
    rw [Bytes.ofNat_of_le hn, digits_append, ih (by omega)]
    show digits 10 (n / 10) _ = _
    rw [digits_digit (Nat.mod_lt n (by decide)) (by omega)]
    congr 1
    omega

lemma split_of_head {s : Bytes} (h : s.head? ≠ some 0x30) : split s = (10, s) := by
  unfold split
  split
  · simp at h
  · simp at h
  · rfl

lemma magnitude_ofNat {n : Nat} (h : n < 18446744073709551616) :
    magnitude (Bytes.ofNat n) = .ok n := by
  have hempty : (Bytes.ofNat n).isEmpty = false := by
    simpa using Bytes.ofNat_ne_nil n
  have hplain : (Bytes.ofNat n).contains 0x5F = false := by
    rw [← Bool.not_eq_true, List.contains_iff_mem]
    intro hmem
    exact absurd (Bytes.isDigit_of_mem_ofNat hmem) (by decide)
  rcases Nat.eq_zero_or_pos n with rfl | hn
  · rfl
  · simp only [magnitude, hempty, split_of_head (Bytes.head?_ofNat (Nat.ne_of_gt hn)),
      digits_ofNat h, hplain]
    rfl

/-- **A number that is written out** reads as itself. -/
theorem ofText_ofNat {n : Nat} (h : n < 9223372036854775808) :
    ofText (Bytes.ofNat n) = .ok (n : Int) := by
  obtain ⟨b, rest, hb⟩ := List.exists_cons_of_ne_nil (Bytes.ofNat_ne_nil n)
  have hdigit : Bytes.isDigit b = true := Bytes.isDigit_of_mem_ofNat (n := n) (by rw [hb]; simp)
  have hm := magnitude_ofNat (n := n) (by omega)
  rw [hb] at hm ⊢
  have h1 : b ≠ 0x2D := by
    rintro rfl
    simp [Bytes.isDigit] at hdigit
  have h2 : b ≠ 0x2B := by
    rintro rfl
    simp [Bytes.isDigit] at hdigit
  unfold ofText
  split
  rename_i negative body hsign
  split at hsign
  · rename_i he
    exact absurd (List.cons.inj he).1 h1
  · rename_i he
    exact absurd (List.cons.inj he).1 h2
  · obtain ⟨rfl, rfl⟩ := Prod.mk.inj hsign
    rw [hm]
    exact if_neg (Nat.not_le.2 h)

end Integer

end StateBuffer
