import Mathlib.Data.Nat.Digits.Defs
import StateBuffer.Machine.Basic

/-!
Memory as bytes. An integer of 32 bits takes four bytes, the least significant first, reading gives
back what was stored, and storing leaves the bytes around it alone.
-/

namespace StateBuffer

namespace Memory

def cell (memory : Bytes) (offset : Nat) : Bytes := (memory.drop offset).take 4

/-! ### Four bytes -/

@[simp] lemma length_encode32 (v : Int32) : (encode32 v).length = 4 := rfl

lemma ofDigits_encode32 (v : Int32) :
    Nat.ofDigits 256 ((encode32 v).map UInt8.toNat) = v.toUInt32.toNat := by
  have hlt : v.toUInt32.toNat < 2 ^ 32 := v.toUInt32.toNat_lt
  simp only [encode32, List.map_cons, List.map_nil, Nat.ofDigits_cons, Nat.ofDigits_nil,
    UInt8.toNat_ofNat']
  omega

lemma decode32_eq (bytes : Bytes) :
    decode32 bytes = (Nat.ofDigits 256 (bytes.map UInt8.toNat)).toUInt32.toInt32 := by
  have hbits : bytes.foldr (fun b n => n * 256 + b.toNat) 0 =
      Nat.ofDigits 256 (bytes.map UInt8.toNat) := by
    induction bytes with
    | nil => rfl
    | cons b bytes ih =>
      rw [List.foldr_cons, ih, List.map_cons, Nat.ofDigits_cons]
      omega
  rw [decode32, hbits]

/-- **Reading gives back** what was stored. -/
lemma decode32_encode32 (v : Int32) : decode32 (encode32 v) = v := by
  rw [decode32_eq, ofDigits_encode32]
  simp

lemma ofDigits_encode32_ofInt (i : Int) :
    Nat.ofDigits 256 ((encode32 (Int32.ofInt i)).map UInt8.toNat) = (i % 2 ^ 32).toNat := by
  rw [ofDigits_encode32]
  exact BitVec.toNat_ofInt i

/-- The four bytes at an offset are those of this integer of 32 bits in two's complement, the least
significant first. -/
structure Holds (memory : Bytes) (offset : Nat) (i : Int) : Prop where
  fits : -2 ^ 31 ≤ i ∧ i < 2 ^ 31
  length : (cell memory offset).length = 4
  digits : Nat.ofDigits 256 ((cell memory offset).map UInt8.toNat) = (i % 2 ^ 32).toNat

lemma holds_of_cell {memory : Bytes} {offset : Nat} {i : Int} (hfits : -2 ^ 31 ≤ i ∧ i < 2 ^ 31)
    (h : cell memory offset = encode32 (Int32.ofInt i)) : Holds memory offset i := by
  refine ⟨hfits, ?_, ?_⟩
  · rw [h, length_encode32]
  · rw [h, ofDigits_encode32_ofInt]

/-! ### Storing -/

section Store

variable {memory : Bytes} {offset : Nat} (h : offset + 4 ≤ memory.length) (v : Int32)

include h

lemma length_store : (store memory offset v).length = memory.length := by
  simp only [store, List.length_append, List.length_take, List.length_drop, length_encode32]
  omega

lemma cell_store : cell (store memory offset v) offset = encode32 v := by
  have hlen : (memory.take offset).length = offset := by simp; omega
  rw [cell, store, List.append_assoc, List.drop_append_of_le_length (by omega),
    List.drop_of_length_le (by omega), List.nil_append, List.take_append_of_le_length (by simp)]
  rfl

lemma cell_store_of_disjoint {other : Nat} (hd : other + 4 ≤ offset ∨ offset + 4 ≤ other) :
    cell (store memory offset v) other = cell memory other := by
  unfold cell store
  rcases hd with hd | hd
  · rw [List.append_assoc, List.drop_append_of_le_length (by simp; omega), List.drop_take,
      List.take_append_of_le_length (by simp; omega), List.take_take, Nat.min_eq_left (by omega)]
  · have hlen : (memory.take offset ++ encode32 v).length = offset + 4 := by simp; omega
    rw [List.drop_append, hlen, List.drop_of_length_le (by omega), List.nil_append, List.drop_drop,
      Nat.add_sub_cancel' hd]

lemma getElem?_store {i : Nat} (hi : i < offset ∨ offset + 4 ≤ i) :
    (store memory offset v)[i]? = memory[i]? := by
  have hlen : (memory.take offset).length = offset := by simp; omega
  rw [store, List.append_assoc]
  rcases hi with hi | hi
  · rw [List.getElem?_append_left (by omega), List.getElem?_take_of_lt hi]
  · rw [List.getElem?_append_right (by omega), List.getElem?_append_right (by simp; omega),
      List.getElem?_drop, hlen, length_encode32]
    congr 1
    omega

end Store

end Memory

end StateBuffer
