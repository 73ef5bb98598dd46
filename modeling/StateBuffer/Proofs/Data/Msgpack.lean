import Mathlib.Tactic.Ring
import StateBuffer.Data.Msgpack
import StateBuffer.Proofs.Text.Encoding

/-!
Reading back what was written as MessagePack. What is promised of an implementation is one law for
each writer: its reader gives the value and leaves what follows. Structures are then read back as
their values are. The implementation by the format keeps the laws, with headers of texts and maps at
every length below `2 ^ 32`.
-/

namespace StateBuffer

namespace Msgpack

open Utf8 (toNat_toUInt8)

/-! ### Numbers -/

lemma take?_append (s rest : Bytes) : take? s.length (s ++ rest) = some (s, rest) := by
  simp [take?]

lemma length_bigEndian (size n : Nat) : (bigEndian size n).length = size := by
  induction size with
  | zero => rfl
  | succ size ih => rw [bigEndian, List.length_cons, ih]

lemma foldl_bigEndian (size n before : Nat) :
    (bigEndian size n).foldl (fun v b => v * 256 + b.toNat) before =
      before * 256 ^ size + n % 256 ^ size := by
  induction size generalizing before with
  | zero => simp [bigEndian, Nat.mod_one]
  | succ size ih =>
    have hbyte : (n / Nat.pow 256 size).toUInt8.toNat = n / 256 ^ size % 256 := rfl
    rw [bigEndian, List.foldl_cons, ih, hbyte]
    calc (before * 256 + n / 256 ^ size % 256) * 256 ^ size + n % 256 ^ size
        = before * 256 ^ (size + 1) + (n % 256 ^ size + 256 ^ size * (n / 256 ^ size % 256)) := by
          ring
      _ = before * 256 ^ (size + 1) + n % 256 ^ (size + 1) := by
          rw [← Nat.mod_pow_succ]

lemma number?_bigEndian {size n : Nat} (h : n < 256 ^ size) (rest : Bytes) :
    number? size (bigEndian size n ++ rest) = some (n, rest) := by
  have htake : take? size (bigEndian size n ++ rest) = some (bigEndian size n, rest) := by
    have := take?_append (bigEndian size n) rest
    rwa [length_bigEndian] at this
  have hvalue := foldl_bigEndian size n 0
  rw [Nat.zero_mul, Nat.zero_add, Nat.mod_eq_of_lt h] at hvalue
  simp only [number?, htake, bind, Option.bind_some, pure, hvalue]

lemma integer?_writeUInt16 (n : UInt16) (rest : Bytes) :
    integer? (writeUInt16 n ++ rest) = some ((n.toNat : Int), rest) := by
  have hread : number? 2 (bigEndian 2 n.toNat ++ rest) = some (n.toNat, rest) :=
    number?_bigEndian n.toNat_lt rest
  show (number? 2 (bigEndian 2 n.toNat ++ rest)).map (fun x => ((x.1 : Int), x.2)) = _
  rw [hread]
  rfl

lemma integer?_writeUInt32 (n : UInt32) (rest : Bytes) :
    integer? (writeUInt32 n ++ rest) = some ((n.toNat : Int), rest) := by
  have hread : number? 4 (bigEndian 4 n.toNat ++ rest) = some (n.toNat, rest) :=
    number?_bigEndian n.toNat_lt rest
  show (number? 4 (bigEndian 4 n.toNat ++ rest)).map (fun x => ((x.1 : Int), x.2)) = _
  rw [hread]
  rfl

/-! ### Texts and maps -/

-- a length that stands in the first byte itself
lemma toNat_fixed {b n : Nat} (h : b + n < 0xC0) :
    (b + n).toUInt8.toNat = b + n ∧ (b + n).toUInt8 ≠ 0xC0 := by
  have hbyte : (b + n).toUInt8.toNat = b + n := toNat_toUInt8 (by omega)
  refine ⟨hbyte, fun heq => ?_⟩
  rw [heq] at hbyte
  simp only [UInt8.reduceToNat] at hbyte
  omega

lemma text?_of_header {c : UInt8} {header s rest : Bytes}
    (h : textLength? c (header ++ (s ++ rest)) = some (s.length, s ++ rest)) :
    text? (c :: header ++ s ++ rest) = some (s, rest) := by
  rw [List.cons_append, List.cons_append, List.append_assoc, text?]
  simp only [h, bind, Option.bind_some, take?_append]

lemma text?_writeText {s : Bytes} (h : s.length < 2 ^ 32) (rest : Bytes) :
    text? (writeText s ++ rest) = some (s, rest) := by
  unfold writeText
  split_ifs with h1 h2 h3
  · refine text?_of_header ?_
    obtain ⟨hbyte, hnil⟩ := toNat_fixed (b := 0xA0) (n := s.length) (by omega)
    have hfix : 0xA0 ≤ (0xA0 + s.length).toUInt8 ∧ (0xA0 + s.length).toUInt8 ≤ 0xBF := by
      rw [UInt8.le_iff_toNat_le, UInt8.le_iff_toNat_le, hbyte]
      simp only [UInt8.reduceToNat]
      omega
    rw [textLength?, if_neg hnil, if_pos hfix, hbyte]
    simp
  · refine text?_of_header ?_
    show number? 1 _ = _
    exact number?_bigEndian (by omega) (s ++ rest)
  · refine text?_of_header ?_
    show number? 2 _ = _
    exact number?_bigEndian (by omega) (s ++ rest)
  · refine text?_of_header ?_
    show number? 4 _ = _
    exact number?_bigEndian (by omega) (s ++ rest)

lemma mapLength?_writeMapHeader {n : Nat} (h : n < 2 ^ 32) (rest : Bytes) :
    ∃ c header, writeMapHeader n = c :: header ∧ isExtension c = false ∧
      mapLength? c (header ++ rest) = some (some n, rest) := by
  unfold writeMapHeader
  split_ifs with h1 h2
  · obtain ⟨hbyte, hnil⟩ := toNat_fixed (b := 0x80) (n := n) (by omega)
    have hfix : 0x80 ≤ (0x80 + n).toUInt8 ∧ (0x80 + n).toUInt8 ≤ 0x8F := by
      rw [UInt8.le_iff_toNat_le, UInt8.le_iff_toNat_le, hbyte]
      simp only [UInt8.reduceToNat]
      omega
    refine ⟨_, [], rfl, ?_, ?_⟩
    · simp only [isExtension, Bool.or_eq_false_iff, Bool.and_eq_false_iff, decide_eq_false_iff_not,
        UInt8.le_iff_toNat_le, hbyte, UInt8.reduceToNat]
      omega
    · rw [mapLength?, if_neg hnil, if_pos hfix, hbyte]
      simp
  · refine ⟨0xDE, _, rfl, rfl, ?_⟩
    show (number? 2 (bigEndian 2 n ++ rest)).map (fun x => (some x.1, x.2)) = _
    rw [number?_bigEndian (by omega) rest]
    rfl
  · refine ⟨0xDF, _, rfl, rfl, ?_⟩
    show (number? 4 (bigEndian 4 n ++ rest)).map (fun x => (some x.1, x.2)) = _
    rw [number?_bigEndian (by omega) rest]
    rfl

lemma mapHeader?_writeMapHeader {n : Nat} (h : n < 2 ^ 32) (rest : Bytes) :
    mapHeader? (writeMapHeader n ++ rest) = some (some n, rest) := by
  obtain ⟨c, header, hc, hplain, hlength⟩ := mapLength?_writeMapHeader h rest
  rw [hc, List.cons_append, mapHeader?, hplain, if_neg Bool.false_ne_true, hlength]

lemma nil?_writeMapHeader {n : Nat} (h : n < 2 ^ 32) (rest : Bytes) :
    nil? (writeMapHeader n ++ rest) = none := by
  obtain ⟨c, header, hc, -, hlength⟩ := mapLength?_writeMapHeader h rest
  rw [hc, List.cons_append]
  have hnil : c ≠ 0xC0 := by
    rintro rfl
    simp [mapLength?] at hlength
  unfold nil?
  split
  · rename_i heq
    exact absurd (List.cons.inj heq).1 hnil
  · rfl

lemma shape?_writeMapHeader {n : Nat} (h : n < 2 ^ 32) (rest : Bytes) :
    shape? (writeMapHeader n ++ rest) = some (.named n, rest) := by
  obtain ⟨c, header, hc, -, hlength⟩ := mapLength?_writeMapHeader h rest
  rw [hc, List.cons_append, shape?, hlength]

/-! ### Laws of an implementation -/

namespace Wire

/-- What the format promises: every reader gives the value that was written and leaves what follows
alone. A map is a map to whoever reads it, and is not nil; nil stands for no map. -/
structure Lawful (w : Wire) : Prop where
  uint16 : ∀ (n : UInt16) (rest : Bytes),
    w.integer? (w.writeUInt16 n ++ rest) = some ((n.toNat : Int), rest)
  uint32 : ∀ (n : UInt32) (rest : Bytes),
    w.integer? (w.writeUInt32 n ++ rest) = some ((n.toNat : Int), rest)
  text : ∀ {s : Bytes}, s.length < 2 ^ 32 → ∀ rest, w.text? (w.writeText s ++ rest) = some (s, rest)
  map : ∀ {n : Nat}, n < 2 ^ 32 → ∀ rest,
    w.mapHeader? (w.writeMapHeader n ++ rest) = some (some n, rest)
  shape : ∀ {n : Nat}, n < 2 ^ 32 → ∀ rest,
    w.shape? (w.writeMapHeader n ++ rest) = some (.named n, rest)
  present : ∀ {n : Nat}, n < 2 ^ 32 → ∀ rest, w.nil? (w.writeMapHeader n ++ rest) = none
  absent : ∀ rest, w.mapHeader? (w.writeNil ++ rest) = some (none, rest)

end Wire

/-- **The implementation by the format** keeps the laws. -/
theorem Wire.standard_lawful : standard.Lawful where
  uint16 := integer?_writeUInt16
  uint32 := integer?_writeUInt32
  text := text?_writeText
  map := mapHeader?_writeMapHeader
  shape := shape?_writeMapHeader
  present := nil?_writeMapHeader
  absent _ := rfl

/-! ### Structures -/

namespace Wire

section Structures

variable {w : Wire} (hw : w.Lawful) {σ : Type} {names : List Bytes}
  {field : Bytes → σ → Option (Bytes → Option (σ × Bytes))}

include hw

lemma named?_field {name value rest : Bytes} {state state' : σ}
    {read : Bytes → Option (σ × Bytes)} (hname : name.length < 2 ^ 32)
    (hfield : field name state = some read) (hread : read (value ++ rest) = some (state', rest))
    (count : Nat) :
    w.named? field (count + 1) state (w.writeText name ++ (value ++ rest)) =
      w.named? field count state' rest := by
  rw [named?, hw.text hname]
  simp only [bind, Option.bind_some, hfield, hread]

/-- **A structure of two fields** is read back when their values are. -/
lemma struct?_pair {first second a b rest : Bytes} {zero state state'' : σ} (state' : σ)
    {readFirst readSecond : Bytes → Option (σ × Bytes)}
    (hfirst : first.length < 2 ^ 32) (hsecond : second.length < 2 ^ 32)
    (hfield : field first state = some readFirst) (hfield' : field second state' = some readSecond)
    (ha : ∀ rest, readFirst (a ++ rest) = some (state', rest))
    (hb : ∀ rest, readSecond (b ++ rest) = some (state'', rest)) :
    w.struct? names field zero state
        (w.writeMapHeader 2 ++ (w.writeText first ++ (a ++ (w.writeText second ++ (b ++ rest))))) =
      some (state'', rest) := by
  have hshape := hw.shape (n := 2) (by decide)
    (w.writeText first ++ (a ++ (w.writeText second ++ (b ++ rest))))
  simp only [struct?, hshape, bind, Option.bind_some]
  rw [named?_field hw hfirst hfield (ha _), named?_field hw hsecond hfield' (hb rest), named?]

end Structures

end Wire

end Msgpack

end StateBuffer
