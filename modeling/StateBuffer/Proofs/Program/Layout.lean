import Mathlib
import StateBuffer.Program.Codec
import StateBuffer.Proofs.Program.Fields

/-!
Layouts. The check takes the fields in the order of their offsets, and accepts them if each lies in
the buffer and ends before the next one begins. For fields that are not empty this is so exactly if
no two of them share a byte, and no sum or difference computed on the way wraps around. An empty
field that begins where a field that is not empty begins is accepted before it and refused after it,
and nothing settles which of the two is taken first: there the verdict is open.

Fields come in any order, and are then sorted by their offsets. A sort that mixes fields of one
offset makes of one order what the sort here, which keeps them as they come, makes of another.
-/

namespace StateBuffer

/-! ### Places of fields -/

namespace Field

/-- Where a field ends, as a number of any size. -/
def stop (f : Field) : Nat := f.offset.toNat + f.size.toNat

/-- The byte with this index belongs to a field. -/
def Covers (f : Field) (i : Nat) : Prop := f.offset.toNat ≤ i ∧ i < f.stop

/-- One field ends before another begins. -/
def Before (f g : Field) : Prop := f.stop ≤ g.offset.toNat

/-- One of two fields ends before the other begins. -/
def Apart (f g : Field) : Prop := f.Before g ∨ g.Before f

lemma covers_apart_iff {f g : Field} (hf : 0 < f.size) (hg : 0 < g.size) :
    (∀ i, f.Covers i → ¬ g.Covers i) ↔ f.Apart g := by
  have hf' : 0 < f.size.toNat := UInt32.lt_iff_toNat_lt.1 hf
  have hg' : 0 < g.size.toNat := UInt32.lt_iff_toNat_lt.1 hg
  unfold Covers Apart Before stop
  constructor
  · intro h
    -- the first byte of the field that begins last
    have hlast := h (max f.offset.toNat g.offset.toNat)
    omega
  · intro h i
    omega

/-- Of two fields that are apart the one that begins first ends first, unless it begins where an
empty one does. -/
lemma before_of_apart {f g : Field} (hle : f.offset ≤ g.offset) (h : f.Apart g)
    (htie : f.offset = g.offset → g.size = 0 → f.size = 0) : f.Before g := by
  refine h.elim id fun hback => ?_
  have hle' := UInt32.le_iff_toNat_le.1 hle
  unfold Before stop at hback ⊢
  have hoffset : f.offset = g.offset := UInt32.toNat_inj.1 (by omega)
  have hempty : g.size = 0 := UInt32.toNat_inj.1 (show g.size.toNat = 0 by omega)
  rw [htie hoffset hempty, hoffset]
  exact Nat.le_refl _

end Field

namespace Buffer

/-- Every field lies in the buffer. -/
def Fits (b : Buffer) : Prop := ∀ e ∈ b.fields.entries, e.2.stop ≤ b.size.toNat

/-- No two fields share a byte. -/
def IsDisjoint (b : Buffer) : Prop :=
  ∀ e ∈ b.fields.entries, ∀ e' ∈ b.fields.entries, e.1 ≠ e'.1 →
    ∀ i, e.2.Covers i → ¬ e'.2.Covers i

/-- Of any two fields one ends before the other begins. -/
def IsApart (b : Buffer) : Prop :=
  ∀ e ∈ b.fields.entries, ∀ e' ∈ b.fields.entries, e.1 ≠ e'.1 → e.2.Apart e'.2

/-- The fields fit and are apart, but an empty one begins where one that is not empty does. -/
structure IsOpen (b : Buffer) : Prop where
  fits : b.Fits
  apart : b.IsApart
  tie : ∃ e ∈ b.fields.entries, ∃ e' ∈ b.fields.entries,
    e.2.offset = e'.2.offset ∧ e.2.size = 0 ∧ e'.2.size ≠ 0

/-! ### One pass over the fields -/

/-- The sum of two numbers, unless it wraps around. -/
def exactSum? (a b : UInt32) : Option UInt32 :=
  if a.toNat + b.toNat < 2 ^ 32 then some (a + b) else none

/-- The difference of two numbers, unless it wraps around. -/
def exactDifference? (a b : UInt32) : Option UInt32 :=
  if b.toNat ≤ a.toNat then some (a - b) else none

/-- The check with a sum and a difference that break it off when they wrap around. -/
def checkExactly (size stop : UInt32) : List (Bytes × Field) → Option (Except LayoutFault Unit)
  | [] => some (.ok ())
  | (key, f) :: rest =>
    if f.offset < stop then some (.error (.overlap key))
    else if size < f.size then some (.error (.exceeds key size))
    else do
      let room ← exactDifference? size f.size
      if room < f.offset then some (.error (.exceeds key size))
      else do
        let stop ← exactSum? f.offset f.size
        checkExactly size stop rest

section Step

variable {size stop : UInt32} {key : Bytes} {f : Field} {rest : List (Bytes × Field)}

/-- The room beside a field is computed exactly, and leaves enough for its offset exactly if the
field fits. -/
lemma not_exceeds_iff :
    ¬ (size < f.size ∨ size - f.size < f.offset) ↔ f.stop ≤ size.toNat := by
  simp only [UInt32.lt_iff_toNat_lt, Field.stop]
  by_cases h : f.size.toNat ≤ size.toNat
  · rw [UInt32.toNat_sub_of_le _ _ (UInt32.le_iff_toNat_le.2 h)]
    omega
  · omega

lemma toNat_stop (h : f.stop ≤ size.toNat) : (f.offset + f.size).toNat = f.stop := by
  rw [UInt32.toNat_add, Field.stop, Nat.mod_eq_of_lt]
  exact Nat.lt_of_le_of_lt h size.toNat_lt

lemma exactSum?_of_fits (h : f.stop ≤ size.toNat) :
    exactSum? f.offset f.size = some (f.offset + f.size) :=
  if_pos (Nat.lt_of_le_of_lt h size.toNat_lt)

lemma exactDifference?_of_not_lt (h : ¬ size < f.size) :
    exactDifference? size f.size = some (size - f.size) :=
  if_pos (Nat.not_lt.1 fun hlt => h (UInt32.lt_iff_toNat_lt.2 hlt))

lemma checkFrom_cons_iff : checkFrom size stop ((key, f) :: rest) = .ok () ↔
    stop.toNat ≤ f.offset.toNat ∧ f.stop ≤ size.toNat ∧
      checkFrom size (f.offset + f.size) rest = .ok () := by
  rw [checkFrom, ← not_exceeds_iff, ← Nat.not_lt, ← UInt32.lt_iff_toNat_lt]
  split_ifs with hoverlap hexceeds <;> simp [*]

end Step

/-- **One pass** accepts fields that begin at the stop or after it, fit and come one before the
other. -/
lemma checkFrom_iff (size stop : UInt32) (fields : List (Bytes × Field)) :
    checkFrom size stop fields = .ok () ↔
      (∀ e ∈ fields, stop.toNat ≤ e.2.offset.toNat ∧ e.2.stop ≤ size.toNat) ∧
        fields.Pairwise fun e e' => e.2.Before e'.2 := by
  induction fields generalizing stop with
  | nil => simp [checkFrom]
  | cons e rest ih =>
    obtain ⟨key, f⟩ := e
    rw [checkFrom_cons_iff, List.forall_mem_cons, List.pairwise_cons]
    constructor
    · rintro ⟨hstop, hfits, hrest⟩
      obtain ⟨hall, hpairs⟩ := (ih _).1 hrest
      rw [toNat_stop hfits] at hall
      have hlater : ∀ e ∈ rest, stop.toNat ≤ e.2.offset.toNat := fun e he =>
        hstop.trans ((Nat.le_add_right _ _).trans (hall e he).1)
      exact ⟨⟨⟨hstop, hfits⟩, fun e he => ⟨hlater e he, (hall e he).2⟩⟩,
        fun e he => (hall e he).1, hpairs⟩
    · rintro ⟨⟨⟨hstop, hfits⟩, hall⟩, hfirst, hpairs⟩
      refine ⟨hstop, hfits, (ih _).2 ⟨fun e he => ⟨?_, (hall e he).2⟩, hpairs⟩⟩
      rw [toNat_stop hfits]
      exact hfirst e he

/-- **Nothing wraps around** in the check, whatever the fields are. -/
lemma checkExactly_eq (size stop : UInt32) (fields : List (Bytes × Field)) :
    checkExactly size stop fields = some (checkFrom size stop fields) := by
  induction fields generalizing stop with
  | nil => rfl
  | cons e rest ih =>
    obtain ⟨key, f⟩ := e
    rw [checkExactly, checkFrom]
    by_cases hoverlap : f.offset < stop
    · rw [if_pos hoverlap, if_pos hoverlap]
    · rw [if_neg hoverlap, if_neg hoverlap]
      by_cases hsize : size < f.size
      · rw [if_pos hsize, if_pos (.inl hsize)]
      · rw [if_neg hsize, exactDifference?_of_not_lt hsize]
        show (if size - f.size < f.offset then _ else _) = _
        by_cases hroom : size - f.size < f.offset
        · rw [if_pos hroom, if_pos (.inr hroom)]
        · have hfits := not_exceeds_iff.1 (not_or.2 ⟨hsize, hroom⟩)
          rw [if_neg hroom, if_neg (not_or.2 ⟨hsize, hroom⟩), exactSum?_of_fits hfits]
          exact ih _

/-! ### Fields in the order of their offsets -/

lemma sortByOffset_perm (order : List (Bytes × Field)) : (sortByOffset order).Perm order :=
  List.mergeSort_perm ..

lemma offset_trans (a b c : Bytes × Field) (hab : decide (a.2.offset ≤ b.2.offset) = true)
    (hbc : decide (b.2.offset ≤ c.2.offset) = true) : decide (a.2.offset ≤ c.2.offset) = true := by
  rw [decide_eq_true_eq] at *
  exact UInt32.le_trans hab hbc

lemma offset_total (a b : Bytes × Field) :
    (decide (a.2.offset ≤ b.2.offset) || decide (b.2.offset ≤ a.2.offset)) = true := by
  simpa using UInt32.le_total a.2.offset b.2.offset

lemma ascending_sortByOffset (order : List (Bytes × Field)) :
    (sortByOffset order).Pairwise fun e e' => e.2.offset ≤ e'.2.offset :=
  (List.pairwise_mergeSort offset_trans offset_total order).imp of_decide_eq_true

section Order

variable {b : Buffer} {order : List (Bytes × Field)} (h : order.Perm b.fields.entries)

include h

lemma accepts_iff : checkEntries b.size order = .ok () ↔
    b.Fits ∧ (sortByOffset order).Pairwise fun e e' => e.2.Before e'.2 := by
  have hmem : ∀ e, e ∈ sortByOffset order ↔ e ∈ b.fields.entries := fun e =>
    ((sortByOffset_perm order).trans h).mem_iff
  rw [checkEntries, checkFrom_iff]
  refine and_congr_left fun _ => ?_
  simp only [hmem, Fits, show (0 : UInt32).toNat = 0 from rfl, Nat.zero_le, true_and]

lemma apart_of_pairwise
    (hpairs : (sortByOffset order).Pairwise fun e e' => e.2.Before e'.2) : b.IsApart := by
  have hapart : (sortByOffset order).Pairwise fun e e' => e.2.Apart e'.2 := hpairs.imp .inl
  have hperm := (sortByOffset_perm order).trans h
  have : Std.Symm fun e e' : Bytes × Field => e.2.Apart e'.2 := ⟨fun _ _ => Or.symm⟩
  intro e he e' he' hne
  exact hapart.forall (hperm.mem_iff.2 he) (hperm.mem_iff.2 he') fun heq => hne (heq ▸ rfl)

/-- Fields that are apart come one before the other, unless one that is not empty is taken before an
empty one with its offset. -/
lemma pairwise_of_apart (hapart : b.IsApart)
    (htie : (sortByOffset order).Pairwise fun e e' =>
      e.2.offset = e'.2.offset → e'.2.size = 0 → e.2.size = 0) :
    (sortByOffset order).Pairwise fun e e' => e.2.Before e'.2 := by
  have hperm := (sortByOffset_perm order).trans h
  have hkeys : ((sortByOffset order).map Prod.fst).Nodup :=
    (hperm.map Prod.fst).nodup_iff.2 b.fields.nodup_keys
  have hpairs : (sortByOffset order).Pairwise fun e e' => e.2.Apart e'.2 :=
    (List.pairwise_map.1 hkeys).imp_of_mem fun he he' hne =>
      hapart _ (hperm.mem_iff.1 he) _ (hperm.mem_iff.1 he') hne
  exact (((ascending_sortByOffset order).and hpairs).and htie).imp fun ⟨⟨hle, happ⟩, ht⟩ =>
    Field.before_of_apart hle happ ht

end Order

/-- **The layout check is exact.** Take any buffer whose fields are not empty, and its fields in any
order. The check accepts them exactly if, as numbers of any size, every field ends in the buffer and
no two fields share a byte, and none of its sums and differences wraps around. -/
theorem checkEntries_iff_disjoint (b : Buffer) (hsizes : ∀ e ∈ b.fields.entries, 0 < e.2.size)
    {order : List (Bytes × Field)} (horder : order.Perm b.fields.entries) :
    (checkEntries b.size order = .ok () ↔ b.Fits ∧ b.IsDisjoint) ∧
      checkExactly b.size 0 (sortByOffset order) = some (checkEntries b.size order) := by
  have hapart : b.IsDisjoint ↔ b.IsApart :=
    forall₂_congr fun e he => forall₂_congr fun e' he' => imp_congr_right fun _ =>
      Field.covers_apart_iff (hsizes e he) (hsizes e' he')
  refine ⟨?_, checkExactly_eq ..⟩
  rw [accepts_iff horder, hapart]
  refine and_congr_right fun _ => ⟨apart_of_pairwise horder, fun h => ?_⟩
  have hfull : ∀ e ∈ sortByOffset order, e.2.size ≠ 0 := fun e he hzero => by
    have hpos := hsizes e (((sortByOffset_perm order).trans horder).mem_iff.1 he)
    rw [hzero] at hpos
    exact absurd hpos (by decide)
  exact pairwise_of_apart horder h
    (List.pairwise_of_forall_mem_list fun _ _ e' he' _ hzero => absurd hzero (hfull e' he'))

/-- Two fields that fill the largest buffer. -/
def crammed : Buffer :=
  ⟨0xFFFFFFFF, ⟨[("m:a", ⟨4, 0xFFFFFFFB⟩), ("m:b", ⟨0xFFFFFFFB, 0⟩)], by decide +kernel⟩⟩

/-- The last sum is the greatest number there is. -/
theorem checkEntries_iff_disjoint_crammed :
    crammed.Fits ∧ crammed.IsDisjoint ∧
      checkExactly crammed.size 0 (sortByOffset crammed.fields.entries.reverse) =
        some (.ok ()) := by
  have hok : checkEntries crammed.size crammed.fields.entries.reverse = .ok () := by cbv
  obtain ⟨hiff, hexact⟩ :=
    checkEntries_iff_disjoint crammed (by decide +kernel) (List.reverse_perm _)
  obtain ⟨hfits, hdisjoint⟩ := hiff.1 hok
  exact ⟨hfits, hdisjoint, hexact.trans (congrArg some hok)⟩

/-! ### Verdicts that hang on the order -/

lemma empty_of_not_isOpen {b : Buffer} (h : b.Fits) (hapart : b.IsApart) (hopen : ¬ b.IsOpen)
    {e e' : Bytes × Field} (he : e ∈ b.fields.entries) (he' : e' ∈ b.fields.entries)
    (hoffset : e.2.offset = e'.2.offset) (hempty : e'.2.size = 0) : e.2.size = 0 := by
  by_contra hfull
  exact hopen ⟨h, hapart, e', he', e, he, hoffset.symm, hempty, hfull⟩

/-- **A verdict that is not open** is the same in every order. -/
lemma accepts_of_not_isOpen {b : Buffer} (hopen : ¬ b.IsOpen) {order order' : List (Bytes × Field)}
    (h : order.Perm b.fields.entries) (h' : order'.Perm b.fields.entries)
    (hok : checkEntries b.size order = .ok ()) : checkEntries b.size order' = .ok () := by
  obtain ⟨hfits, hpairs⟩ := (accepts_iff h).1 hok
  have hapart := apart_of_pairwise h hpairs
  have hmem : ∀ e ∈ sortByOffset order', e ∈ b.fields.entries := fun e =>
    ((sortByOffset_perm order').trans h').mem_iff.1
  exact (accepts_iff h').2 ⟨hfits, pairwise_of_apart h' hapart
    (List.pairwise_of_forall_mem_list fun e he e' he' =>
      empty_of_not_isOpen hfits hapart hopen (hmem e he) (hmem e' he'))⟩

/-- Offsets first, and empty fields before others of their offset. -/
def emptyFirst (e e' : Bytes × Field) : Bool :=
  e.2.offset < e'.2.offset ∨ (e.2.offset = e'.2.offset ∧ e.2.size ≤ e'.2.size)

lemma emptyFirst_iff {e e' : Bytes × Field} : emptyFirst e e' = true ↔
    e.2.offset.toNat < e'.2.offset.toNat ∨
      (e.2.offset.toNat = e'.2.offset.toNat ∧ e.2.size.toNat ≤ e'.2.size.toNat) := by
  simp only [emptyFirst, decide_eq_true_eq, UInt32.lt_iff_toNat_lt, UInt32.le_iff_toNat_le,
    UInt32.toNat_inj]

lemma emptyFirst_trans (a b c : Bytes × Field) (hab : emptyFirst a b = true)
    (hbc : emptyFirst b c = true) : emptyFirst a c = true := by
  rw [emptyFirst_iff] at *
  omega

lemma emptyFirst_total (a b : Bytes × Field) : (emptyFirst a b || emptyFirst b a) = true := by
  rw [Bool.or_eq_true, emptyFirst_iff, emptyFirst_iff]
  omega

/-- **Fields that fit and are apart** are accepted when empty ones are taken first. -/
lemma exists_accepts {b : Buffer} (hfits : b.Fits) (hapart : b.IsApart) :
    ∃ order, order.Perm b.fields.entries ∧ checkEntries b.size order = .ok () := by
  have horder := List.mergeSort_perm b.fields.entries emptyFirst
  have hpairs := List.pairwise_mergeSort emptyFirst_trans emptyFirst_total b.fields.entries
  have hsorted : sortByOffset (b.fields.entries.mergeSort emptyFirst) =
      b.fields.entries.mergeSort emptyFirst := by
    refine List.mergeSort_of_pairwise (hpairs.imp fun {e e'} h => ?_)
    rw [emptyFirst_iff] at h
    rw [decide_eq_true_eq, UInt32.le_iff_toNat_le]
    omega
  refine ⟨_, horder, (accepts_iff horder).2 ⟨hfits, pairwise_of_apart horder hapart ?_⟩⟩
  rw [hsorted]
  refine hpairs.imp fun {e e'} h hoffset hempty => UInt32.toNat_inj.1 ?_
  rw [emptyFirst_iff, hoffset, hempty] at h
  simpa using h

/-- **A field that is not empty**, taken before an empty one of its offset, has the order refused.
-/
lemma exists_refuses {b : Buffer} {e e' : Bytes × Field} (he : e ∈ b.fields.entries)
    (he' : e' ∈ b.fields.entries) (hoffset : e.2.offset = e'.2.offset) (hempty : e.2.size = 0)
    (hfull : e'.2.size ≠ 0) :
    ∃ order, order.Perm b.fields.entries ∧ checkEntries b.size order ≠ .ok () := by
  have horder := (List.perm_cons_erase he').symm
  refine ⟨_, horder, fun hok => ?_⟩
  obtain ⟨-, hpairs⟩ := (accepts_iff horder).1 hok
  have hne : e ≠ e' := fun heq => hfull (heq ▸ hempty)
  have hsub : [e', e].Sublist (e' :: b.fields.entries.erase e') :=
    (List.singleton_sublist.2 ((List.mem_erase_of_ne hne).2 he)).cons_cons e'
  -- the sort keeps the order of fields with one offset
  have hkept : [e', e].Sublist (sortByOffset (e' :: b.fields.entries.erase e')) :=
    List.pair_sublist_mergeSort offset_trans offset_total (by simp [hoffset]) hsub
  have hbefore : e'.2.Before e.2 := by simpa using hpairs.sublist hkept
  have hpos : e'.2.size.toNat ≠ 0 := fun h => hfull (UInt32.toNat_inj.1 h)
  unfold Field.Before Field.stop at hbefore
  rw [hoffset] at hbefore
  omega

/-- **A layout has one verdict** exactly if it is not open. -/
lemma agree_iff_not_isOpen (b : Buffer) :
    (∀ order order', order.Perm b.fields.entries → order'.Perm b.fields.entries →
      (checkEntries b.size order = .ok () ↔ checkEntries b.size order' = .ok ())) ↔ ¬ b.IsOpen := by
  constructor
  · rintro hagree ⟨hfits, hapart, e, he, e', he', hoffset, hempty, hfull⟩
    obtain ⟨order, horder, hok⟩ := exists_accepts hfits hapart
    obtain ⟨order', horder', hrefused⟩ := exists_refuses he he' hoffset hempty hfull
    exact hrefused ((hagree order order' horder horder').1 hok)
  · intro hopen order order' h h'
    exact ⟨accepts_of_not_isOpen hopen h h', accepts_of_not_isOpen hopen h' h⟩

end Buffer

end StateBuffer
