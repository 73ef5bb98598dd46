import Mathlib.Algebra.Group.Nat.Defs
import Mathlib.Data.Finset.Card
import Mathlib.Data.List.Nodup
import Mathlib.Tactic.Common
import Std.Data.HashMap.Lemmas
import StateBuffer.Source.Interner

/-!
Numbers stand for names. Whatever names enter a table, in whatever order and however often, the
table lists each of them once, where it was first seen, and the index gives its place in the table.
The numbers given to the names count up from one, zero stands for the empty name, and a number means
the same name for ever after. This holds as long as the places fit in words of 32 bits.
-/

namespace StateBuffer

namespace Interner

/-! ### What was seen before and what is new -/

section EraseDups

variable {α : Type} [BEq α] [LawfulBEq α] {l : List α} {a : α}

lemma eraseDups_concat_of_mem (h : a ∈ l) : (l ++ [a]).eraseDups = l.eraseDups := by
  simp [List.eraseDups_append, List.removeAll, h]

lemma eraseDups_concat_of_notMem (h : a ∉ l) : (l ++ [a]).eraseDups = l.eraseDups ++ [a] := by
  simp [List.eraseDups_append, List.removeAll, h, List.eraseDups_cons]

end EraseDups

variable {t : Interner} {seen : List Bytes} {given : List UInt32} {name : Bytes} {id : UInt32}

lemma intern_of_known (h : t.index[name]? = some id) : t.intern name = (id, t) := by
  rw [intern, h]

lemma intern_of_new (h : t.index[name]? = none) :
    t.intern name = (t.names.size.toUInt32,
      ⟨t.names.push name, t.index.insert name t.names.size.toUInt32⟩) := by
  rw [intern, h]

lemma lookup_of_lt (h : id.toNat < t.size) :
    ∃ name, t.lookup? id = some name ∧ t.lookup id = .ok name := by
  have hname : t.lookup? id = some t.names[id.toNat] := Array.getElem?_eq_getElem h
  exact ⟨_, hname, by rw [lookup, hname]⟩

lemma lookup_of_le (h : t.size ≤ id.toNat) :
    t.lookup? id = none ∧ t.lookup id = .error (.noSuchName id.toNat) := by
  have hnone : t.lookup? id = none := Array.getElem?_eq_none h
  exact ⟨hnone, by rw [lookup, hnone]⟩

/-! ### One name -/

/-- The table lists the names `seen` where they first occur, the index is its inverse, and the names
were given the numbers `given`, which count up from zero where they first occur. -/
structure Lists (t : Interner) (seen : List Bytes) (given : List UInt32) : Prop where
  names : t.names.toList = seen.eraseDups
  index : ∀ (name : Bytes) (k : Nat),
    t.index[name]?.map UInt32.toNat = some k ↔ t.names[k]? = some name
  numbers : given.map some = seen.map fun name => t.index[name]?
  ascending : given.eraseDups.map UInt32.toNat = List.range t.size

lemma lists_empty : empty.Lists [[]] [0] where
  names := rfl
  index name k := by
    rcases eq_or_ne name [] with rfl | hname
    · cases k <;> simp [empty]
    · cases k <;> simp [empty, hname, hname.symm]
  numbers := by simp [empty]
  ascending := rfl

lemma Lists.mem_names (h : t.Lists seen given) : name ∈ t.names.toList ↔ name ∈ seen := by
  rw [h.names, List.mem_eraseDups]

lemma Lists.exists_index_iff (h : t.Lists seen given) :
    (∃ id, t.index[name]? = some id) ↔ name ∈ seen := by
  rw [← h.mem_names, List.mem_iff_getElem?]
  constructor
  · rintro ⟨id, hid⟩
    refine ⟨id.toNat, ?_⟩
    rw [Array.getElem?_toList, ← h.index, hid, Option.map_some]
  · rintro ⟨k, hk⟩
    rw [Array.getElem?_toList, ← h.index] at hk
    obtain ⟨id, hid, -⟩ := Option.map_eq_some_iff.1 hk
    exact ⟨id, hid⟩

lemma Lists.size_eq (h : t.Lists seen given) : t.size = seen.toFinset.card := by
  have hnodup : t.names.toList.Nodup := by
    refine List.nodup_iff_getElem?_ne_getElem?.2 fun i j hij hj heq => hij.ne ?_
    rw [Array.getElem?_toList, Array.getElem?_toList] at heq
    have hname : t.names[j]? = some t.names[j] := Array.getElem?_eq_getElem hj
    have hi := (h.index t.names[j] i).2 (heq.trans hname)
    exact Option.some.inj (hi.symm.trans ((h.index t.names[j] j).2 hname))
  have hsame : t.names.toList.toFinset = seen.toFinset := by
    ext name
    rw [List.mem_toFinset, List.mem_toFinset, h.mem_names]
  rw [← hsame, List.toFinset_card_of_nodup hnodup, Array.length_toList, size]

lemma Lists.intern_of_mem (h : t.Lists seen given) (hname : name ∈ seen) :
    (t.intern name).2.Lists (seen ++ [name]) (given ++ [(t.intern name).1]) := by
  obtain ⟨id, hid⟩ := h.exists_index_iff.2 hname
  have hgiven : id ∈ given := by
    have hmem : some id ∈ seen.map fun name => t.index[name]? := List.mem_map.2 ⟨name, hname, hid⟩
    rw [← h.numbers] at hmem
    simpa using hmem
  rw [intern_of_known hid]
  constructor
  · rw [h.names, eraseDups_concat_of_mem hname]
  · exact h.index
  · rw [List.map_append, List.map_append, h.numbers, List.map_singleton, List.map_singleton, hid]
  · rw [eraseDups_concat_of_mem hgiven, h.ascending]

lemma Lists.intern_of_notMem (h : t.Lists seen given) (hname : name ∉ seen)
    (hroom : t.size < 2 ^ 32) :
    (t.intern name).2.Lists (seen ++ [name]) (given ++ [(t.intern name).1]) := by
  have hnone : t.index[name]? = none :=
    Option.eq_none_iff_forall_ne_some.2 fun id hid => hname (h.exists_index_iff.1 ⟨id, hid⟩)
  have hid : t.names.size.toUInt32.toNat = t.names.size := Nat.mod_eq_of_lt hroom
  have hgiven : t.names.size.toUInt32 ∉ given := by
    intro hmem
    have hbelow : t.names.size.toUInt32.toNat ∈ List.range t.size := by
      rw [← h.ascending]
      exact List.mem_map_of_mem (List.mem_eraseDups.2 hmem)
    rw [List.mem_range, hid] at hbelow
    exact Nat.lt_irrefl _ hbelow
  rw [intern_of_new hnone]
  constructor
  · rw [Array.toList_push, h.names, eraseDups_concat_of_notMem hname]
  · intro other k
    rw [Std.HashMap.getElem?_insert, Array.getElem?_push]
    rcases eq_or_ne name other with rfl | hne
    · have habsent : t.names[k]? ≠ some name := by
        rw [ne_eq, ← h.index, hnone]
        simp
      rw [if_pos (beq_self_eq_true name), Option.map_some, hid, Option.some.injEq]
      split_ifs with hk
      · simp [hk]
      · simp [habsent, Ne.symm hk]
    · rw [if_neg (by simpa using hne), h.index]
      split_ifs with hk
      · simp [hk, hne]
      · rfl
  · -- the names seen before keep their numbers
    have hkept : ∀ other ∈ seen,
        t.index[other]? = (t.index.insert name t.names.size.toUInt32)[other]? := by
      intro other hother
      have hne : name ≠ other := fun heq => hname (heq ▸ hother)
      rw [Std.HashMap.getElem?_insert, if_neg (by simpa using hne)]
    rw [List.map_append, List.map_append, h.numbers, List.map_congr_left hkept,
      List.map_singleton, List.map_singleton, Std.HashMap.getElem?_insert_self]
  · rw [eraseDups_concat_of_notMem hgiven, List.map_append, h.ascending, List.map_singleton, hid,
      size, size, Array.size_push, List.range_succ]

/-! ### Any names in order -/

def numbersOf (t : Interner) : List Bytes → List UInt32
  | [] => []
  | name :: names => (t.intern name).1 :: (t.intern name).2.numbersOf names

lemma length_numbersOf (t : Interner) (names : List Bytes) :
    (t.numbersOf names).length = names.length := by
  induction names generalizing t with
  | nil => rfl
  | cons name names ih => rw [numbersOf, List.length_cons, List.length_cons, ih]

lemma numbersOf_take (t : Interner) (names : List Bytes) (n : Nat) :
    t.numbersOf (names.take n) = (t.numbersOf names).take n := by
  induction names generalizing t n with
  | nil => simp [numbersOf]
  | cons name names ih =>
    cases n with
    | zero => rfl
    | succ n => rw [List.take_succ_cons, numbersOf, numbersOf, List.take_succ_cons, ih]

/-- **A run**: a table lists any names that enter it, if there are not too many different ones. -/
lemma Lists.internAll (h : t.Lists seen given) (names : List Bytes)
    (hroom : (seen ++ names).toFinset.card ≤ 2 ^ 32) :
    (t.internAll names).Lists (seen ++ names) (given ++ t.numbersOf names) := by
  induction names generalizing t seen given with
  | nil => simpa [numbersOf, Interner.internAll] using h
  | cons name names ih =>
    have hstep : (t.intern name).2.Lists (seen ++ [name]) (given ++ [(t.intern name).1]) := by
      by_cases hname : name ∈ seen
      · exact h.intern_of_mem hname
      · -- the new name is one of all those that fit
        have hmore : seen.toFinset ⊂ (seen ++ name :: names).toFinset := by
          refine Finset.ssubset_iff_exists_subset_erase.2 ⟨name, by simp, fun other hother => ?_⟩
          have hseen := List.mem_toFinset.1 hother
          exact Finset.mem_erase.2 ⟨fun heq => hname (heq ▸ hseen), by simp [hseen]⟩
        refine h.intern_of_notMem hname ?_
        rw [h.size_eq]
        exact (Finset.card_lt_card hmore).trans_le hroom
    have hrun := ih hstep (by simpa using hroom)
    rw [List.append_assoc, List.append_assoc] at hrun
    exact hrun

lemma lists_internAll {names : List Bytes} (hfew : names.toFinset.card < 2 ^ 32) (n : Nat) :
    (empty.internAll (names.take n)).Lists ([] :: names.take n)
      (0 :: (empty.numbersOf names).take n) := by
  have hsub : (names.take n).toFinset ⊆ names.toFinset := fun name hname =>
    List.mem_toFinset.2 (List.take_subset n names (List.mem_toFinset.1 hname))
  rw [← numbersOf_take]
  refine lists_empty.internAll (names.take n) ?_
  calc ([[]] ++ names.take n).toFinset.card
      = (insert [] (names.take n).toFinset).card := by
        rw [List.singleton_append, List.toFinset_cons]
    _ ≤ (names.take n).toFinset.card + 1 := Finset.card_insert_le _ _
    _ ≤ names.toFinset.card + 1 := Nat.succ_le_succ (Finset.card_le_card hsub)
    _ ≤ 2 ^ 32 := hfew

lemma Lists.lookup?_given (h : t.Lists seen given) {i : Nat} (hi : given[i]? = some id) :
    t.lookup? id = seen[i]? := by
  have hplace : (seen.map fun name => t.index[name]?)[i]? = some (some id) := by
    rw [← h.numbers, List.getElem?_map, hi, Option.map_some]
  rw [List.getElem?_map] at hplace
  obtain ⟨name, hname, hid⟩ := Option.map_eq_some_iff.1 hplace
  rw [lookup?, hname, ← h.index, hid, Option.map_some]

lemma Lists.getElem?_given_eq_iff (h : t.Lists seen given) (i j : Nat) :
    given[i]? = given[j]? ↔ seen[i]? = seen[j]? := by
  have hplace (i : Nat) : given[i]?.map some = seen[i]?.map fun name => t.index[name]? := by
    rw [← List.getElem?_map, h.numbers, List.getElem?_map]
  constructor
  · intro heq
    cases hi : given[i]? with
    | none =>
      have hnone (i : Nat) (hi : given[i]? = none) : seen[i]? = none :=
        Option.map_eq_none_iff.1 ((hplace i).symm.trans (by rw [hi, Option.map_none]))
      rw [hnone i hi, hnone j (heq ▸ hi)]
    | some id => rw [← h.lookup?_given hi, h.lookup?_given (heq ▸ hi)]
  · intro heq
    apply Option.map_injective (Option.some_injective UInt32)
    rw [hplace, hplace, heq]

/-- **Numbers stand for names.** Take any sequence of names, fewer than `2 ^ 32` different ones,
that enter a table which holds the empty name only. After each of them the table lists the names
entered so far once each, where they first occur, behind the empty name, and the index is the
inverse of the table. The numbers given so far are, where they first occur, 1, 2, 3 and so on behind
the zero of the empty name; those in use, and no others, can be looked up, and each means the name
for which it was given. Any two numbers of the sequence are the same exactly if the names are. -/
theorem numbersOf_exact (names : List Bytes) (hfew : names.toFinset.card < 2 ^ 32) :
    let given := empty.numbersOf names
    let after (n : Nat) := empty.internAll (names.take n)
    given.length = names.length ∧
    (∀ n,
      (after n).names.toList = ([] :: names.take n).eraseDups ∧
      (∀ (name : Bytes) (k : Nat),
        (after n).index[name]?.map UInt32.toNat = some k ↔ (after n).names[k]? = some name) ∧
      (0 :: given.take n).eraseDups.map UInt32.toNat = List.range (after n).size ∧
      (∀ id : UInt32, id.toNat < (after n).size →
        ∃ name, (after n).lookup? id = some name ∧ (after n).lookup id = .ok name) ∧
      (∀ id : UInt32, (after n).size ≤ id.toNat →
        (after n).lookup? id = none ∧ (after n).lookup id = .error (.noSuchName id.toNat)) ∧
      (after n).lookup? 0 = some [] ∧
      ∀ (i : Nat) (id : UInt32), i < n → given[i]? = some id → (after n).lookup? id = names[i]?) ∧
    (∀ i : Nat, given[i]? = some 0 ↔ names[i]? = some []) ∧
    ∀ i j : Nat, given[i]? = given[j]? ↔ names[i]? = names[j]? := by
  intro given after
  have hlists (n : Nat) : (after n).Lists ([] :: names.take n) (0 :: given.take n) :=
    lists_internAll hfew n
  have hlength : given.length = names.length := length_numbersOf empty names
  have hall : (after names.length).Lists ([] :: names) (0 :: given) := by
    have hlast := hlists names.length
    rwa [List.take_length, List.take_of_length_le hlength.le] at hlast
  refine ⟨hlength, fun n => ⟨(hlists n).names, (hlists n).index,
    (hlists n).ascending, fun _ => lookup_of_lt, fun _ => lookup_of_le,
    (hlists n).lookup?_given (i := 0) rfl, fun i id hi hid => ?_⟩, fun i => ?_, fun i j => ?_⟩
  · have hgiven : (0 :: given.take n)[i + 1]? = some id := by
      rw [List.getElem?_cons_succ, List.getElem?_take_of_lt hi, hid]
    rw [(hlists n).lookup?_given hgiven, List.getElem?_cons_succ, List.getElem?_take_of_lt hi]
  · exact hall.getElem?_given_eq_iff (i + 1) 0
  · exact hall.getElem?_given_eq_iff (i + 1) (j + 1)

/-- A name that is seen again after the empty name and another one. -/
def recurring : List Bytes := ["x", "", "y", "x"]

/-- It keeps number 1, the other one has number 2, and number 3 is not in use. -/
theorem numbersOf_exact_recurring :
    recurring.toFinset.card < 2 ^ 32 ∧
      empty.numbersOf recurring = [1, 0, 2, 1] ∧
      (empty.internAll recurring).lookup? 2 = some ("y" : Bytes) ∧
      (empty.internAll recurring).lookup 3 = .error (.noSuchName 3) := by
  have hfew : recurring.toFinset.card < 2 ^ 32 := by decide
  obtain ⟨-, hafter, hzero, hsame⟩ := numbersOf_exact recurring hfew
  obtain ⟨hnames, -, hascending, -, hbeyond, -, hmeans⟩ := hafter 4
  have hsize : (empty.internAll recurring).size = 3 := congrArg List.length hnames
  obtain ⟨a, b, c, d, hgiven⟩ : ∃ a b c d, empty.numbersOf recurring = [a, b, c, d] :=
    ⟨_, _, _, _, rfl⟩
  rw [hgiven] at hzero hsame hascending hmeans
  obtain rfl : b = 0 := by simpa using (hzero 1).2 rfl
  obtain rfl : d = a := by simpa using (hsame 3 0).2 rfl
  have hd : d ≠ 0 := fun heq => absurd ((hzero 0).1 (congrArg some heq)) (by decide)
  have hc : c ≠ 0 := fun heq => absurd ((hzero 2).1 (congrArg some heq)) (by decide)
  have hcd : c ≠ d := fun heq => absurd ((hsame 2 0).1 (congrArg some heq)) (by decide)
  have hfirst : [0, d, 0, c, d].eraseDups = [0, d, c] := by
    simp [List.eraseDups_cons, hd, hc, hcd]
  have hnumbers : [0, d, c].map UInt32.toNat = List.range 3 := by
    rw [← hsize, ← hfirst]
    exact hascending
  obtain rfl : d = 1 := UInt32.toNat_inj.1 (congrArg (·.getD 1 0) hnumbers)
  obtain rfl : c = 2 := UInt32.toNat_inj.1 (congrArg (·.getD 2 0) hnumbers)
  exact ⟨hfew, hgiven, hmeans 2 2 (by decide) rfl, (hbeyond 3 hsize.le).2⟩

end Interner

end StateBuffer
