import Mathlib
import StateBuffer.Text.Bytes

/-!
Texts taken apart at a byte and put together again. The parts of a text are joined to that text;
a list of parts without the byte is what its joined text is taken apart into; and where two texts
meet, the last part of the first runs on into the first part of the second.
-/

namespace StateBuffer

namespace Bytes

variable {sep : UInt8}

lemma split_eq_splitOn (sep : UInt8) (s : Bytes) : split sep s = s.splitOn sep := by
  induction s with
  | nil => rfl
  | cons b rest ih =>
    rw [List.splitOn_cons_eq_if_modifyHead, ← ih, split]
    by_cases hb : b = sep
    · rw [if_pos hb, if_pos (by simpa using hb)]
    · rw [if_neg hb, if_neg (by simpa using hb)]
      cases hparts : split sep rest with
      | nil => exact absurd (ih.symm.trans hparts) (List.splitOn_ne_nil sep rest)
      | cons part parts => rfl

lemma join_eq_intercalate (sep : Bytes) (parts : List Bytes) :
    join sep parts = sep.intercalate parts := by
  fun_induction join sep parts with
  | case1 => rfl
  | case2 part => exact List.intercalate_singleton.symm
  | case3 part next parts ih => rw [List.intercalate_cons_cons, ih]

/-! ### The parts of a text -/

lemma split_ne_nil (sep : UInt8) (s : Bytes) : split sep s ≠ [] := by
  rw [split_eq_splitOn]
  exact List.splitOn_ne_nil sep s

lemma split_eq_cons (sep : UInt8) (s : Bytes) : ∃ first after, split sep s = first :: after :=
  List.exists_cons_of_ne_nil (split_ne_nil sep s)

lemma split_eq_concat (sep : UInt8) (s : Bytes) : ∃ before last, split sep s = before ++ [last] :=
  (List.eq_nil_or_concat' _).resolve_left (split_ne_nil sep s)

lemma split_cons_self (sep : UInt8) (s : Bytes) : split sep (sep :: s) = [] :: split sep s := by
  rw [split, if_pos rfl]

lemma split_cons_of_ne {b : UInt8} (h : b ≠ sep) (s : Bytes) :
    split sep (b :: s) = (split sep s).modifyHead (List.cons b) := by
  rw [split_eq_splitOn, List.splitOn_cons_eq_if_modifyHead, if_neg (by simpa using h),
    split_eq_splitOn]

lemma split_append_cons (sep : UInt8) (s t : Bytes) :
    split sep (s ++ sep :: t) = split sep s ++ split sep t := by
  simp only [split_eq_splitOn, List.splitOn_append_cons_self]

lemma split_of_notMem {s : Bytes} (h : sep ∉ s) : split sep s = [s] := by
  rw [split_eq_splitOn]
  exact List.splitOn_eq_singleton h

lemma length_split (sep : UInt8) (s : Bytes) : (split sep s).length = s.count sep + 1 := by
  induction s with
  | nil => rfl
  | cons b rest ih =>
    by_cases hb : b = sep
    · subst hb
      rw [split_cons_self, List.length_cons, ih, List.count_cons_self]
    · rw [split_cons_of_ne hb, List.length_modifyHead, ih, List.count_cons_of_ne hb]

lemma notMem_of_mem_split {s part : Bytes} (h : part ∈ split sep s) : sep ∉ part := by
  induction s generalizing part with
  | nil =>
    obtain rfl := List.mem_singleton.1 h
    exact List.not_mem_nil
  | cons b rest ih =>
    by_cases hb : b = sep
    · subst hb
      rw [split_cons_self] at h
      rcases List.mem_cons.1 h with rfl | h
      · exact List.not_mem_nil
      · exact ih h
    · rw [split_cons_of_ne hb] at h
      obtain ⟨first, parts, hparts⟩ := split_eq_cons sep rest
      rw [hparts, List.modifyHead_cons] at h
      rcases List.mem_cons.1 h with rfl | h
      · rw [List.mem_cons, not_or]
        exact ⟨Ne.symm hb, ih (by rw [hparts]; exact List.mem_cons_self)⟩
      · exact ih (by rw [hparts]; exact List.mem_cons_of_mem _ h)

/-- Where two texts meet, the last part of the one runs on into the first part of the other. -/
theorem split_append {s t last first : Bytes} {before after : List Bytes}
    (hs : split sep s = before ++ [last]) (ht : split sep t = first :: after) :
    split sep (s ++ t) = before ++ (last ++ first) :: after := by
  induction s generalizing before last with
  | nil =>
    have hs : [] ++ [[]] = before ++ [last] := hs
    obtain ⟨rfl, hlast⟩ := List.append_inj' hs rfl
    obtain rfl := List.singleton_inj.1 hlast
    exact ht
  | cons b rest ih =>
    obtain ⟨middle, runOn, hrest⟩ := split_eq_concat sep rest
    have hrun := ih hrest
    rw [List.cons_append]
    by_cases hb : b = sep
    · subst hb
      rw [split_cons_self, hrest, ← List.cons_append] at hs
      obtain ⟨rfl, hlast⟩ := List.append_inj' hs rfl
      obtain rfl := List.singleton_inj.1 hlast
      rw [split_cons_self, hrun, List.cons_append]
    · rw [split_cons_of_ne hb, hrest] at hs
      rw [split_cons_of_ne hb, hrun]
      cases middle with
      | nil =>
        have hs : [] ++ [b :: runOn] = before ++ [last] := hs
        obtain ⟨rfl, hlast⟩ := List.append_inj' hs rfl
        obtain rfl := List.singleton_inj.1 hlast
        rfl
      | cons part middle =>
        have hs : ((b :: part) :: middle) ++ [runOn] = before ++ [last] := hs
        obtain ⟨rfl, hlast⟩ := List.append_inj' hs rfl
        obtain rfl := List.singleton_inj.1 hlast
        rfl

/-! ### Parts joined -/

/-- The parts of a text are joined to that text. -/
theorem join_split (sep : UInt8) (s : Bytes) : join [sep] (split sep s) = s := by
  rw [split_eq_splitOn, join_eq_intercalate, List.intercalate_splitOn]

/-- Parts that the byte is in none of are what their joined text is taken apart into. -/
theorem split_join {parts : List Bytes} (hne : parts ≠ []) (h : ∀ part ∈ parts, sep ∉ part) :
    split sep (join [sep] parts) = parts := by
  rw [split_eq_splitOn, join_eq_intercalate, List.splitOn_intercalate sep h hne]

lemma join_cons (sep : Bytes) (part : Bytes) {parts : List Bytes} (h : parts ≠ []) :
    join sep (part :: parts) = part ++ sep ++ join sep parts := by
  obtain ⟨next, parts, rfl⟩ := List.exists_cons_of_ne_nil h
  rfl

lemma join_ne_nil {sep : Bytes} {parts : List Bytes} (hne : parts ≠ []) (h : [] ∉ parts) :
    join sep parts ≠ [] := by
  fun_cases join sep parts with
  | case1 => exact absurd rfl hne
  | case2 part => exact fun he => h (by simp [he])
  | case3 part next parts => exact fun he => h (by simp [(List.append_eq_nil_iff.1
      (List.append_eq_nil_iff.1 he).1).1])

lemma join_middle (sep : Bytes) (before : List Bytes) (part : Bytes) (after : List Bytes) :
    join sep (before ++ part :: after) =
      (before.flatMap fun line => line ++ sep) ++ join sep (part :: after) := by
  induction before with
  | nil => rfl
  | cons line before ih =>
    rw [List.cons_append, join_cons sep line (List.append_ne_nil_of_right_ne_nil _ (by simp)), ih,
      List.flatMap_cons, List.append_assoc (line ++ sep)]

end Bytes

end StateBuffer
