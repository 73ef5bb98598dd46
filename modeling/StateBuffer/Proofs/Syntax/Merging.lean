import Mathlib.Data.List.Induction
import Mathlib.Tactic.Common
import StateBuffer.Syntax.Error

/-!
Merging the errors of alternatives. Uniting lists of labels is associative, and so is merging,
however nested alternatives group it. All errors together give the one that got furthest: its labels
are those of every error at its offset, each where it first occurs.
-/

namespace StateBuffer

namespace SyntaxError

/-! ### Labels -/

@[simp] lemma unite_nil (labels : List Bytes) : unite labels [] = labels := rfl

lemma unite_append (labels more rest : List Bytes) :
    unite labels (more ++ rest) = unite (unite labels more) rest :=
  List.foldl_append

lemma unite_concat (labels more : List Bytes) (label : Bytes) :
    unite labels (more ++ [label]) =
      if label ∈ unite labels more then unite labels more else unite labels more ++ [label] :=
  unite_append labels more [label]

@[simp] lemma mem_unite {labels more : List Bytes} {label : Bytes} :
    label ∈ unite labels more ↔ label ∈ labels ∨ label ∈ more := by
  induction more using List.reverseRecOn with
  | nil => simp
  | append_singleton more last ih =>
    rw [unite_concat]
    split_ifs with hlast
    · rw [List.mem_append, List.mem_singleton, ← or_assoc, ← ih, or_iff_left_of_imp]
      rintro rfl
      exact hlast
    · rw [List.mem_append, ih, List.mem_append, or_assoc]

lemma unite_assoc (labels more rest : List Bytes) :
    unite (unite labels more) rest = unite labels (unite more rest) := by
  induction rest using List.reverseRecOn with
  | nil => rfl
  | append_singleton rest last ih =>
    rw [unite_concat, unite_concat, ih]
    by_cases hlast : last ∈ unite more rest
    · rw [if_pos hlast, if_pos (mem_unite.2 (.inr hlast))]
    · rw [if_neg hlast, unite_concat]

lemma unite_nil_left (labels : List Bytes) : unite [] labels = labels.eraseDups := by
  induction labels using List.reverseRecOn with
  | nil => rfl
  | append_singleton labels last ih =>
    rw [unite_concat, ih, List.eraseDups_append]
    by_cases hlast : last ∈ labels
    · rw [if_pos (List.mem_eraseDups.2 hlast)]
      simp [List.removeAll, hlast]
    · rw [if_neg (mt List.mem_eraseDups.1 hlast)]
      simp [List.removeAll, hlast, List.eraseDups_cons]

lemma nodup_unite {labels : List Bytes} (h : labels.Nodup) (more : List Bytes) :
    (unite labels more).Nodup := by
  induction more using List.reverseRecOn with
  | nil => exact h
  | append_singleton more last ih =>
    rw [unite_concat]
    split_ifs with hlast
    · exact ih
    · refine List.nodup_append.2 ⟨ih, List.pairwise_singleton _ _, fun label hl x hx => ?_⟩
      rw [List.mem_singleton.1 hx]
      exact ne_of_mem_of_not_mem hl hlast

lemma unite_of_nodup {labels : List Bytes} (h : labels.Nodup) : unite [] labels = labels := by
  induction labels using List.reverseRecOn with
  | nil => rfl
  | append_singleton labels last ih =>
    obtain ⟨hlabels, -, hlast⟩ := List.nodup_append.1 h
    rw [unite_concat, ih hlabels, if_neg fun hm => hlast _ hm _ (List.mem_singleton_self _) rfl]

/-! ### Errors -/

@[simp] lemma merge_none_left (a : Option SyntaxError) : merge none a = a := by
  cases a <;> rfl

@[simp] lemma merge_none_right (a : Option SyntaxError) : merge a none = a := by
  cases a <;> rfl

lemma merge_of_lt {a b : SyntaxError} (h : a.offset < b.offset) :
    merge (some a) (some b) = some b := by
  rw [merge, if_neg (by omega), if_pos h]

lemma merge_of_gt {a b : SyntaxError} (h : b.offset < a.offset) :
    merge (some a) (some b) = some a := by
  rw [merge, if_pos h]

lemma merge_of_eq {a b : SyntaxError} (h : a.offset = b.offset) :
    merge (some a) (some b) = some { a with expected := unite a.expected b.expected } := by
  rw [merge, if_neg (by omega), if_neg (by omega)]

lemma merge_assoc (a b c : Option SyntaxError) :
    merge (merge a b) c = merge a (merge b c) := by
  rcases a with _ | a
  · simp
  rcases b with _ | b
  · simp
  rcases c with _ | c
  · simp
  rcases Int.lt_trichotomy a.offset b.offset with hab | hab | hab
  · rw [merge_of_lt hab]
    rcases Int.lt_trichotomy b.offset c.offset with hbc | hbc | hbc
    · rw [merge_of_lt hbc, merge_of_lt (by omega)]
    · rw [merge_of_eq hbc, merge_of_lt (by exact hab)]
    · rw [merge_of_gt hbc, merge_of_lt hab]
  · rw [merge_of_eq hab]
    rcases Int.lt_trichotomy b.offset c.offset with hbc | hbc | hbc
    · rw [merge_of_lt hbc, merge_of_lt (by simp only; omega), merge_of_lt (by omega)]
    · rw [merge_of_eq hbc, merge_of_eq (by simp only; omega), merge_of_eq (by exact hab), unite_assoc]
    · rw [merge_of_gt hbc, merge_of_gt (by simp only; omega), merge_of_eq hab]
  · rw [merge_of_gt hab]
    rcases Int.lt_trichotomy b.offset c.offset with hbc | hbc | hbc
    · rw [merge_of_lt hbc]
    · rw [merge_of_eq hbc, merge_of_gt (by omega), merge_of_gt (by exact hab)]
    · rw [merge_of_gt hbc, merge_of_gt (by omega), merge_of_gt hab]

/-! ### All errors together -/

/-- What the errors that got to an offset expected there, in their order. -/
def labelsAt (offset : Int) (es : List SyntaxError) : List Bytes :=
  (es.filter fun e => e.offset = offset).flatMap expected

lemma labelsAt_concat (offset : Int) (es : List SyntaxError) (e : SyntaxError) :
    labelsAt offset (es ++ [e]) =
      labelsAt offset es ++ if e.offset = offset then e.expected else [] := by
  rw [labelsAt, List.filter_append, List.flatMap_append, ← labelsAt]
  by_cases h : e.offset = offset
  · simp [h]
  · simp [h]

lemma labelsAt_of_lt {offset : Int} {es : List SyntaxError} (h : ∀ e ∈ es, e.offset < offset) :
    labelsAt offset es = [] := by
  rw [labelsAt, List.filter_eq_nil_iff.2 fun e he => by simpa using Int.ne_of_lt (h e he)]
  rfl

/-- What errors merge to: an error of the furthest offset, with all labels of that offset. -/
structure Furthest (es : List SyntaxError) (m : SyntaxError) : Prop where
  reached : ∃ e ∈ es, e.offset = m.offset ∧ e.file = m.file
  furthest : ∀ e ∈ es, e.offset ≤ m.offset
  expected : m.expected = (labelsAt m.offset es).eraseDups

/-- **One error more**, with labels that are all different. -/
lemma Furthest.merge {es : List SyntaxError} {m e : SyntaxError} (h : Furthest es m)
    (he : e.expected.Nodup) :
    ∃ m', SyntaxError.merge (some m) (some e) = some m' ∧ Furthest (es ++ [e]) m' := by
  obtain ⟨⟨e1, hmem, hreached⟩, hfurthest, hlabels⟩ := h
  have hmem : e1 ∈ es ++ [e] := List.mem_append_left _ hmem
  have hall : ∀ n, m.offset ≤ n → e.offset ≤ n → ∀ e' ∈ es ++ [e], e'.offset ≤ n := by
    intro n hm hn e' he'
    rcases List.mem_append.1 he' with he' | he'
    · exact Int.le_trans (hfurthest e' he') hm
    · rwa [List.mem_singleton.1 he']
  rcases Int.lt_trichotomy m.offset e.offset with hlt | heq | hgt
  · have hnone : labelsAt e.offset es = [] :=
      labelsAt_of_lt fun e' he' => Int.lt_of_le_of_lt (hfurthest e' he') hlt
    refine ⟨e, merge_of_lt hlt, ⟨e, by simp, rfl, rfl⟩,
      hall _ (Int.le_of_lt hlt) (Int.le_refl _), ?_⟩
    rw [labelsAt_concat, if_pos rfl, hnone, List.nil_append, ← unite_nil_left, unite_of_nodup he]
  · refine ⟨_, merge_of_eq heq, ⟨e1, hmem, hreached⟩,
      hall _ (Int.le_refl _) (Int.le_of_eq heq.symm), ?_⟩
    rw [labelsAt_concat, if_pos heq.symm, ← unite_nil_left, unite_append, unite_nil_left, ← hlabels]
  · refine ⟨m, merge_of_gt hgt, ⟨e1, hmem, hreached⟩,
      hall _ (Int.le_refl _) (Int.le_of_lt hgt), ?_⟩
    rw [labelsAt_concat, if_neg (Int.ne_of_lt hgt), List.append_nil, hlabels]

/-- **A list of errors** that each have different labels. -/
lemma foldl_merge {es : List SyntaxError} (hne : es ≠ []) (h : ∀ e ∈ es, e.expected.Nodup) :
    ∃ m, (es.map some).foldl SyntaxError.merge none = some m ∧ Furthest es m := by
  induction es using List.reverseRecOn with
  | nil => exact absurd rfl hne
  | append_singleton es e ih =>
    rw [List.map_append, List.foldl_append]
    have he := h e (by simp)
    by_cases hes : es = []
    · subst hes
      refine ⟨e, rfl, ⟨e, by simp, rfl, rfl⟩, by simp, ?_⟩
      rw [labelsAt_concat, if_pos rfl, labelsAt_of_lt (by simp), List.nil_append, ← unite_nil_left,
        unite_of_nodup he]
    · obtain ⟨m, hm, hfurthest⟩ := ih hes fun e' he' => h e' (by simp [he'])
      rw [hm]
      exact hfurthest.merge he

/-- **Merging errors** is associative with no error as its unit, whatever labels they have. All of a
list of errors that each have different labels merge to the furthest offset, in the file of an error
that got there; expected are all labels of the errors at this offset and no others, each once, in
the order in which they first occur. -/
theorem merge_furthest :
    (∀ a b c : Option SyntaxError, merge (merge a b) c = merge a (merge b c)) ∧
    (∀ a : Option SyntaxError, merge none a = a ∧ merge a none = a) ∧
    ∀ es : List SyntaxError, es ≠ [] → (∀ e ∈ es, e.expected.Nodup) →
      ∃ m, (es.map some).foldl merge none = some m ∧
        (∃ e ∈ es, e.offset = m.offset ∧ e.file = m.file) ∧ (∀ e ∈ es, e.offset ≤ m.offset) ∧
        m.expected.Nodup ∧
        m.expected = ((es.filter fun e => e.offset = m.offset).flatMap expected).eraseDups := by
  refine ⟨merge_assoc, fun a => ⟨merge_none_left a, merge_none_right a⟩, fun es hne h => ?_⟩
  obtain ⟨m, hm, hfurthest⟩ := foldl_merge hne h
  have hlabels := hfurthest.expected
  refine ⟨m, hm, hfurthest.reached, hfurthest.furthest, ?_, hlabels⟩
  rw [hlabels, ← unite_nil_left]
  exact nodup_unite List.nodup_nil _

/-- Two of three errors got furthest, and both expected a dot. -/
theorem merge_furthest_tied :
    let es : List SyntaxError := [⟨1, 4, [";", "."]⟩, ⟨1, 2, ["="]⟩, ⟨1, 4, [".", "~"]⟩]
    es ≠ [] ∧ (∀ e ∈ es, e.expected.Nodup) ∧
      (es.map some).foldl merge none = some ⟨1, 4, [";", ".", "~"]⟩ := by
  intro es
  have hne : es ≠ [] := by decide
  have hnodup : ∀ e ∈ es, e.expected.Nodup := by decide
  obtain ⟨m, hm, ⟨e, he, hoffset, hfile⟩, hfurthest, -, hexpected⟩ :=
    merge_furthest.2.2 es hne hnodup
  have hfour : 4 ≤ m.offset := hfurthest ⟨1, 4, [";", "."]⟩ (by decide)
  have hplace : e.offset ≤ 4 ∧ e.file = 1 := by
    have hplaces : ∀ e ∈ es, e.offset ≤ 4 ∧ e.file = 1 := by decide
    exact hplaces e he
  have hmax : m.offset = 4 := by omega
  rw [hmax] at hexpected
  refine ⟨hne, hnodup, ?_⟩
  rw [hm, ← hplace.2, hfile, ← hmax, show ([";", ".", "~"] : List Bytes) = m.expected from
    (hexpected.trans (by decide)).symm]

end SyntaxError

end StateBuffer
