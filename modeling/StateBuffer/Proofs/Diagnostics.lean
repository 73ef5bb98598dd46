import Mathlib.Tactic.Common
import StateBuffer.Diagnostic.Bag

/-!
What a bag of diagnostics tells. Whatever its limit, a bag has counted every error and every warning
that was added to it, so whether a compilation fails does not depend on the limit. A bag with a
limit keeps the first diagnostics that are added to it and counts the others.
-/

namespace StateBuffer

namespace Bag

/-- The severities that are counted one by one. -/
def Counted (s : Severity) : Prop := s = .error ∨ s = .warning

lemma count_add (b : Bag) (d : Diagnostic) {s : Severity} (hs : Counted s) :
    (b.add d).count s = b.count s + if d.severity = s then 1 else 0 := by
  rw [add]
  split_ifs with hfull hd hd
  · rcases hs with rfl | rfl
    · simp [hd, count, droppedOf, Nat.add_assoc]
    · simp [hd, count, droppedOf, Nat.add_assoc]
  · rcases hs with rfl | rfl
    · cases hsev : d.severity <;> simp_all [count, droppedOf]
    · cases hsev : d.severity <;> simp_all [count, droppedOf]
  · rcases hs with rfl | rfl
    · simp [hd, count, droppedOf, Nat.add_right_comm]
    · simp [hd, count, droppedOf, Nat.add_right_comm]
  · rcases hs with rfl | rfl
    · simp [hd, count, droppedOf]
    · simp [hd, count, droppedOf]

lemma count_addAll (ds : List Diagnostic) (b : Bag) {s : Severity} (hs : Counted s) :
    (b.addAll ds).count s = b.count s + ds.countP fun d => d.severity = s := by
  induction ds generalizing b with
  | nil => rfl
  | cons d ds ih =>
    rw [show b.addAll (d :: ds) = (b.add d).addAll ds from rfl, ih, count_add b d hs,
      List.countP_cons]
    by_cases hd : d.severity = s
    · simp only [hd, decide_true, if_true]
      omega
    · simp [hd]

lemma count_pos_iff (limit : Int) (ds : List Diagnostic) {s : Severity} (hs : Counted s) :
    0 < ((empty limit).addAll ds).count s ↔ ∃ d ∈ ds, d.severity = s := by
  have hzero : (empty limit).count s = 0 := by
    rcases hs with rfl | rfl
    · rfl
    · rfl
  rw [count_addAll ds _ hs, hzero, Nat.zero_add, List.countP_pos_iff]
  simp

/-- **Diagnostics fail a compilation** if one is an error, or a warning where warnings count. -/
theorem failed_iff (limit : Int) (ds : List Diagnostic) (warningsAsErrors : Bool) :
    ((empty limit).addAll ds).failed warningsAsErrors = true ↔
      (∃ d ∈ ds, d.severity = .error) ∨
        warningsAsErrors = true ∧ ∃ d ∈ ds, d.severity = .warning := by
  simp only [failed, hasErrors, hasWarnings, Bool.or_eq_true, Bool.and_eq_true, decide_eq_true_eq]
  rw [count_pos_iff limit ds (.inl rfl), count_pos_iff limit ds (.inr rfl)]

/-! ### What is kept -/

/-- How many of `n` further diagnostics are kept at most. -/
def room (b : Bag) (n : Nat) : Nat := if 0 < b.limit then b.limit.toNat - b.items.length else n

lemma room_of_full {b : Bag} (h : b.isFull = true) (n : Nat) : b.room n = 0 := by
  simp only [isFull, Bool.and_eq_true, decide_eq_true_eq] at h
  rw [room, if_pos h.1]
  omega

lemma room_succ {b : Bag} (h : b.isFull = false) (d : Diagnostic) (n : Nat) :
    b.room (n + 1) = (b.add d).room n + 1 := by
  have hadd : b.add d = { b with items := b.items ++ [d] } := by simp [add, h]
  have hroom : 0 < b.limit → ¬ b.limit ≤ b.items.length := by simpa [isFull] using h
  rw [hadd]
  unfold room
  split_ifs with hlimit
  · have := hroom hlimit
    simp only [List.length_append, List.length_singleton]
    omega
  · rfl

lemma isFull_add {b : Bag} (h : b.isFull = true) (d : Diagnostic) :
    (b.add d).isFull = true ∧ (b.add d).items = b.items := by
  cases hs : d.severity <;> simp_all [add, isFull]

/-- **Many diagnostics**: the first ones are kept, as many as there is room for. -/
lemma items_addAll (ds : List Diagnostic) (b : Bag) :
    (b.addAll ds).items = b.items ++ ds.take (b.room ds.length) := by
  induction ds generalizing b with
  | nil => simp [addAll]
  | cons d ds ih =>
    rw [show b.addAll (d :: ds) = (b.add d).addAll ds from rfl, ih]
    cases hfull : b.isFull with
    | true =>
      obtain ⟨hstill, hitems⟩ := isFull_add hfull d
      rw [room_of_full hfull, room_of_full hstill, hitems]
      simp
    | false =>
      have hitems : (b.add d).items = b.items ++ [d] := by simp [add, hfull]
      rw [List.length_cons, room_succ hfull d, hitems]
      simp

lemma dropped_add_of_full {b : Bag} (h : b.isFull = true) {d : Diagnostic}
    (hd : Counted d.severity) : (b.add d).dropped = b.dropped + 1 := by
  rcases hd with hd | hd
  · simp [add, h, hd, dropped, Nat.add_assoc]
  · simp only [add, h, hd, dropped, if_true]
    omega

/-- **Many diagnostics**: those that are not kept are counted. -/
lemma dropped_addAll {ds : List Diagnostic} (hds : ∀ d ∈ ds, Counted d.severity) (b : Bag) :
    (b.addAll ds).dropped = b.dropped + (ds.drop (b.room ds.length)).length := by
  induction ds generalizing b with
  | nil => simp [addAll]
  | cons d ds ih =>
    have hrest := ih fun e he => hds e (List.mem_cons_of_mem d he)
    rw [show b.addAll (d :: ds) = (b.add d).addAll ds from rfl, hrest]
    cases hfull : b.isFull with
    | true =>
      have hstill := (isFull_add hfull d).1
      rw [room_of_full hfull, room_of_full hstill,
        dropped_add_of_full hfull (hds d List.mem_cons_self)]
      simp only [List.drop_zero, List.length_cons]
      omega
    | false =>
      have hdropped : (b.add d).dropped = b.dropped := by simp [add, hfull, dropped]
      rw [List.length_cons, room_succ hfull d, hdropped, List.drop_succ_cons]

lemma count_limit (m n : Int) (ds : List Diagnostic) {s : Severity} (hs : Counted s) :
    ((empty m).addAll ds).count s = ((empty n).addAll ds).count s := by
  have hzero : ∀ k, (empty k).count s = 0 := by
    intro k
    rcases hs with rfl | rfl
    · rfl
    · rfl
  rw [count_addAll ds _ hs, count_addAll ds _ hs, hzero m, hzero n]

lemma failed_limit (m n : Int) (ds : List Diagnostic) (warningsAsErrors : Bool) :
    ((empty m).addAll ds).failed warningsAsErrors =
      ((empty n).addAll ds).failed warningsAsErrors := by
  simp only [failed, hasErrors, hasWarnings, count_limit m n ds (.inl rfl : Counted .error),
    count_limit m n ds (.inr rfl : Counted .warning)]

end Bag

end StateBuffer
