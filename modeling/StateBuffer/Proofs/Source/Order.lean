import Mathlib.Order.WellFounded
import Mathlib.Tactic.Common
import StateBuffer.Source.Span

/-!
The order of places: by file, then by start, then by end. No place comes before itself, of two
places one comes first, and there is no endless way down.
-/

namespace StateBuffer

namespace Span

lemma lex_of_before {s t : Span} (h : s.before t = true) :
    Prod.Lex (· < ·) (Prod.Lex (· < ·) (· < ·)) (s.file, s.start.toNat, s.stop.toNat)
      (t.file, t.start.toNat, t.stop.toNat) := by
  have h : s.order t = .lt := by simpa [before] using h
  rw [order, Ordering.then_eq_lt, Ordering.then_eq_lt] at h
  rcases h with h | ⟨h1, h | ⟨h2, h⟩⟩
  · exact .left _ _ (Nat.compare_eq_lt.1 h)
  · rw [show s.file = t.file from Nat.compare_eq_eq.1 h1]
    exact .right _ (.left _ _ (UInt32.lt_iff_toNat_lt.1 (Std.compare_eq_lt.1 h)))
  · rw [show s.file = t.file from Nat.compare_eq_eq.1 h1, Std.LawfulEqOrd.eq_of_compare h2]
    exact .right _ (.right _ (UInt32.lt_iff_toNat_lt.1 (Std.compare_eq_lt.1 h)))

lemma wellFounded_before : WellFounded fun s t : Span => s.before t = true :=
  Subrelation.wf (fun h => lex_of_before h) (InvImage.wf
    (fun s : Span => (s.file, s.start.toNat, s.stop.toNat))
    (WellFounded.prod_lex wellFounded_lt (WellFounded.prod_lex wellFounded_lt wellFounded_lt)))

lemma order_swap (s t : Span) : (s.order t).swap = t.order s := by
  simp only [order, Ordering.swap_then, Std.OrientedCmp.eq_swap (a := t.file) (b := s.file),
    Std.OrientedCmp.eq_swap (a := t.start) (b := s.start),
    Std.OrientedCmp.eq_swap (a := t.stop) (b := s.stop)]

lemma eq_of_order {s t : Span} (h : s.order t = .eq) : s = t := by
  simp only [order, Ordering.then_eq_eq, Std.LawfulEqCmp.compare_eq_iff_eq] at h
  cases s
  cases t
  simpa using h

lemma before_asymm {s t : Span} (h : s.before t = true) : ¬ t.before s = true :=
  wellFounded_before.asymmetric s t h

lemma before_of_not {s t : Span} (h : t.before s = false) (hne : s ≠ t) : s.before t = true := by
  have hswap := order_swap s t
  cases ho : s.order t with
  | lt => simp [before, ho]
  | eq => exact absurd (eq_of_order ho) hne
  | gt =>
    rw [ho] at hswap
    simp [before, ← hswap] at h

lemma before_trans {s t u : Span} (h : s.before t = true) (h' : t.before u = true) :
    s.before u = true := by
  refine before_of_not (Bool.eq_false_iff.2 fun hback => ?_) ?_
  · exact wellFounded_before.asymmetric₃ _ _ _ h h' hback
  · rintro rfl
    exact before_asymm h h'

lemma before_of_lt {s t : Span} (h : s.file < t.file ∨ s.file = t.file ∧ s.start < t.start) :
    s.before t = true := by
  rw [before, decide_eq_true_iff, order, Ordering.then_eq_lt]
  rcases h with h | ⟨hfile, hstart⟩
  · exact .inl (Nat.compare_eq_lt.2 h)
  · rw [Ordering.then_eq_lt]
    exact .inr ⟨Nat.compare_eq_eq.2 hfile, .inl (Std.compare_eq_lt.2 hstart)⟩

end Span

end StateBuffer
