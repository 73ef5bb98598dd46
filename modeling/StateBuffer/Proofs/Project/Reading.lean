import Mathlib.Data.List.TakeDrop
import StateBuffer.Project.Sources

/-!
Files that are read side by side. If all files can be read, their texts are there in order, whoever
wins the race. Otherwise the error is one of the first failures, as many as are read at the same
time, and the race can make it any of these. So without a second failure the race does not show.
-/

namespace StateBuffer

namespace Project

/-! ### The failure that is told -/

lemma firstFailure?_eq_none_iff (race : Nat) {failures : List ReadError} :
    firstFailure? race failures = none ↔ failures = [] := by
  cases failures with
  | nil => simp [firstFailure?]
  | cons e failures =>
    have hstarted : 0 < ((e :: failures).take parallelReads).length := by simp [parallelReads]
    simp only [firstFailure?, List.getElem?_eq_none_iff, reduceCtorEq, iff_false]
    omega

/-- **The race** can make any failure that begins early enough the one that is told, and no other.
-/
theorem exists_firstFailure?_iff {failures : List ReadError} {e : ReadError} :
    (∃ race, firstFailure? race failures = some e) ↔ e ∈ failures.take parallelReads := by
  constructor
  · rintro ⟨race, h⟩
    exact List.mem_of_getElem? h
  · intro h
    obtain ⟨race, hrace⟩ := List.getElem?_of_mem h
    have hlt := (List.getElem?_eq_some_iff.1 hrace).1
    refine ⟨race, ?_⟩
    simp only [firstFailure?]
    rw [Nat.min_eq_left (by omega), hrace]

/-- Without a second failure there is nothing to race for. -/
lemma firstFailure?_of_length_le_one {failures : List ReadError} (h : failures.length ≤ 1)
    (race : Nat) : firstFailure? race failures = failures.head? := by
  match failures with
  | [] => rfl
  | [e] => simp [firstFailure?, parallelReads]
  | _ :: _ :: _ => simp at h

/-! ### All files -/

section Results

variable {results : List (Except ReadError SourceText)}

lemma map_ok_of_failuresOf (h : failuresOf results = []) :
    results = (results.filterMap Except.toOption).map .ok := by
  induction results with
  | nil => rfl
  | cons result results ih =>
    cases result with
    | error e => simp [failuresOf] at h
    | ok text => exact congrArg (Except.ok text :: ·) (ih (by simpa [failuresOf] using h))

lemma failuresOf_map_ok (texts : List SourceText) : failuresOf (texts.map .ok) = [] := by
  simp [failuresOf, List.filterMap_map]

end Results

variable {fs : FileSystem} {race : Nat} {root : Bytes} {paths : List Bytes}

/-- **All texts are there** exactly if each file can be read. -/
theorem readAll_eq_ok_iff {texts : List SourceText} :
    readAll fs race root paths = .ok texts ↔ paths.map (readSource fs root) = texts.map .ok := by
  unfold readAll
  constructor
  · intro h
    cases hfirst : firstFailure? race (failuresOf (paths.map (readSource fs root))) with
    | some e => simp [hfirst] at h
    | none =>
      simp only [hfirst, Except.ok.injEq] at h
      rw [← h]
      exact map_ok_of_failuresOf ((firstFailure?_eq_none_iff race).1 hfirst)
  · intro h
    have hfirst := (firstFailure?_eq_none_iff race).2 (failuresOf_map_ok texts)
    simp only [h, hfirst, List.filterMap_map]
    exact congrArg Except.ok (List.filterMap_some (l := texts))

/-- **Some file cannot be read**: the race chooses the error among the first failures. -/
theorem exists_readAll_eq_error_iff {e : ReadError} :
    (∃ race, readAll fs race root paths = .error e) ↔
      e ∈ (failuresOf (paths.map (readSource fs root))).take parallelReads := by
  rw [← exists_firstFailure?_iff]
  refine exists_congr fun race => ?_
  unfold readAll
  cases hfirst : firstFailure? race (failuresOf (paths.map (readSource fs root))) with
  | none => simp [hfirst]
  | some e' => simp [hfirst]

/-- The failures of all files of a project, in the order of the files. -/
def unreadable (fs : FileSystem) (root : Bytes) : List ReadError :=
  match sourcePaths fs root with
  | .error _ => []
  | .ok paths => failuresOf (paths.map (readSource fs root))

/-- What the race decides: nothing but which error it is, and not even that without a second
failure. -/
theorem readAll_race (fs : FileSystem) (race race' : Nat) (root : Bytes) (paths : List Bytes) :
    (∃ texts, readAll fs race root paths = .ok texts ∧ readAll fs race' root paths = .ok texts) ∨
      ∃ e e', readAll fs race root paths = .error e ∧ readAll fs race' root paths = .error e' ∧
        ((failuresOf (paths.map (readSource fs root))).length ≤ 1 → e = e') := by
  cases hread : readAll fs race root paths with
  | ok texts => exact .inl ⟨texts, rfl, readAll_eq_ok_iff.2 (readAll_eq_ok_iff.1 hread)⟩
  | error e =>
    cases hread' : readAll fs race' root paths with
    | ok texts =>
      rw [readAll_eq_ok_iff.2 (readAll_eq_ok_iff.1 hread')] at hread
      cases hread
    | error e' =>
      refine .inr ⟨e, e', rfl, rfl, fun hfew => ?_⟩
      simp only [readAll, firstFailure?_of_length_le_one hfew] at hread hread'
      exact Except.error.inj (hread.symm.trans hread')

end Project

end StateBuffer
