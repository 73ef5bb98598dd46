import StateBuffer.Proofs.Graph.Peeling
import StateBuffer.Proofs.Resolution.Constants
import StateBuffer.Proofs.Validation

/-!
The values of a program that breaks no rule. Following references from a definition ends at a
literal that fits into 32 bits: every reference is bound, and without cycles the chain has an end.
From a constant it passes constants only, so the value of a constant is known at compile time.
-/

namespace StateBuffer

namespace Resolution

open Relation

/-- References lead from the item to a literal for this integer. -/
inductive Denotes (r : Resolution) : ItemId → Int → Prop where
  | literal {a : ItemId} {digits : Bytes} {i : Int} (h : Spells r a digits)
      (hi : Literal.integer? digits = some i) : Denotes r a i
  | refers {a b : ItemId} {i : Int} (hab : Refers r a b) (hb : Denotes r b i) : Denotes r a i

section Denotes

variable {r : Resolution} {a b : ItemId} {i : Int}

lemma Spells.not_refers {digits : Bytes} (h : Spells r a digits) : ¬ Refers r a b := by
  rintro ⟨span, d, hf, -⟩
  simp [h.follow?] at hf

lemma Denotes.unique {j : Int} (h : Denotes r a i) (h' : Denotes r a j) : i = j := by
  induction h with
  | literal hs hi =>
    cases h' with
    | literal hs' hj =>
      rw [hs.unique hs', hj] at hi
      exact (Option.some.inj hi).symm
    | refers hab => exact absurd hab hs.not_refers
  | refers hab _ ih =>
    cases h' with
    | literal hs => exact absurd hab hs.not_refers
    | refers hab' hb' => exact ih (by rwa [hab.unique hab'])

lemma integer?_of_value? {digits : Bytes} {v : Int32} (hv : Literal.value? digits = some v) :
    ∃ i, Literal.integer? digits = some i ∧ v = Int32.ofInt i := by
  unfold Literal.value? at hv
  split at hv
  · rename_i i hi
    split_ifs at hv
    exact ⟨i, hi, (Option.some.inj hv).symm⟩
  · simp at hv

lemma FoldsTo.refers (h : FoldsTo r a b) : Refers r a b := by
  obtain ⟨-, span, d, hf, -, rfl⟩ := h
  exact refers_of_follow hf

lemma Folds.denotes {v : Int32} (h : Folds r a v) : ∃ i, Denotes r a i ∧ v = Int32.ofInt i := by
  induction h with
  | literal _ hs hv =>
    obtain ⟨i, hi, rfl⟩ := integer?_of_value? hv
    exact ⟨i, .literal hs hi, rfl⟩
  | refers hab _ ih =>
    obtain ⟨i, hi, rfl⟩ := ih
    exact ⟨i, .refers hab.refers hi, rfl⟩

end Denotes

/-! ### Programs that break no rule -/

section Sound

variable {s : SourceSet} {t : Tree} {next : NodeId} {root : Bytes} {r : Resolution}
  (h : t.Numbered s.size next) (hr : Resolved s t root r)
  (hsound : ¬ Validation.Violation s t root r) {d : Declared}

include h hr hsound

/-- **The value of a definition** is a literal that fits or a reference, from a constant only to a
constant. -/
lemma value_cases (hd : t.definition? d.item = some d) :
    (∃ digits i, Spells r d.item digits ∧ Literal.integer? digits = some i ∧
        -2 ^ 31 ≤ i ∧ i ≤ 2 ^ 31 - 1) ∨
      ∃ span d', r.follow? d.item = some (span, d') ∧ t.definition? d'.item = some d' ∧
        (d.definition.kind = .const → d'.definition.kind = .const) := by
  obtain ⟨e, he, hinit⟩ := h.value hd
  cases hb : e.body with
  | literal digits =>
    obtain ⟨i, hi⟩ := hinit.readable digits hb
    refine .inl ⟨digits, i, ⟨d, e, hr.tree ▸ hd, hr.tree ▸ he, hb⟩, hi, ?_⟩
    have hfits : ¬ (i < -2 ^ 31 ∨ 2 ^ 31 - 1 < i) :=
      fun hout => hsound (.outOfBounds hd he hb hi hout)
    omega
  | name name =>
    have href : t.reference? d.definition = some (e, name) := reference?_eq_some.2 ⟨he, hb⟩
    have hfollow := follow?_of_name (hr.tree ▸ hd) (hr.tree ▸ he) hb
    cases hbind : r.binding? e.node with
    | none => exact absurd (.unresolved hd href hbind) hsound
    | some b =>
      rw [hbind, Option.map_some] at hfollow
      refine .inr ⟨e.span, b.target, hfollow, hr.tree ▸ hr.grounded h hfollow, fun hk => ?_⟩
      cases hkind : b.target.definition.kind with
      | const => rfl
      | var => exact absurd (.notConstant hd hk href hbind hkind) hsound

/-- **Every definition has a value**, which fits into 32 bits. -/
theorem exists_denotes (hd : t.definition? d.item = some d) :
    ∃ i, Denotes r d.item i ∧ -2 ^ 31 ≤ i ∧ i ≤ 2 ^ 31 - 1 := by
  classical
  by_contra hno
  -- definitions without a value refer to others without one, so there would be a cycle
  let lost : List Declared := t.declared.filter fun d =>
    ¬ ∃ i, Denotes r d.item i ∧ -2 ^ 31 ≤ i ∧ i ≤ 2 ^ 31 - 1
  have hlost : ∀ d, d ∈ lost ↔ t.definition? d.item = some d ∧
      ¬ ∃ i, Denotes r d.item i ∧ -2 ^ 31 ≤ i ∧ i ≤ 2 ^ 31 - 1 := by
    intro d
    rw [List.mem_filter, h.mem_declared_iff, decide_eq_true_iff]
  have hcycle : ∃ a, TransGen (fun a b : Declared => Refers r b.item a.item) a a := by
    refine Graph.exists_transGen_self (List.ne_nil_of_mem ((hlost d).2 ⟨hd, hno⟩)) fun d hd => ?_
    obtain ⟨hd, hno⟩ := (hlost d).1 hd
    rcases value_cases h hr hsound hd with ⟨digits, i, hs, hi, hfits⟩ | ⟨span, d', hf, hd', -⟩
    · exact absurd ⟨i, .literal hs hi, hfits⟩ hno
    · refine ⟨d', (hlost d').2 ⟨hd', fun ⟨i, hi, hfits⟩ => hno ⟨i, ?_, hfits⟩⟩, refers_of_follow hf⟩
      exact .refers (refers_of_follow hf) hi
  obtain ⟨a, ha⟩ := hcycle
  have hback : TransGen (fun a b : Declared => Refers r a.item b.item) a a :=
    transGen_swap.1 ha
  exact hsound (.circular (hback.lift Declared.item fun _ _ hab => hab))

lemma value?_of_spells (hd : t.definition? d.item = some d) {digits : Bytes}
    (hs : Spells r d.item digits) {i : Int} (hi : Denotes r d.item i) :
    Literal.value? digits = some (Int32.ofInt i) := by
  rcases value_cases h hr hsound hd with ⟨digits', j, hs', hj, hfits⟩ | ⟨span, d', hf, -⟩
  · obtain rfl := hs.unique hs'
    obtain rfl := hi.unique (.literal hs hj)
    have hf : Literal.fits i = true := by
      simp only [Literal.fits, Bool.and_eq_true, decide_eq_true_eq]
      omega
    simp only [Literal.value?, hj, hf, if_true]
  · exact absurd (refers_of_follow hf) hs.not_refers

/-- **Every constant has its value at compile time.** -/
theorem folds_of_denotes (hd : t.definition? d.item = some d) (hk : d.definition.kind = .const)
    {i : Int} (hi : Denotes r d.item i) : Folds r d.item (Int32.ofInt i) := by
  generalize ha : d.item = a at hi
  induction hi generalizing d with
  | @literal a digits i hs hi =>
    subst ha
    exact .literal ⟨d, hr.tree ▸ hd, hk⟩ hs (value?_of_spells h hr hsound hd hs (.literal hs hi))
  | @refers a b i hab _ ih =>
    subst ha
    rcases value_cases h hr hsound hd with ⟨digits, -, hs, -⟩ | ⟨span, d', hf, hd', hk'⟩
    · exact absurd hab hs.not_refers
    · have hb := hab.unique (refers_of_follow hf)
      exact .refers ⟨⟨d, hr.tree ▸ hd, hk⟩, span, d', hf, hk' hk, hb.symm⟩ (ih hd' (hk' hk) hb.symm)

end Sound

end Resolution

end StateBuffer
