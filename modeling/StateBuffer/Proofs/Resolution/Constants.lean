import StateBuffer.Proofs.Resolution.Chains
import StateBuffer.Resolution.Constants

/-!
Values known at compile time. A constant has a value exactly when its references lead through
constants to a literal that fits, whatever was worked out and remembered before.
-/

namespace StateBuffer

namespace Resolution

open Relation

/-- The value of the item `a` is a literal of these digits. -/
def Spells (r : Resolution) (a : ItemId) (digits : Bytes) : Prop :=
  ∃ d e, r.tree.definition? a = some d ∧ r.tree.expr? d.definition.value = some e ∧
    e.body = .literal digits

def IsConst (r : Resolution) (a : ItemId) : Prop :=
  ∃ d, r.tree.definition? a = some d ∧ d.definition.kind = .const

/-- The value of the constant `a` refers to the constant `b`. -/
def FoldsTo (r : Resolution) (a b : ItemId) : Prop :=
  IsConst r a ∧ ∃ span d, r.follow? a = some (span, d) ∧ d.definition.kind = .const ∧ d.item = b

/-- References lead from a constant through constants to a literal of this value. -/
inductive Folds (r : Resolution) : ItemId → Int32 → Prop where
  | literal {a : ItemId} {digits : Bytes} {v : Int32} (hk : IsConst r a)
      (h : Spells r a digits) (hv : Literal.value? digits = some v) : Folds r a v
  | refers {a b : ItemId} {v : Int32} (hab : FoldsTo r a b) (hb : Folds r b v) : Folds r a v

/-! ### What a value can be -/

section Values

variable {r : Resolution} {a b : ItemId} {v : Int32} {d : Declared} {e : Expr}
  (hd : r.tree.definition? a = some d)

include hd

lemma follow?_of_name (he : r.tree.expr? d.definition.value = some e) {name : Bytes}
    (hb : e.body = .name name) :
    r.follow? a = (r.binding? e.node).map fun b => (e.span, b.target) := by
  have href : r.tree.reference? d.definition = some (e, name) := reference?_eq_some.2 ⟨he, hb⟩
  simp only [follow?, hd, href, Option.bind_eq_bind, Option.bind_some]
  cases r.binding? e.node <;> rfl

lemma not_spells_of_name (he : r.tree.expr? d.definition.value = some e) {name : Bytes}
    (hb : e.body = .name name) (digits : Bytes) : ¬ Spells r a digits := by
  rintro ⟨d', e', hd', he', hb'⟩
  obtain rfl := Option.some.inj (hd.symm.trans hd')
  obtain rfl := Option.some.inj (he.symm.trans he')
  rw [hb] at hb'
  exact ExprBody.noConfusion hb'

omit hd in
lemma Spells.follow? {digits : Bytes} (h : Spells r a digits) : r.follow? a = none := by
  obtain ⟨d, e, hd, he, hb⟩ := h
  have href : r.tree.reference? d.definition = none := by simp [Tree.reference?, he, hb]
  simp [Resolution.follow?, hd, href]

omit hd in
lemma Spells.unique {digits digits' : Bytes} (h : Spells r a digits) (h' : Spells r a digits') :
    digits = digits' := by
  obtain ⟨d, e, hd, he, hb⟩ := h
  obtain ⟨d', e', hd', he', hb'⟩ := h'
  obtain rfl := Option.some.inj (hd.symm.trans hd')
  obtain rfl := Option.some.inj (he.symm.trans he')
  exact ExprBody.literal.inj (hb.symm.trans hb')

end Values

section Folds

variable {r : Resolution} {a b : ItemId} {v : Int32}

lemma FoldsTo.unique {c : ItemId} (h : FoldsTo r a b) (h' : FoldsTo r a c) : b = c := by
  obtain ⟨-, span, d, hf, -, rfl⟩ := h
  obtain ⟨-, span', d', hf', -, rfl⟩ := h'
  rw [hf] at hf'
  rw [(Prod.mk.inj (Option.some.inj hf')).2]

lemma Spells.not_foldsTo {digits : Bytes} (h : Spells r a digits) : ¬ FoldsTo r a b := by
  rintro ⟨-, span, d, hf, -⟩
  simp [h.follow?] at hf

lemma folds_literal_iff {digits : Bytes} (hk : IsConst r a) (h : Spells r a digits) :
    Folds r a v ↔ Literal.value? digits = some v := by
  refine ⟨fun hf => ?_, .literal hk h⟩
  cases hf with
  | literal _ h' hv => rwa [h.unique h']
  | refers hab => exact absurd hab h.not_foldsTo

lemma FoldsTo.folds_iff (h : FoldsTo r a b) : Folds r a v ↔ Folds r b v := by
  refine ⟨fun hf => ?_, .refers h⟩
  cases hf with
  | literal _ hs => exact absurd h hs.not_foldsTo
  | refers hab hb => rwa [h.unique hab]

lemma not_folds (hs : ∀ digits, ¬ Spells r a digits) (hf : ∀ b, ¬ FoldsTo r a b) (v : Int32) :
    ¬ Folds r a v := by
  intro h
  cases h with
  | literal _ h => exact hs _ h
  | refers hab => exact hf _ hab

lemma Folds.isConst (h : Folds r a v) : IsConst r a := by
  cases h with
  | literal hk => exact hk
  | refers hab => exact hab.1

lemma Folds.not_circular (h : Folds r a v) : ¬ TransGen (FoldsTo r) a a := by
  induction h with
  | literal _ hs =>
    intro hcycle
    obtain ⟨c, hac, -⟩ := TransGen.head'_iff.1 hcycle
    exact hs.not_foldsTo hac
  | refers hab _ ih =>
    intro hcycle
    obtain ⟨c, hac, hca⟩ := TransGen.head'_iff.1 hcycle
    obtain rfl := hab.unique hac
    exact ih (.tail' hca hab)

end Folds

/-! ### Folding with a cache -/

/-- The result says the value of the constant `a`, if it has one. -/
def Tells (r : Resolution) (a : ItemId) (value : Option Int32) : Prop :=
  ∀ v, value = some v ↔ Folds r a v

/-- Every remembered value is right. -/
def Faithful (r : Resolution) (cache : ConstantCache) : Prop :=
  ∀ a value, (a, value) ∈ cache → Tells r a value

section Cache

variable {r : Resolution}

lemma tells_none {a : ItemId} (h : ∀ v, ¬ Folds r a v) : Tells r a none :=
  fun v => ⟨fun hv => by simp at hv, fun hv => absurd hv (h v)⟩

lemma faithful_nil : Faithful r [] := fun _ _ h => absurd h List.not_mem_nil

lemma Faithful.cons {cache : ConstantCache} (h : Faithful r cache) {a : ItemId}
    {value : Option Int32} (hv : Tells r a value) : Faithful r ((a, value) :: cache) := by
  intro a' value' hmem
  rcases List.mem_cons.1 hmem with he | hmem
  · obtain ⟨rfl, rfl⟩ := Prod.mk.inj he
    exact hv
  · exact h a' value' hmem

section Tells

variable {item : ItemId} {d : Declared} {e : Expr} (hd : r.tree.definition? item = some d)

lemma tells_undefined (hnone : r.tree.definition? item = none) : Tells r item none := by
  refine tells_none fun v hv => ?_
  obtain ⟨d, hd, -⟩ := hv.isConst
  simp [hnone] at hd

include hd

lemma tells_skipped
    (hskip : d.definition.kind ≠ .const ∨ TransGen (FoldsTo r) item item) : Tells r item none := by
  refine tells_none fun v hv => ?_
  obtain ⟨d', hd', hk⟩ := hv.isConst
  obtain rfl := Option.some.inj (hd.symm.trans hd')
  exact hv.not_circular (hskip.resolve_left (not_not.2 hk))

lemma tells_missing (hnone : r.tree.expr? d.definition.value = none) : Tells r item none := by
  have hspells : ∀ digits, ¬ Spells r item digits := by
    rintro digits ⟨d', e, hd', he', -⟩
    obtain rfl := Option.some.inj (hd.symm.trans hd')
    simp [hnone] at he'
  have hfollow : r.follow? item = none := by simp [follow?, hd, Tree.reference?, hnone]
  exact tells_none (not_folds hspells (by simp [FoldsTo, hfollow]))

variable (he : r.tree.expr? d.definition.value = some e)

include he

lemma tells_literal (hk : d.definition.kind = .const) {digits : Bytes}
    (hb : e.body = .literal digits) : Tells r item (Literal.value? digits) :=
  fun _ => (folds_literal_iff ⟨d, hd, hk⟩ ⟨d, e, hd, he, hb⟩).symm

variable {name : Bytes} (hb : e.body = .name name)

include hb

lemma tells_unbound
    (hbind : ∀ b, r.binding? e.node = some b → b.target.definition.kind ≠ .const) :
    Tells r item none := by
  refine tells_none (not_folds (not_spells_of_name hd he hb) ?_)
  rintro b ⟨-, span, d', hf, hk, -⟩
  rw [follow?_of_name hd he hb] at hf
  obtain ⟨b', hb', he'⟩ := Option.map_eq_some_iff.1 hf
  exact hbind b' hb' ((Prod.mk.inj he').2 ▸ hk)

lemma foldsTo_of_binding (hk : d.definition.kind = .const) {b : Binding}
    (hbind : r.binding? e.node = some b) (hk' : b.target.definition.kind = .const) :
    FoldsTo r item b.target.item := by
  have hfollow := follow?_of_name hd he hb
  rw [hbind] at hfollow
  exact ⟨⟨d, hd, hk⟩, e.span, b.target, hfollow, hk', rfl⟩

end Tells

/-- **Following a constant** gives its value if it has one. The constants on the way are all
different, so there is always a step left. -/
lemma foldConstant_spec {fuel : Nat} {visiting : List ItemId} {item : ItemId}
    {cache : ConstantCache} (hcache : Faithful r cache) (hnodup : visiting.Nodup)
    (hreach : ∀ x ∈ visiting, TransGen (FoldsTo r) x item)
    (hfuel : r.tree.items.size + 1 ≤ visiting.length + fuel) :
    Tells r item (r.foldConstant fuel visiting item cache).1 ∧
      Faithful r (r.foldConstant fuel visiting item cache).2 := by
  induction fuel generalizing visiting item cache with
  | zero =>
    have hlen := Tree.length_le_of_definitions hnodup fun x hx => by
      obtain ⟨y, ⟨⟨d, hd, -⟩, -⟩, -⟩ := TransGen.head'_iff.1 (hreach x hx)
      exact ⟨d, hd⟩
    omega
  | succ fuel ih =>
    rw [foldConstant]
    cases hfind : cache.find? fun entry => entry.1 = item with
    | some entry =>
      obtain ⟨id, value⟩ := entry
      have hid : id = item := by simpa using List.find?_some hfind
      have hmem := List.mem_of_find?_eq_some hfind
      rw [hid] at hmem
      exact ⟨hcache item value hmem, hcache⟩
    | none =>
      cases hd : r.tree.definition? item with
      | none => exact ⟨tells_undefined hd, hcache⟩
      | some d =>
        simp only
        split_ifs with hskip
        · exact ⟨tells_skipped hd (hskip.imp_right (hreach item)), hcache⟩
        · obtain ⟨hk, hfresh⟩ := not_or.1 hskip
          cases he : r.tree.expr? d.definition.value with
          | none => exact ⟨tells_missing hd he, hcache.cons (tells_missing hd he)⟩
          | some e =>
            cases hb : e.body with
            | literal digits =>
              have htells := tells_literal hd he (not_not.1 hk) hb
              simp only [Option.map_some, hb]
              exact ⟨htells, hcache.cons htells⟩
            | name name =>
              simp only [Option.map_some, hb]
              cases hbind : r.binding? e.node with
              | none =>
                have hnone := tells_unbound hd he hb (by simp [hbind])
                exact ⟨hnone, hcache.cons hnone⟩
              | some b =>
                simp only
                split_ifs with hvar
                · have hnone := tells_unbound hd he hb (by simpa [hbind] using hvar)
                  exact ⟨hnone, hcache.cons hnone⟩
                · have hstep := foldsTo_of_binding hd he hb (not_not.1 hk) hbind (not_not.1 hvar)
                  obtain ⟨hv, hc⟩ := ih hcache (List.nodup_cons.2 ⟨hfresh, hnodup⟩)
                    (fun x hx => by
                      rcases List.mem_cons.1 hx with rfl | hx
                      · exact .single hstep
                      · exact (hreach x hx).tail hstep)
                    (by rw [List.length_cons]; omega)
                  have htells : Tells r item _ := fun v => (hv v).trans hstep.folds_iff.symm
                  exact ⟨htells, hc.cons htells⟩

/-- **The value of a constant** does not depend on what was remembered. -/
theorem constant_spec {cache : ConstantCache} (hcache : Faithful r cache) (item : ItemId) :
    Tells r item (r.constant item cache).1 ∧ Faithful r (r.constant item cache).2 :=
  foldConstant_spec hcache List.nodup_nil (by simp) (by simp)

/-- The constants on the way are all different, so more steps change nothing. -/
lemma foldConstant_fuel {steps fuel : Nat} {visiting : List ItemId} {item : ItemId}
    {cache : ConstantCache} (hnodup : visiting.Nodup)
    (hdefined : ∀ x ∈ visiting, ∃ d, r.tree.definition? x = some d)
    (hsteps : r.tree.items.size + 1 ≤ visiting.length + steps) (hfuel : steps ≤ fuel) :
    r.foldConstant fuel visiting item cache = r.foldConstant steps visiting item cache := by
  induction steps generalizing fuel visiting item with
  | zero =>
    have := Tree.length_le_of_definitions hnodup hdefined
    omega
  | succ steps ih =>
    obtain ⟨fuel, rfl⟩ : ∃ n, fuel = n + 1 := ⟨fuel - 1, by omega⟩
    rw [foldConstant, foldConstant]
    cases cache.find? fun entry => entry.1 = item with
    | some entry => rfl
    | none =>
      cases hd : r.tree.definition? item with
      | none => rfl
      | some d =>
        by_cases hskip : d.definition.kind ≠ .const ∨ item ∈ visiting
        · simp only [if_pos hskip]
        · have hmore : ∀ b, r.foldConstant fuel (item :: visiting) b cache =
              r.foldConstant steps (item :: visiting) b cache := fun b =>
            ih (List.nodup_cons.2 ⟨(not_or.1 hskip).2, hnodup⟩)
              (List.forall_mem_cons.2 ⟨⟨d, hd⟩, hdefined⟩)
              (by rw [List.length_cons]; omega) (by omega)
          simp only [if_neg hskip, hmore]

end Cache

/-! ### Questions in any order -/

/-- A question for a value known at compile time. -/
inductive Question where
  | constant (item : ItemId)
  | value (e : Expr)
  deriving DecidableEq, Repr

/-- The answer to a question, and what is remembered after it. -/
def Question.answer (r : Resolution) : Question → ConstantCache → Option Int32 × ConstantCache
  | .constant item, cache => r.constant item cache
  | .value e, cache => r.exprValue e cache

def answers (r : Resolution) : List Question → ConstantCache → List (Option Int32)
  | [], _ => []
  | q :: qs, cache => (q.answer r cache).1 :: answers r qs (q.answer r cache).2

/-- References lead from the constant `a` through constants to a literal, and this is its value. -/
def Computes (r : Resolution) (a : ItemId) (v : Int32) : Prop :=
  ∃ b digits, ReflTransGen (FoldsTo r) a b ∧ IsConst r b ∧ Spells r b digits ∧
    Literal.integer? digits = some v.toInt

/-- The value that a question asks for. -/
inductive Question.Asks (r : Resolution) : Question → Int32 → Prop where
  | constant {item : ItemId} {v : Int32} (h : Computes r item v) : Asks r (.constant item) v
  | literal {e : Expr} {digits : Bytes} {v : Int32} (hb : e.body = .literal digits)
      (h : Literal.integer? digits = some v.toInt) : Asks r (.value e) v
  | name {e : Expr} {name : Bytes} {b : Binding} {v : Int32} (hb : e.body = .name name)
      (hbind : r.binding? e.node = some b) (hk : b.target.definition.kind = .const)
      (h : Computes r b.target.item v) : Asks r (.value e) v

section Questions

variable {r : Resolution}

lemma value?_eq_some {digits : Bytes} {v : Int32} :
    Literal.value? digits = some v ↔ Literal.integer? digits = some v.toInt := by
  unfold Literal.value?
  cases Literal.integer? digits with
  | none => simp
  | some i =>
    have hlow := v.le_toInt
    have hhigh := v.toInt_lt
    simp only [Literal.fits, Bool.and_eq_true, decide_eq_true_eq, Option.some.injEq]
    split_ifs with hfits
    · rw [Option.some.injEq]
      constructor
      · rintro rfl
        exact (Int32.toInt_ofInt_of_le (by omega) (by omega)).symm
      · rintro rfl
        exact Int32.ofInt_toInt v
    · refine iff_of_false (by simp) ?_
      rintro rfl
      omega

/-- Values at compile time by following references one at a time, and by the whole way. -/
lemma folds_iff_computes {a : ItemId} {v : Int32} : Folds r a v ↔ Computes r a v := by
  constructor
  · intro h
    induction h with
    | literal hk hs hv => exact ⟨_, _, .refl, hk, hs, value?_eq_some.1 hv⟩
    | refers hab _ ih =>
      obtain ⟨b, digits, hway, hk, hs, hv⟩ := ih
      exact ⟨b, digits, .head hab hway, hk, hs, hv⟩
  · rintro ⟨b, digits, hway, hk, hs, hv⟩
    induction hway using ReflTransGen.head_induction_on with
    | refl => exact .literal hk hs (value?_eq_some.2 hv)
    | head hab _ ih => exact .refers hab ih

/-- **One question** is answered rightly, and what is remembered stays right. -/
lemma Question.answer_spec {cache : ConstantCache} (hcache : Faithful r cache) (q : Question) :
    (∀ v, (q.answer r cache).1 = some v ↔ q.Asks r v) ∧ Faithful r (q.answer r cache).2 := by
  cases q with
  | constant item =>
    obtain ⟨htells, hcache'⟩ := constant_spec hcache item
    refine ⟨fun v => (htells v).trans (folds_iff_computes.trans ⟨.constant, ?_⟩), hcache'⟩
    rintro ⟨h⟩
    exact h
  | value e =>
    simp only [answer, exprValue]
    cases hb : e.body with
    | literal digits =>
      refine ⟨fun v => value?_eq_some.trans ⟨.literal hb, fun h => ?_⟩, hcache⟩
      cases h with
      | literal hb' h => rwa [ExprBody.literal.inj (hb.symm.trans hb')]
      | name hb' => simp [hb] at hb'
    | name name =>
      have hname : ∀ {v}, Question.Asks r (.value e) v ↔ ∃ b, r.binding? e.node = some b ∧
          b.target.definition.kind = .const ∧ Computes r b.target.item v := by
        intro v
        refine ⟨fun h => ?_, fun ⟨b, hbind, hk, h⟩ => .name hb hbind hk h⟩
        cases h with
        | literal hb' => simp [hb] at hb'
        | name _ hbind hk h => exact ⟨_, hbind, hk, h⟩
      cases hbind : r.binding? e.node with
      | none => exact ⟨fun v => by simp [hname, hbind], hcache⟩
      | some b =>
        by_cases hk : b.target.definition.kind = .const
        · obtain ⟨htells, hcache'⟩ := constant_spec hcache b.target.item
          simp only [hk, ne_eq, not_true_eq_false, if_false]
          refine ⟨fun v => (htells v).trans (folds_iff_computes.trans ?_), hcache'⟩
          simp [hname, hbind, hk]
        · simp only [ne_eq, hk, not_false_eq_true, if_true]
          exact ⟨fun v => by simp [hname, hbind, hk], hcache⟩

lemma Question.answer_eq {cache cache' : ConstantCache} (hcache : Faithful r cache)
    (hcache' : Faithful r cache') (q : Question) :
    (q.answer r cache).1 = (q.answer r cache').1 := by
  apply Option.ext
  intro v
  exact ((q.answer_spec hcache).1 v).trans ((q.answer_spec hcache').1 v).symm

/-- **All questions** are answered as if each were the only one. -/
lemma answers_eq {cache : ConstantCache} (hcache : Faithful r cache) (qs : List Question) :
    answers r qs cache = qs.map fun q => (q.answer r []).1 := by
  induction qs generalizing cache with
  | nil => rfl
  | cons q qs ih =>
    rw [answers, List.map_cons, ih (q.answer_spec hcache).2, q.answer_eq hcache faithful_nil]

/-- **Values do not depend on what is remembered.** In every program, questions for values of
constants and of initializers in any order are answered as if each were the only one, and a question
has the value `v` for an answer exactly if `v` is what it asks for: for a constant, the value of a
literal of 32 bits to which references lead from it through constants only. There is always an end:
as many steps as there are items and one more are enough, and more of them change nothing. -/
theorem answers_alone (r : Resolution) :
    (∀ qs, answers r qs [] = qs.map fun q => (q.answer r []).1) ∧
      (∀ q v, (Question.answer r q []).1 = some v ↔ Question.Asks r q v) ∧
      ∀ fuel item cache, r.tree.items.size < fuel →
        r.foldConstant fuel [] item cache = r.constant item cache := by
  refine ⟨answers_eq faithful_nil, fun q => (q.answer_spec faithful_nil).1,
    fun fuel item cache hfuel => ?_⟩
  exact foldConstant_fuel List.nodup_nil (by simp) (by simp) hfuel

/-- Constants that refer to a variable, to nothing, to a literal that does not fit, and to one that
does. -/
def valued : List SourceText :=
  [⟨"m.gpex", "m",
    "var x=1;const A=x;const B=A;const C=2147483648;const D=E;const E=-2147483648;const F=E;",
    false⟩]

example : (Resolution.ofTree (Project.sourcesOf valued) (Project.treeOf valued) "").toOption.map
    (fun r => answers r ([3, 2, 1, 4, 5, 7, 6, 2].map .constant) []) =
      some [none, none, none, none, none, some (-2147483648), some (-2147483648), none] := by
  decide +kernel

end Questions

end Resolution

end StateBuffer
