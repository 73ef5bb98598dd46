import Mathlib.Order.WellFounded
import StateBuffer.Proofs.Resolution.Chains
import StateBuffer.Proofs.Source.Order
import StateBuffer.Validation

/-!
The verdict of validation. A program is refused exactly when it breaks one of seven rules. Three
mechanisms keep a rule's error back: a broken import silences its file, a definition on a cycle or a
repeated one is not checked further, and of a cycle only one member reports. None of them hides all
errors: a silenced file has the error of its import, and in a program without silenced files the
member of a cycle with the least reference reports it.
-/

namespace StateBuffer

/-! ### Errors -/

def HasError (l : List Diagnostic) : Prop := ∃ d ∈ l, d.severity = .error

section HasError

variable {l l' : List Diagnostic}

@[simp] lemma hasError_nil : ¬ HasError [] := by simp [HasError]

@[simp] lemma hasError_append : HasError (l ++ l') ↔ HasError l ∨ HasError l' := by
  simp [HasError, or_and_right, exists_or]

@[simp] lemma hasError_singleton {d : Diagnostic} : HasError [d] ↔ d.severity = .error := by
  simp [HasError]

lemma hasError_flatMap {α : Type} {as : List α} {f : α → List Diagnostic} :
    HasError (as.flatMap f) ↔ ∃ a ∈ as, HasError (f a) := by
  simp only [HasError, List.mem_flatMap]
  grind

@[simp] lemma severity_error (code : Code) (span : Span) (message : Bytes) :
    (Diagnostic.error code span message).severity = .error := rfl

@[simp] lemma severity_warning (code : Code) (span : Span) (message : Bytes) :
    (Diagnostic.warning code span message).severity = .warning := rfl

@[simp] lemma severity_withNote (d : Diagnostic) (span : Span) (message : Bytes) :
    (d.withNote span message).severity = d.severity := rfl

end HasError

namespace Validation

open Resolution Relation

/-! ### The rules -/

inductive Violation (s : SourceSet) (t : Tree) (root : Bytes) (r : Resolution) : Prop where
  /-- An import leads to no file. -/
  | moduleNotFound {id : ItemId} {it : Item} {i : Import} (hi : t.item? id = some it)
      (hb : it.body = .imports i)
      (h : ∀ isPublic target, ¬ t.Imports s root it.file id isPublic target)
  /-- An import comes after a definition of its file. -/
  | importNotAtTop {id : ItemId} {it : Item} {i : Import} {d : Declared}
      (hi : t.item? id = some it) (hb : it.body = .imports i)
      (hd : t.definition? d.item = some d) (hf : d.file = it.file) (h : d.item < id)
  /-- A definition reaches itself by following references. -/
  | circular {id : ItemId} (h : TransGen (Refers r) id id)
  /-- A file defines a name twice. -/
  | duplicate {file : FileId} {name : Bytes} {d d' : Declared} (hd : t.Defines file name d)
      (hd' : t.Defines file name d') (h : d ≠ d')
  /-- A name is bound to nothing. -/
  | unresolved {d : Declared} {e : Expr} {name : Bytes} (hd : t.definition? d.item = some d)
      (he : t.reference? d.definition = some (e, name)) (h : r.binding? e.node = none)
  /-- A literal does not fit into 32 bits with a sign. -/
  | outOfBounds {d : Declared} {e : Expr} {digits : Bytes} {i : Int}
      (hd : t.definition? d.item = some d) (he : t.expr? d.definition.value = some e)
      (hb : e.body = .literal digits) (hi : Literal.integer? digits = some i)
      (h : i < -2 ^ 31 ∨ 2 ^ 31 - 1 < i)
  /-- A constant refers to a variable. -/
  | notConstant {d : Declared} {e : Expr} {name : Bytes} {b : Binding}
      (hd : t.definition? d.item = some d) (hk : d.definition.kind = .const)
      (he : t.reference? d.definition = some (e, name)) (hb : r.binding? e.node = some b)
      (h : b.target.definition.kind = .var)

/-! ### Style gives no errors -/

lemma not_hasError_checkSnakeCase (name : Bytes) (span : Span) :
    ¬ HasError (checkSnakeCase name span) := by
  unfold checkSnakeCase
  split_ifs <;> simp

lemma not_hasError_checkScreamingSnakeCase (name : Bytes) (span : Span) :
    ¬ HasError (checkScreamingSnakeCase name span) := by
  unfold checkScreamingSnakeCase
  split_ifs <;> simp

lemma not_hasError_checkSingleCharacter (name : Bytes) (span : Span) :
    ¬ HasError (checkSingleCharacter name span) := by
  unfold checkSingleCharacter
  split_ifs <;> simp

lemma not_hasError_checkUsage (r : Resolution) (d : Declared) : ¬ HasError (checkUsage r d) := by
  simp only [checkUsage]
  split <;> simp

/-! ### Imports -/

section Imports

variable {s : SourceSet} {t : Tree} {next : NodeId} {root : Bytes} {r : Resolution}

/-- The item is an import that leads to no file. -/
def Lost (s : SourceSet) (t : Tree) (root : Bytes) (id : ItemId) : Prop :=
  ∃ it i, t.item? id = some it ∧ it.body = .imports i ∧
    ∀ isPublic target, ¬ t.Imports s root it.file id isPublic target

def IsImport (t : Tree) (id : ItemId) : Prop := ∃ it i, t.item? id = some it ∧ it.body = .imports i

lemma edge?_unmarked (hr : Resolved s t root r) (id : ItemId) :
    (r.imports.edge? id).map ImportEdge.unmarked = (ImportIndex.ofTree s t root).edge? id := by
  rw [ImportIndex.edge?, ImportIndex.edge?, ← hr.edges, List.find?_map]
  rfl

lemma edge?_import (h : t.Numbered s.size next) (hr : Resolved s t root r) {id : ItemId}
    {it : Item} {i : Import} (hi : t.item? id = some it) (hb : it.body = .imports i) :
    ∃ edge target tried, r.imports.edge? id = some edge ∧
      ImportIndex.resolve s root it.file i = .ok (target, tried) ∧
      edge.unmarked = ⟨id, it.file, i.isPublic, target, i.dotPath, tried, false⟩ := by
  have himp : t.importOf? id = some i := by
    obtain ⟨file, span, body⟩ := it
    obtain rfl := hb
    simp [Tree.importOf?, hi]
  have hplace := h.mem_places_iff.2 ⟨it, hi, rfl⟩
  obtain ⟨⟨n, hn, hfile⟩, -⟩ := h.place_file hplace
  have hmem : it.file ∈ s.ids := List.mem_map.2 ⟨n, List.mem_range.2 hn, hfile.symm⟩
  obtain ⟨target, tried, hres⟩ := ImportIndex.resolve_ok hmem root i
  have hedge := find?_key (ImportIndex.pairwise_edges h root) (List.mem_filterMap.2
    ⟨_, hplace, ImportIndex.edgeOf?_eq_some.2 ⟨i, himp, target, tried, hres, rfl⟩⟩)
  obtain ⟨edge, he, hmark⟩ := Option.map_eq_some_iff.1 ((edge?_unmarked hr id).trans hedge)
  exact ⟨edge, target, tried, he, hres, hmark⟩

lemma edge?_isSome (h : t.Numbered s.size next) (hr : Resolved s t root r) {id : ItemId}
    {it : Item} {i : Import} (hi : t.item? id = some it) (hb : it.body = .imports i) :
    ∃ edge, r.imports.edge? id = some edge ∧ (edge.target = none ↔ Lost s t root id) := by
  obtain ⟨edge, target, tried, he, hres, hmark⟩ := edge?_import h hr hi hb
  refine ⟨edge, he, ?_⟩
  rw [show edge.target = target from congrArg ImportEdge.target hmark]
  constructor
  · rintro rfl
    refine ⟨it, i, hi, hb, ?_⟩
    rintro isPublic target ⟨it', i', tried', hi', -, hb', -, hres'⟩
    obtain rfl := Option.some.inj (hi.symm.trans hi')
    obtain rfl := ItemBody.imports.inj (hb.symm.trans hb')
    rw [hres] at hres'
    simp at hres'
  · rintro ⟨it', i', hi', hb', hlost⟩
    obtain rfl := Option.some.inj (hi.symm.trans hi')
    obtain rfl := ItemBody.imports.inj (hb.symm.trans hb')
    cases target with
    | none => rfl
    | some target => exact absurd ⟨it, i, tried, hi, rfl, hb, rfl, hres⟩ (hlost i.isPublic target)

/-- **An import** passes unless it leads to no file or comes too late, and then it has an error. -/
lemma checkImport_spec {id : ItemId} {edge : ImportEdge} (he : r.imports.edge? id = some edge)
    (span : Span) (i : Import) (after : Bool) :
    (HasError (checkImport r id span i after).1 ↔ (checkImport r id span i after).2 = false) ∧
      ((checkImport r id span i after).2 = false ↔ edge.target = none ∨ after = true) := by
  simp only [checkImport, he]
  by_cases hnone : edge.target = none
  · simp [hnone]
  · rw [if_neg (by simpa using hnone)]
    cases after with
    | true => simp
    | false =>
      have husage : ¬ HasError
          (if edge.isSelfImport then
            [Diagnostic.warning Code.selfImport span "module imports itself"]
          else if !edge.isPublic && !edge.used then
            [Diagnostic.warning Code.unusedImport span ("`" ++ edge.dotPath ++ "` import unused")]
          else []) := by
        split_ifs <;> simp
      simp only [Bool.false_eq_true, if_false, hasError_append, or_false, hnone]
      refine ⟨iff_of_false (not_or.2 ⟨husage, ?_⟩) (by simp), by simp⟩
      -- the style of the path
      rw [hasError_flatMap]
      rintro ⟨segment, -, h⟩
      cases segment with
      | parent span => exact hasError_nil h
      | name name span => exact not_hasError_checkSnakeCase name span h

/-- One of the items is an import that leads to no file, or that comes after a definition among them
or, if so told, before them. -/
def Broken (s : SourceSet) (t : Tree) (root : Bytes) (after : Bool) (ids : List ItemId) : Prop :=
  ∃ id ∈ ids, IsImport t id ∧ (Lost s t root id ∨ after = true ∨
    ∃ id' ∈ ids, (t.definition? id').isSome ∧ id' < id)

lemma checkImports_spec (h : t.Numbered s.size next) (hr : Resolved s t root r)
    {ids : List ItemId} (hasc : ids.Pairwise (· < ·)) (after : Bool) :
    (HasError (checkImports r after ids).1 ↔ (checkImports r after ids).2 = false) ∧
      ((checkImports r after ids).2 = false ↔ Broken s t root after ids) := by
  induction ids generalizing after with
  | nil => simp [checkImports, Broken]
  | cons id ids ih =>
    obtain ⟨hlt, hasc⟩ := List.pairwise_cons.1 hasc
    have hnot : ∀ id' ∈ ids, ¬ id' < id := fun id' hid' => Nat.lt_asymm (hlt id' hid')
    rcases hi : t.item? id with _ | ⟨file, span, i | d⟩
    · have himp : ¬ IsImport t id := by simp [IsImport, hi]
      have hdef : t.definition? id = none := by simp [Tree.definition?, hi]
      simp only [checkImports, hr.tree, hi, ih hasc, true_and]
      simp [Broken, himp, hdef]
    · have himp : IsImport t id := ⟨_, i, hi, rfl⟩
      have hdef : t.definition? id = none := by simp [Tree.definition?, hi]
      obtain ⟨edge, he, hlost⟩ := edge?_isSome h hr hi rfl
      obtain ⟨h1, h2⟩ := checkImport_spec he span i after
      obtain ⟨h3, h4⟩ := ih hasc after
      simp only [checkImports, hr.tree, hi, hasError_append, Bool.and_eq_false_iff, h1, h3,
        true_and]
      rw [h2, h4, hlost]
      simp only [Broken, List.mem_cons, exists_eq_or_imp, himp, true_and, hdef, Option.isSome_none,
        Bool.false_eq_true, false_and, false_or]
      refine or_congr_left (or_congr_right (or_iff_left ?_).symm)
      rintro ⟨id', hid', -, hbefore⟩
      exact hnot id' hid' hbefore
    · have himp : ¬ IsImport t id := by simp [IsImport, hi]
      have hdef : (t.definition? id).isSome := by simp [Tree.definition?, hi]
      simp only [checkImports, hr.tree, hi, ih hasc, true_and]
      simp only [Broken, List.mem_cons, exists_eq_or_imp, himp, false_and, false_or, hdef, true_and,
        true_or, or_true, and_true]
      refine exists_congr fun id' => and_congr_right fun hid' => ?_
      simp [hlt id' hid']

end Imports

/-! ### Definitions -/

section Definitions

variable {s : SourceSet} {t : Tree} {next : NodeId} {root : Bytes} {r : Resolution} {d : Declared}

lemma hasError_circularError (c : Cycle) : HasError (circularError d c) ↔ c.isReported = true := by
  unfold circularError
  cases c.isReported with
  | false => simp
  | true =>
    simp only [Bool.not_true, Bool.false_eq_true, if_false, hasError_singleton, iff_true]
    rfl

lemma value?_eq_none {digits : Bytes} {i : Int} (hi : Literal.integer? digits = some i) :
    Literal.value? digits = none ↔ i < -2 ^ 31 ∨ 2 ^ 31 - 1 < i := by
  simp only [Literal.value?, hi, Literal.fits, Bool.and_eq_true, decide_eq_true_eq]
  split_ifs with hfits
  · simp only [false_iff]
    omega
  · simp only [true_iff]
    omega

lemma severity_unresolvedError (file : FileId) (e : Expr) (name : Bytes) :
    (unresolvedError r file e name).severity = .error := by
  simp only [unresolvedError]
  split <;> rfl

/-- The value of a definition breaks a rule. -/
inductive Misvalued (t : Tree) (r : Resolution) (d : Declared) : Prop where
  | unresolved {e : Expr} {name : Bytes} (he : t.reference? d.definition = some (e, name))
      (h : r.binding? e.node = none)
  | outOfBounds {e : Expr} {digits : Bytes} {i : Int} (he : t.expr? d.definition.value = some e)
      (hb : e.body = .literal digits) (hi : Literal.integer? digits = some i)
      (h : i < -2 ^ 31 ∨ 2 ^ 31 - 1 < i)
  | notConstant {e : Expr} {name : Bytes} {b : Binding} (hk : d.definition.kind = .const)
      (he : t.reference? d.definition = some (e, name)) (hb : r.binding? e.node = some b)
      (h : b.target.definition.kind = .var)

lemma Misvalued.violation (hd : t.definition? d.item = some d) (h : Misvalued t r d) :
    Violation s t root r := by
  cases h with
  | unresolved he h => exact .unresolved hd he h
  | outOfBounds he hb hi h => exact .outOfBounds hd he hb hi h
  | notConstant hk he hb h => exact .notConstant hd hk he hb h

lemma misvalued_literal_iff {e : Expr} {digits : Bytes} {i : Int}
    (he : t.expr? d.definition.value = some e) (hb : e.body = .literal digits)
    (hi : Literal.integer? digits = some i) :
    Misvalued t r d ↔ i < -2 ^ 31 ∨ 2 ^ 31 - 1 < i := by
  have hnot : ∀ {e' name}, t.reference? d.definition ≠ some (e', name) := by
    intro e' name he'
    obtain ⟨he', hb'⟩ := reference?_eq_some.1 he'
    obtain rfl := Option.some.inj (he.symm.trans he')
    rw [hb] at hb'
    exact ExprBody.noConfusion hb'
  refine ⟨fun hm => ?_, fun hout => .outOfBounds he hb hi hout⟩
  cases hm with
  | unresolved he' => exact absurd he' hnot
  | outOfBounds he' hb' hi' hout =>
    obtain rfl := Option.some.inj (he.symm.trans he')
    obtain rfl := ExprBody.literal.inj (hb.symm.trans hb')
    obtain rfl := Option.some.inj (hi.symm.trans hi')
    exact hout
  | notConstant _ he' => exact absurd he' hnot

lemma misvalued_reference_iff {e : Expr} {name : Bytes}
    (href : t.reference? d.definition = some (e, name)) :
    Misvalued t r d ↔ r.binding? e.node = none ∨ d.definition.kind = .const ∧
      ∃ b, r.binding? e.node = some b ∧ b.target.definition.kind = .var := by
  have hdet : ∀ {e' name'}, t.reference? d.definition = some (e', name') → e' = e :=
    fun he' => (Prod.mk.inj (Option.some.inj (he'.symm.trans href))).1
  constructor
  · intro hm
    cases hm with
    | unresolved he' hnone => exact .inl (hdet he' ▸ hnone)
    | outOfBounds he' hb' =>
      obtain ⟨he, hb⟩ := reference?_eq_some.1 href
      obtain rfl := Option.some.inj (he.symm.trans he')
      rw [hb] at hb'
      exact ExprBody.noConfusion hb'
    | notConstant hk he' hb' hvar => exact .inr ⟨hk, _, hdet he' ▸ hb', hvar⟩
  · rintro (hnone | ⟨hk, b, hbind, hvar⟩)
    · exact .unresolved href hnone
    · exact .notConstant hk href hbind hvar

lemma hasError_checkValue (h : t.Numbered s.size next) (hr : Resolved s t root r)
    (hd : t.definition? d.item = some d) : HasError (checkValue r d) ↔ Misvalued t r d := by
  obtain ⟨e, he, hinit⟩ := h.value hd
  simp only [checkValue, hr.tree, he]
  cases hb : e.body with
  | literal digits =>
    obtain ⟨i, hi⟩ := hinit.readable digits hb
    rw [misvalued_literal_iff he hb hi, ← value?_eq_none hi]
    simp only
    cases Literal.value? digits <;> simp
  | name name =>
    rw [misvalued_reference_iff (reference?_eq_some.2 ⟨he, hb⟩)]
    cases r.binding? e.node with
    | none => simp [severity_unresolvedError]
    | some b =>
      simp only [Option.some.injEq, exists_eq_left']
      cases d.definition.kind <;> cases b.target.definition.kind <;> simp

/-- The file of a definition defines its name before. -/
def Repeated (t : Tree) (d : Declared) : Prop :=
  ∃ d', t.Defines d.file d.definition.name d' ∧ d'.item < d.item

lemma duplicate?_isSome (h : t.Numbered s.size next) (hr : Resolved s t root r)
    (hd : t.definition? d.item = some d) : (r.duplicate? d).isSome ↔ Repeated t d := by
  have hmeans := search_means
    (q := ⟨d.file, d.definition.node, d.definition.scope, d.definition.name⟩) h hd rfl
    (h.scope_eq hd) root (.inl rfl)
  simp only [duplicate?, hr.definitions, hr.visible d.file (h.file_mem_ids hd)]
  generalize (⟨t.declared⟩ : DefinitionIndex).search _ _ _ = found at hmeans
  cases hmeans with
  | @own d' hd' hbefore hlast =>
    simp only [hd'.2.1, if_true, Option.isSome_some, true_iff]
    exact ⟨d', hd', hbefore⟩
  | imported hown hoffers =>
    simp only [if_neg hoffers.2.1]
    simpa [Repeated] using hown
  | unbound hown => simpa [Repeated] using hown

/-- **A definition**: a cycle comes before all else, and a repetition before the value. -/
lemma hasError_checkDefinition (h : t.Numbered s.size next) (hr : Resolved s t root r)
    (hd : t.definition? d.item = some d) : HasError (checkDefinition r d) ↔
      (∃ c, r.dependencies d.item = .error c ∧ c.isReported = true) ∨
        ¬ TransGen (Refers r) d.item d.item ∧ (Repeated t d ∨ Misvalued t r d) := by
  rw [← dependencies_error_iff (hr.grounded h), ← duplicate?_isSome h hr hd,
    ← hasError_checkValue h hr hd]
  simp only [checkDefinition]
  cases r.dependencies d.item with
  | error c => simp [hasError_circularError]
  | ok deps =>
    cases r.duplicate? d with
    | some other => simp
    | none =>
      simp only [hasError_append, not_hasError_checkUsage, not_hasError_checkSingleCharacter]
      cases d.definition.kind with
      | const => simp [not_hasError_checkScreamingSnakeCase]
      | var => simp [not_hasError_checkSnakeCase]

end Definitions

/-! ### Cycles -/

section Cycles

variable {r : Resolution}

def referenceSpan (r : Resolution) (id : ItemId) : Span :=
  ((r.follow? id).map Prod.fst).getD Span.none

lemma mem_spansOf_iff {x : ItemId} {l : List (Span × ItemId)} (h : IsLoop r x l) {span : Span} :
    span ∈ spansOf l ↔
      ∃ y, (TransGen (Refers r) x y ∧ TransGen (Refers r) y x) ∧ referenceSpan r y = span := by
  constructor
  · intro hspan
    obtain ⟨z, hz, rfl⟩ := List.mem_map.1 hspan
    obtain ⟨c, d, hc, hd, hxc, hzx⟩ := h.chain.mem hz
    have hcz : Refers r c z.2 := hd ▸ refers_of_follow hc
    exact ⟨c, ⟨h.transGen.trans_left hxc, .head' hcz hzx⟩, by simp [referenceSpan, hc]⟩
  · rintro ⟨y, ⟨hxy, hyx⟩, rfl⟩
    obtain ⟨z, ⟨span, d, hf, -⟩, -⟩ := TransGen.head'_iff.1 hyx
    have hmem := h.reference_mem (.inr (h.mem_iff.2 ⟨hxy, hyx⟩)) hf
    rw [show referenceSpan r y = span by simp [referenceSpan, hf]]
    exact List.mem_map.2 ⟨_, hmem, rfl⟩

/-- A cycle is reported from the items on it whose reference no other comes before. -/
lemma isReported_iff {x : ItemId} {l : List (Span × ItemId)} (h : IsLoop r x l) :
    (⟨spansOf l⟩ : Cycle).isReported = true ↔
      ∀ y, TransGen (Refers r) x y → TransGen (Refers r) y x →
        (referenceSpan r y).before (referenceSpan r x) = false := by
  have hhead : (⟨spansOf l⟩ : Cycle).head = referenceSpan r x := by
    obtain ⟨first, rest, rfl⟩ := List.exists_cons_of_ne_nil h.ne_nil
    obtain ⟨d, hd, -⟩ := h.chain.head rfl
    simp [Cycle.head, spansOf, referenceSpan, hd]
  rw [Cycle.isReported, List.all_eq_true, hhead]
  constructor
  · intro hall y hxy hyx
    simpa using hall _ ((mem_spansOf_iff h).2 ⟨y, ⟨hxy, hyx⟩, rfl⟩)
  · intro hall span hspan
    obtain ⟨y, ⟨hxy, hyx⟩, rfl⟩ := (mem_spansOf_iff h).1 hspan
    simpa using hall y hxy hyx

/-- **Some member of a cycle reports it**: the one whose reference is least. -/
lemma exists_isReported (hg : Grounded r) {x : ItemId} (hx : TransGen (Refers r) x x) :
    ∃ y c, TransGen (Refers r) y y ∧ r.dependencies y = .error c ∧ c.isReported = true := by
  obtain ⟨y, ⟨hxy, hyx⟩, hmin⟩ :=
    (InvImage.wf (referenceSpan r) Span.wellFounded_before).has_min
      {z | TransGen (Refers r) x z ∧ TransGen (Refers r) z x} ⟨x, hx, hx⟩
  have hyy := hyx.trans hxy
  rcases dependencies_spec hg y with ⟨l, hl, hdep⟩ | ⟨l, hl, hdep⟩
  · refine ⟨y, ⟨spansOf l⟩, hyy, hdep, (isReported_iff hl).2 fun z hyz hzy => ?_⟩
    have hnot := hmin z ⟨hxy.trans hyz, hzy.trans hyx⟩
    simpa [InvImage] using hnot
  · exact absurd (hl.mem_iff.2 hyy) hl.root

lemma definition?_of_transGen {x y : ItemId} (h : TransGen (Refers r) x y) :
    ∃ d, r.tree.definition? x = some d := by
  obtain ⟨z, ⟨span, d, hf, -⟩, -⟩ := TransGen.head'_iff.1 h
  obtain ⟨d, e, name, b, hd, -⟩ := follow?_eq_some.1 hf
  exact ⟨d, hd⟩

end Cycles

/-! ### Whole programs -/

section Check

variable {s : SourceSet} {t : Tree} {next : NodeId} {root : Bytes} {r : Resolution}

/-- **A file** with broken imports has an error; another one has the errors of its definitions. -/
lemma hasError_checkModule (h : t.Numbered s.size next) (hr : Resolved s t root r) {m : Module}
    (hm : m ∈ t.modules.toList) : HasError (checkModule r m).1 ↔
      Broken s t root false m.items ∨
        ¬ Broken s t root false m.items ∧
          ∃ d, t.definition? d.item = some d ∧ d.file = m.file ∧
            HasError (checkDefinition r d) := by
  obtain ⟨h1, h2⟩ := checkImports_spec h hr (h.pairwise_items hm) false
  have hdefs : HasError ((m.items.filterMap t.definition?).flatMap (checkDefinition r)) ↔
      ∃ d, t.definition? d.item = some d ∧ d.file = m.file ∧ HasError (checkDefinition r d) := by
    rw [hasError_flatMap]
    refine exists_congr fun d => ?_
    rw [h.mem_definitions_iff hm, and_assoc]
  simp only [checkModule, hr.tree]
  cases hok : (checkImports r false m.items).2 with
  | false =>
    have hbroken := h2.1 hok
    simp [h1, hok, hbroken]
  | true =>
    have hbroken : ¬ Broken s t root false m.items := fun hb => by simp [h2.2 hb] at hok
    have hnone : ¬ HasError (checkImports r false m.items).1 := fun he => by simp [h1.1 he] at hok
    simp only [if_true, hasError_append, hnone, hbroken, hdefs, false_or, not_false_iff, true_and]

lemma hasError_check (hr : Resolved s t root r) :
    HasError (check r).diagnostics ↔ ∃ m ∈ t.modules.toList, HasError (checkModule r m).1 := by
  simp only [check, hr.tree, hasError_flatMap, List.mem_map]
  constructor
  · rintro ⟨x, ⟨m, hm, rfl⟩, hx⟩
    exact ⟨m, hm, hx⟩
  · rintro ⟨m, hm, hx⟩
    exact ⟨_, ⟨m, hm, rfl⟩, hx⟩

lemma Broken.violation (h : t.Numbered s.size next) {m : Module} (hm : m ∈ t.modules.toList)
    (hb : Broken s t root false m.items) : Violation s t root r := by
  obtain ⟨id, hid, ⟨it, i, hi, hbody⟩, hlost | hafter | ⟨id', hid', hdef, hlt⟩⟩ := hb
  · obtain ⟨it', i', hi', hbody', hnone⟩ := hlost
    exact .moduleNotFound hi' hbody' hnone
  · simp at hafter
  · obtain ⟨d, hd⟩ := Option.isSome_iff_exists.1 hdef
    obtain ⟨rfl, hd⟩ := definition?_item hd
    have hfile := ((h.mem_definitions_iff hm).1 (List.mem_filterMap.2 ⟨_, hid', hd⟩)).2
    obtain ⟨it', hi', hf⟩ := (h.mem_items_iff hm).1 hid
    obtain rfl := Option.some.inj (hi.symm.trans hi')
    exact .importNotAtTop hi hbody hd (hfile.trans hf.symm) hlt

lemma Broken.of_violation (h : t.Numbered s.size next) {id : ItemId} {it : Item} {i : Import}
    (hi : t.item? id = some it) (hb : it.body = .imports i)
    (hv : Lost s t root id ∨
      ∃ d, t.definition? d.item = some d ∧ d.file = it.file ∧ d.item < id) :
    ∃ m ∈ t.modules.toList, Broken s t root false m.items := by
  obtain ⟨m, hm, hf⟩ := h.exists_module hi
  refine ⟨m, hm, id, (h.mem_items_iff hm).2 ⟨it, hi, hf.symm⟩, ⟨it, i, hi, hb⟩, ?_⟩
  rcases hv with hlost | ⟨d, hd, hdf, hlt⟩
  · exact .inl hlost
  · obtain ⟨span, hi', -⟩ := Tree.definition?_eq_some.1 hd
    refine .inr (.inr ⟨d.item, (h.mem_items_iff hm).2 ⟨_, hi', hdf.trans hf.symm⟩, ?_, hlt⟩)
    rw [hd, Option.isSome_some]

/-- **No error hides**: a program that breaks a rule has an error. -/
lemma Violation.hasError (h : t.Numbered s.size next) (hr : Resolved s t root r)
    (hv : Violation s t root r) : HasError (check r).diagnostics := by
  rw [hasError_check hr]
  by_cases hbroken : ∃ m ∈ t.modules.toList, Broken s t root false m.items
  · obtain ⟨m, hm, hb⟩ := hbroken
    exact ⟨m, hm, (hasError_checkModule h hr hm).2 (.inl hb)⟩
  -- no file is silenced, so one definition with an error is enough
  have hone : ∀ {d}, t.definition? d.item = some d → HasError (checkDefinition r d) →
      ∃ m ∈ t.modules.toList, HasError (checkModule r m).1 := by
    intro d hd he
    obtain ⟨span, hi, -⟩ := Tree.definition?_eq_some.1 hd
    obtain ⟨m, hm, hf⟩ := h.exists_module hi
    exact ⟨m, hm, (hasError_checkModule h hr hm).2
      (.inr ⟨fun hb => hbroken ⟨m, hm, hb⟩, d, hd, hf.symm, he⟩)⟩
  by_cases hcycle : ∃ x, TransGen (Refers r) x x
  · obtain ⟨x, hx⟩ := hcycle
    obtain ⟨y, c, hyy, hdep, hrep⟩ := exists_isReported (hr.grounded h) hx
    obtain ⟨d, hd⟩ := definition?_of_transGen hyy
    rw [hr.tree] at hd
    obtain ⟨rfl, hd⟩ := definition?_item hd
    exact hone hd ((hasError_checkDefinition h hr hd).2 (.inl ⟨c, hdep, hrep⟩))
  -- no definition is on a cycle, so repetitions and values are checked everywhere
  have hchecked : ∀ {d}, t.definition? d.item = some d → Repeated t d ∨ Misvalued t r d →
      ∃ m ∈ t.modules.toList, HasError (checkModule r m).1 := by
    intro d hd hbad
    exact hone hd ((hasError_checkDefinition h hr hd).2 (.inr ⟨fun hc => hcycle ⟨_, hc⟩, hbad⟩))
  cases hv with
  | moduleNotFound hi hb hnone =>
    exact absurd (Broken.of_violation h hi hb (.inl ⟨_, _, hi, hb, hnone⟩)) hbroken
  | importNotAtTop hi hb hd hf hlt =>
    exact absurd (Broken.of_violation h hi hb (.inr ⟨_, hd, hf, hlt⟩)) hbroken
  | circular hx => exact absurd ⟨_, hx⟩ hcycle
  | @duplicate file name d d' hd hd' hne =>
    rcases Nat.lt_trichotomy d.item d'.item with hlt | heq | hlt
    · exact hchecked hd'.1 (.inl ⟨d, by rwa [hd'.2.1, hd'.2.2], hlt⟩)
    · exact absurd (hd.eq_of_item hd' heq) hne
    · exact hchecked hd.1 (.inl ⟨d', by rwa [hd.2.1, hd.2.2], hlt⟩)
  | unresolved hd he hnone => exact hchecked hd (.inr (.unresolved he hnone))
  | outOfBounds hd he hb hi hout => exact hchecked hd (.inr (.outOfBounds he hb hi hout))
  | notConstant hd hk he hb hvar => exact hchecked hd (.inr (.notConstant hk he hb hvar))

/-- **No error is false**: a program with an error breaks a rule. -/
lemma violation_of_hasError (h : t.Numbered s.size next) (hr : Resolved s t root r)
    (he : HasError (check r).diagnostics) : Violation s t root r := by
  obtain ⟨m, hm, he⟩ := (hasError_check hr).1 he
  rcases (hasError_checkModule h hr hm).1 he with hb | ⟨-, d, hd, -, he⟩
  · exact hb.violation h hm
  rcases (hasError_checkDefinition h hr hd).1 he with ⟨c, hdep, -⟩ | ⟨-, ⟨d', hd', hlt⟩ | hbad⟩
  · exact .circular ((dependencies_error_iff (hr.grounded h)).1 ⟨c, hdep⟩)
  · refine .duplicate hd' ⟨hd, rfl, rfl⟩ ?_
    rintro rfl
    exact Nat.lt_irrefl _ hlt
  · exact hbad.violation hd

/-- **The verdict is exact.** The names of all files of a set, whatever their texts and dot paths,
can be resolved, and the check of the resolved program gives an error exactly when the program
breaks a rule: an import without a target, an import after a definition, a definition that reaches
itself, a name defined twice in a file, a name bound to nothing, a literal that does not fit, or a
constant that refers to a variable. -/
theorem check_error_iff (texts : List SourceText) (root : Bytes) :
    ∃ r, Resolution.ofTree (Project.sourcesOf texts) (Project.treeOf texts) root = .ok r ∧
      ((∃ d ∈ (check r).diagnostics, d.severity = .error) ↔
        Violation (Project.sourcesOf texts) (Project.treeOf texts) root r) := by
  obtain ⟨next, h⟩ := Project.numbered_treeOf texts
  obtain ⟨r, hr, hres⟩ := ofTree_resolved h root
  exact ⟨r, hr, violation_of_hasError h hres, Violation.hasError h hres⟩

end Check

end Validation

end StateBuffer
