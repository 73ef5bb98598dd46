import StateBuffer.Proofs.Contents
import StateBuffer.Proofs.Resolution.Usage
import StateBuffer.Proofs.Validation

/-!
The warnings of a program that breaks no rule. All its imports and definitions are checked to the
end, so there is a warning exactly when something is odd about one of them. What is odd is told by
what files say and by what refers to what, not by numbers.
-/

namespace StateBuffer

def Diagnostic.isWarning (d : Diagnostic) : Bool := d.severity = .warning

namespace Diagnostic

@[simp] lemma isWarning_warning (code : Code) (span : Span) (message : Bytes) :
    (warning code span message).isWarning = true := rfl

@[simp] lemma isWarning_error (code : Code) (span : Span) (message : Bytes) :
    (error code span message).isWarning = false := rfl

@[simp] lemma isWarning_withNote (d : Diagnostic) (span : Span) (message : Bytes) :
    (d.withNote span message).isWarning = d.isWarning := rfl

end Diagnostic

namespace Validation

open Diagnostic Resolution Relation

/-! ### What is odd -/

/-- Is the name written as names of its kind are? -/
def isStyled : DefinitionKind → Bytes → Bool
  | .const, name => isScreamingSnakeCase name
  | .var, name => isSnakeCase name

inductive OddImport (s : SourceSet) (t : Tree) (root : Bytes) (r : Resolution) (id : ItemId)
    (file : FileId) (i : Import) : Prop where
  /-- It leads to its own file. -/
  | toSelf (h : t.Imports s root file id i.isPublic file)
  /-- It is private, and no name comes through it. -/
  | unused (hp : i.isPublic = false) (h : ∀ {d e name b}, t.definition? d.item = some d →
      t.reference? d.definition = some (e, name) → r.binding? e.node = some b → b.via ≠ some id)
  /-- A component of its path is not in snake case. -/
  | unstyled {component : Bytes} (hc : some component ∈ i.segments.map Segment.step)
      (h : isSnakeCase component = false)

inductive OddDefinition (r : Resolution) (d : Declared) : Prop where
  /-- It is used though its name starts with an underscore, or is not though its name does not. -/
  | misnamed
      (h : (∃ a, Refers r a d.item) ↔ Bytes.startsWith d.definition.name "_" = true)
  /-- Its name is one character, not an underscore. -/
  | short (h : Utf8.count d.definition.name = 1) (hne : d.definition.name ≠ "_")
  /-- Its name is not written as names of its kind are. -/
  | unstyled (h : isStyled d.definition.kind d.definition.name = false)

/-- Something is odd about an import or a definition. -/
inductive Suspicious (s : SourceSet) (t : Tree) (root : Bytes) (r : Resolution) : Prop where
  | imports {id : ItemId} {it : Item} {i : Import} (hi : t.item? id = some it)
      (hb : it.body = .imports i) (h : OddImport s t root r id it.file i)
  | definition {d : Declared} (hd : t.definition? d.item = some d) (h : OddDefinition r d)

/-! ### Style and usage -/

lemma warns_checkSnakeCase (name : Bytes) (span : Span) :
    (checkSnakeCase name span).any isWarning = !isSnakeCase name := by
  unfold checkSnakeCase
  cases isSnakeCase name <;> simp

lemma warns_checkScreamingSnakeCase (name : Bytes) (span : Span) :
    (checkScreamingSnakeCase name span).any isWarning = !isScreamingSnakeCase name := by
  unfold checkScreamingSnakeCase
  cases isScreamingSnakeCase name <;> simp

lemma warns_checkSingleCharacter (name : Bytes) (span : Span) :
    (checkSingleCharacter name span).any isWarning =
      decide (Utf8.count name = 1 ∧ name ≠ "_") := by
  unfold checkSingleCharacter
  split_ifs with hshort <;> simp [hshort]

lemma warns_checkUsage (r : Resolution) (d : Declared) :
    (checkUsage r d).any isWarning =
      ((r.firstUse? d.item).isSome == Bytes.startsWith d.definition.name "_") := by
  simp only [checkUsage]
  cases r.firstUse? d.item <;> cases Bytes.startsWith d.definition.name "_" <;> simp

lemma warns_path (segments : List Segment) :
    (segments.flatMap fun
      | .parent _ => []
      | .name name span => checkSnakeCase name span).any isWarning = true ↔
      ∃ component, some component ∈ segments.map Segment.step ∧ isSnakeCase component = false := by
  induction segments with
  | nil => simp
  | cons segment segments ih =>
    rw [List.flatMap_cons, List.any_append, Bool.or_eq_true, ih]
    cases segment with
    | parent span => simp [Segment.step]
    | name name span =>
      simp [Segment.step, warns_checkSnakeCase, or_and_right, exists_or]

lemma warns_checkValue (r : Resolution) (d : Declared) :
    (checkValue r d).any isWarning = false := by
  unfold checkValue
  split
  · rfl
  · split
    · split_ifs <;> simp
    · split
      · simp [isWarning, severity_unresolvedError]
      · split_ifs <;> simp

section Resolved

variable {s : SourceSet} {t : Tree} {next : NodeId} {root : Bytes} {r : Resolution}
  (h : t.Numbered s.size next) (hr : Resolution.ofTree s t root = .ok r)
  (hres : Resolved s t root r)

include h hr hres

lemma warns_checkDefinition {d : Declared} (hd : t.definition? d.item = some d)
    (hcycle : ¬ TransGen (Refers r) d.item d.item) (hrepeated : ¬ Repeated t d) :
    (checkDefinition r d).any isWarning = true ↔ OddDefinition r d := by
  rw [← dependencies_error_iff (hres.grounded h)] at hcycle
  rw [← duplicate?_isSome h hres hd, Option.not_isSome_iff_eq_none] at hrepeated
  have husage : ((r.firstUse? d.item).isSome == Bytes.startsWith d.definition.name "_") = true ↔
      ((∃ a, Refers r a d.item) ↔ Bytes.startsWith d.definition.name "_" = true) := by
    rw [beq_iff_eq, Bool.eq_iff_iff, firstUse?_isSome_iff h hr hres]
  cases hdeps : r.dependencies d.item with
  | error c => exact absurd ⟨c, hdeps⟩ hcycle
  | ok deps =>
    simp only [checkDefinition, hdeps, hrepeated, List.any_append, warns_checkUsage,
      warns_checkSingleCharacter, warns_checkValue, Bool.or_false, Bool.or_eq_true, husage,
      decide_eq_true_eq]
    refine (or_congr_right (c := isStyled d.definition.kind d.definition.name = false) ?style).trans
      ?_
    case style =>
      cases d.definition.kind with
      | const => rw [warns_checkScreamingSnakeCase, Bool.not_eq_true', isStyled]
      | var => rw [warns_checkSnakeCase, Bool.not_eq_true', isStyled]
    constructor
    · rintro ((hodd | ⟨hshort, hne⟩) | hodd)
      · exact .misnamed hodd
      · exact .short hshort hne
      · exact .unstyled hodd
    · rintro (hodd | ⟨hshort, hne⟩ | hodd)
      · exact .inl (.inl hodd)
      · exact .inl (.inr ⟨hshort, hne⟩)
      · exact .inr hodd

lemma warns_checkImport {id : ItemId} {it : Item} {i : Import} (hi : t.item? id = some it)
    (hb : it.body = .imports i) {span : Span} {after : Bool}
    (hok : (checkImport r id span i after).2 = true) :
    (checkImport r id span i after).1.any isWarning = true ↔ OddImport s t root r id it.file i := by
  obtain ⟨edge, target, tried, he, hresolve, hmark⟩ := edge?_import h hres hi hb
  have hitem : edge.item = id := congrArg ImportEdge.item hmark
  have hself : edge.isSelfImport = true ↔ t.Imports s root it.file id i.isPublic it.file := by
    have htarget : edge.target = target := congrArg ImportEdge.target hmark
    have hfile : edge.file = it.file := congrArg ImportEdge.file hmark
    rw [ImportEdge.isSelfImport, decide_eq_true_iff, htarget, hfile]
    constructor
    · rintro rfl
      exact ⟨it, i, tried, hi, rfl, hb, rfl, hresolve⟩
    · rintro ⟨it', i', tried', hi', -, hb', -, hresolve'⟩
      obtain rfl := Option.some.inj (hi.symm.trans hi')
      obtain rfl := ItemBody.imports.inj (hb.symm.trans hb')
      exact (Prod.mk.inj (Except.ok.inj (hresolve.symm.trans hresolve'))).1
  have hpublic : edge.isPublic = i.isPublic := congrArg ImportEdge.isPublic hmark
  have hused := used_iff h hr hres (List.mem_of_find?_eq_some he)
  rw [hitem] at hused
  simp only [checkImport, he] at hok ⊢
  by_cases hlost : edge.target.isNone = true
  · simp [hlost] at hok
  by_cases hafter : after = true
  · simp [hlost, hafter] at hok
  rw [if_neg hlost, if_neg hafter, List.any_append, Bool.or_eq_true]
  refine (or_congr_right (warns_path i.segments)).trans ?_
  constructor
  · rintro (hodd | ⟨component, hc, hodd⟩)
    · split_ifs at hodd with hto hunused
      · exact .toSelf (hself.1 hto)
      · rw [Bool.and_eq_true, Bool.not_eq_true', Bool.not_eq_true', hpublic] at hunused
        refine .unused hunused.1 fun hd he hb hvia => ?_
        rw [hused.2 ⟨_, _, _, _, hd, he, hb, hvia⟩] at hunused
        simp at hunused
      · simp at hodd
    · exact .unstyled hc hodd
  · rintro (hto | ⟨hp, hunused⟩ | ⟨hc, hodd⟩)
    · exact .inl (by simp [hself.2 hto])
    · have hno : edge.used = false := by
        rw [← Bool.not_eq_true, hused]
        rintro ⟨d, e, name, b, hd, he, hb, hvia⟩
        exact hunused hd he hb hvia
      left
      split_ifs with hto hcond
      · simp
      · simp
      · simp [hpublic, hp, hno] at hcond
    · exact .inr ⟨_, hc, hodd⟩

lemma warns_checkImports (ids : List ItemId) (after : Bool)
    (hok : (checkImports r after ids).2 = true) :
    (checkImports r after ids).1.any isWarning = true ↔ ∃ id ∈ ids, ∃ it i,
      t.item? id = some it ∧ it.body = .imports i ∧ OddImport s t root r id it.file i := by
  induction ids generalizing after with
  | nil => simp [checkImports]
  | cons id ids ih =>
    rcases hi : t.item? id with _ | ⟨file, span, i | d⟩
    · simp only [checkImports, hres.tree, hi] at hok ⊢
      rw [ih after hok]
      simp [hi]
    · simp only [checkImports, hres.tree, hi, Bool.and_eq_true] at hok ⊢
      rw [List.any_append, Bool.or_eq_true, warns_checkImport h hr hres hi rfl hok.1,
        ih after hok.2]
      simp [hi]
    · simp only [checkImports, hres.tree, hi] at hok ⊢
      rw [ih true hok]
      simp [hi]

/-- **A file** of a program that breaks no rule has a warning if something in it is odd. -/
lemma warns_checkModule (hsound : ¬ Violation s t root r) {m : Module}
    (hm : m ∈ t.modules.toList) : (checkModule r m).1.any isWarning = true ↔
      (∃ id it i, t.item? id = some it ∧ it.file = m.file ∧ it.body = .imports i ∧
        OddImport s t root r id it.file i) ∨
      ∃ d, t.definition? d.item = some d ∧ d.file = m.file ∧ OddDefinition r d := by
  have hok : (checkImports r false m.items).2 = true := by
    rw [← Bool.not_eq_false, (checkImports_spec h hres (h.pairwise_items hm) false).2]
    exact fun hb => hsound (hb.violation h hm)
  have hdefs :
      ((m.items.filterMap t.definition?).flatMap (checkDefinition r)).any isWarning = true ↔
      ∃ d, t.definition? d.item = some d ∧ d.file = m.file ∧ OddDefinition r d := by
    rw [List.any_flatMap, List.any_eq_true]
    refine exists_congr fun d => ?_
    rw [h.mem_definitions_iff hm, and_assoc]
    refine and_congr_right fun hd => and_congr_right fun _ => ?_
    refine warns_checkDefinition h hr hres hd (fun hc => hsound (.circular hc)) ?_
    rintro ⟨d', hd', hlt⟩
    refine hsound (.duplicate hd' ⟨hd, rfl, rfl⟩ ?_)
    rintro rfl
    exact Nat.lt_irrefl _ hlt
  simp only [checkModule, hres.tree, hok, if_true, List.any_append, Bool.or_eq_true, hdefs,
    warns_checkImports h hr hres m.items false hok]
  refine or_congr_left (exists_congr fun id => ?_)
  rw [h.mem_items_iff hm]
  constructor
  · rintro ⟨⟨it, hi, hf⟩, it', i, hi', hb, hodd⟩
    obtain rfl := Option.some.inj (hi.symm.trans hi')
    exact ⟨it, i, hi, hf, hb, hodd⟩
  · rintro ⟨it, i, hi, hf, hb, hodd⟩
    exact ⟨⟨it, hi, hf⟩, it, i, hi, hb, hodd⟩

/-- **A program that breaks no rule** has a warning exactly when something in it is odd. -/
theorem warns_check (hsound : ¬ Violation s t root r) :
    (check r).diagnostics.any isWarning = true ↔ Suspicious s t root r := by
  have hall : (check r).diagnostics.any isWarning = true ↔
      ∃ m ∈ t.modules.toList, (checkModule r m).1.any isWarning = true := by
    rw [check, hres.tree, List.any_flatMap, List.any_map, List.any_eq_true]
    rfl
  rw [hall]
  constructor
  · rintro ⟨m, hm, hwarns⟩
    rcases (warns_checkModule h hr hres hsound hm).1 hwarns with
      ⟨id, it, i, hi, -, hb, hodd⟩ | ⟨d, hd, -, hodd⟩
    · exact .imports hi hb hodd
    · exact .definition hd hodd
  · rintro (⟨hi, hb, hodd⟩ | ⟨hd, hodd⟩)
    · obtain ⟨m, hm, hf⟩ := h.exists_module hi
      exact ⟨m, hm, (warns_checkModule h hr hres hsound hm).2
        (.inl ⟨_, _, _, hi, hf.symm, hb, hodd⟩)⟩
    · obtain ⟨span, hi, -⟩ := Tree.definition?_eq_some.1 hd
      obtain ⟨m, hm, hf⟩ := h.exists_module hi
      exact ⟨m, hm, (warns_checkModule h hr hres hsound hm).2 (.inr ⟨_, hd, hf.symm, hodd⟩)⟩

end Resolved

end Validation

end StateBuffer
