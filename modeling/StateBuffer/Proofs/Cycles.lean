import Mathlib.Data.Set.Card
import StateBuffer.Proofs.ParsedTree
import StateBuffer.Proofs.Validation

/-!
Cycles of references and their reports. Every item on a cycle sees the same references, each from
its own place on. The values of two definitions never have the same place, so of all references on a
cycle one comes first, and the item it belongs to is the only one to report the cycle. In a program
without skipped files there are as many reports as there are cycles.
-/

namespace StateBuffer

/-! ### Places of values -/

namespace Tree

variable {t : Tree}

lemma apart_of_checkItems {file : FileId} {size : Nat} {stop : UInt32} {last : Int}
    {ids : List ItemId} (h : t.checkItems file size stop last ids = .ok ()) :
    (∀ id ∈ ids, ∃ it, t.item? id = some it ∧ it.span.file = file ∧
        stop.toNat ≤ it.span.start.toNat ∧
        ∃ before after, t.checkBody it.span before it.body = .ok after) ∧
      ids.Pairwise fun a b => ∀ i j, t.item? a = some i → t.item? b = some j →
        i.span.stop.toNat ≤ j.span.start.toNat := by
  induction ids generalizing stop last with
  | nil => simp
  | cons id ids ih =>
    cases hi : t.item? id with
    | none => simp [checkItems, hi] at h
    | some it =>
      simp only [checkItems, hi] at h
      split_ifs at h with hfile hsize hstop
      cases hbody : t.checkBody it.span last it.body with
      | error e => simp [hbody, bind, Except.bind] at h
      | ok last' =>
        rw [hbody] at h
        obtain ⟨hrest, hpairs⟩ := ih h
        rw [UInt32.lt_iff_toNat_lt] at hstop
        rw [not_or, UInt32.le_iff_toNat_le] at hsize
        refine ⟨List.forall_mem_cons.2 ⟨⟨it, hi, not_not.1 hfile, by omega, last, last', hbody⟩, ?_⟩,
          List.pairwise_cons.2 ⟨?_, hpairs⟩⟩
        · intro id' hid'
          obtain ⟨it', hi', hfile', hafter, hbody'⟩ := hrest id' hid'
          exact ⟨it', hi', hfile', by omega, hbody'⟩
        · intro id' hid' i j hit hjt
          obtain ⟨it', hi', -, hafter, -⟩ := hrest id' hid'
          obtain rfl := Option.some.inj (hi.symm.trans hit)
          obtain rfl := Option.some.inj (hi'.symm.trans hjt)
          exact hafter

lemma value_inside {span : Span} {before after : Int} {d : Definition} {e : Expr}
    (h : t.checkBody span before (.definition d) = .ok after) (he : t.expr? d.value = some e) :
    e.span.inside span = true := by
  by_contra hout
  simp only [checkBody, he, Bool.not_eq_true] at h hout
  split_ifs at h with h1 h2
  · cases hnode : checkNode before d.node <;> simp [hnode, bind, Except.bind] at h
  · simp [hout] at h2

lemma rel_of_lt {α : Type} {key : α → Nat} {R : α → α → Prop} {l : List α}
    (hasc : l.Pairwise fun a b => key a < key b) (h : l.Pairwise R) {a b : α} (ha : a ∈ l)
    (hb : b ∈ l) (hab : key a < key b) : R a b := by
  obtain ⟨before, after, rfl⟩ := List.append_of_mem ha
  obtain ⟨-, hafter, hbefore⟩ := List.pairwise_append.1 hasc
  rcases List.mem_append.1 hb with hb | hb
  · exact absurd (hbefore b hb a List.mem_cons_self) (Nat.lt_asymm hab)
  · rcases List.mem_cons.1 hb with rfl | hb
    · exact absurd hab (Nat.lt_irrefl _)
    · exact (List.pairwise_cons.1 (List.pairwise_append.1 h).2.1).1 b hb

/-- No two definitions have values at the same place. -/
def ValuesApart (t : Tree) : Prop :=
  ∀ (d d' : Declared) (e e' : Expr), t.definition? d.item = some d →
    t.definition? d'.item = some d' → t.expr? d.definition.value = some e →
    t.expr? d'.definition.value = some e' → e.span = e'.span → d = d'

/-- The items of every module pass the check. -/
def Checked (t : Tree) : Prop :=
  ∀ m ∈ t.modules.toList, ∃ size, t.checkItems m.file size 0 (-1) m.items = .ok ()

namespace Numbered

variable {files : Nat} {next : NodeId} (h : t.Numbered files next)

include h

lemma pairwise_modules : t.modules.toList.Pairwise fun m m' => m.file < m'.file := by
  rw [← List.pairwise_map (f := Module.file) (R := (· < ·)), h.files, List.pairwise_map]
  exact List.pairwise_lt_range.imp Nat.succ_lt_succ

lemma file_le {a b : ItemId} {i j : Item} (hi : t.item? a = some i) (hj : t.item? b = some j)
    (hab : a < b) : i.file ≤ j.file := by
  have hfiles : t.places.Pairwise fun x y => x.1 ≤ y.1 := by
    refine List.pairwise_flatMap.2
      ⟨fun m _ => ?_, h.pairwise_modules.imp fun {m m'} hlt x hx y hy => ?_⟩
    · exact List.pairwise_map.2 (List.pairwise_of_forall fun _ _ => Nat.le_refl _)
    · obtain ⟨_, -, rfl⟩ := List.mem_map.1 hx
      obtain ⟨_, -, rfl⟩ := List.mem_map.1 hy
      exact hlt.le
  exact rel_of_lt (a := (i.file, a)) (b := (j.file, b)) h.pairwise_places hfiles
    (h.mem_places_iff.2 ⟨i, hi, rfl⟩) (h.mem_places_iff.2 ⟨j, hj, rfl⟩) hab

variable (hcheck : t.Checked)

include hcheck

lemma value_before {d d' : Declared} {e e' : Expr} (hd : t.definition? d.item = some d)
    (hd' : t.definition? d'.item = some d') (he : t.expr? d.definition.value = some e)
    (he' : t.expr? d'.definition.value = some e') (hlt : d.item < d'.item) :
    e.span.before e'.span = true := by
  -- the value of a definition lies inside its item, and the item in the file of its module
  have hplace : ∀ {d e}, t.definition? d.item = some d → t.expr? d.definition.value = some e →
      ∃ it m, t.item? d.item = some it ∧ m ∈ t.modules.toList ∧ d.item ∈ m.items ∧
        it.file = m.file ∧ it.span.file = m.file ∧ e.span.inside it.span = true := by
    intro d e hd he
    obtain ⟨span, hi, -⟩ := definition?_eq_some.1 hd
    obtain ⟨m, hm, hf⟩ := h.exists_module hi
    have hid : d.item ∈ m.items := (h.mem_items_iff hm).2 ⟨_, hi, hf.symm⟩
    obtain ⟨size, hok⟩ := hcheck m hm
    obtain ⟨it, hi', hfile, -, before, after, hbody⟩ := (apart_of_checkItems hok).1 d.item hid
    obtain rfl := Option.some.inj (hi.symm.trans hi')
    exact ⟨_, m, hi, hm, hid, hf.symm, hfile, value_inside hbody he⟩
  obtain ⟨it, m, hi, hm, hid, hitem, hfile, hin⟩ := hplace hd he
  obtain ⟨it', m', hi', hm', hid', hitem', hfile', hin'⟩ := hplace hd' he'
  simp only [Span.inside, Bool.and_eq_true, decide_eq_true_eq, UInt32.le_iff_toNat_le,
    UInt32.lt_iff_toNat_lt] at hin hin'
  have hle := h.file_le hi hi' hlt
  rw [hitem, hitem'] at hle
  refine Span.before_of_lt ?_
  rcases Nat.lt_or_eq_of_le hle with hless | hsame
  · left
    rw [hin.1.1.1, hin'.1.1.1, hfile, hfile']
    exact hless
  · right
    obtain rfl := h.module_inj hm hm' hsame
    obtain ⟨size, hok⟩ := hcheck m hm
    have := rel_of_lt (h.pairwise_items hm) (apart_of_checkItems hok).2 hid hid' hlt it it' hi hi'
    rw [UInt32.lt_iff_toNat_lt, hin.1.1.1, hin'.1.1.1, hfile, hfile']
    exact ⟨hsame, by omega⟩

lemma valuesApart : t.ValuesApart := by
  intro d d' e e' hd hd' he he' hspan
  have hapart : ∀ {e : Expr}, ¬ e.span.before e.span = true := fun hself =>
    Span.before_asymm hself hself
  rcases Nat.lt_trichotomy d.item d'.item with hlt | heq | hlt
  · have hbefore := h.value_before hcheck hd hd' he he' hlt
    rw [hspan] at hbefore
    exact absurd hbefore hapart
  · rw [heq, hd'] at hd
    exact (Option.some.inj hd).symm
  · have hbefore := h.value_before hcheck hd' hd he' he hlt
    rw [hspan] at hbefore
    exact absurd hbefore hapart

end Numbered

end Tree

namespace SourceSet

variable {s : SourceSet} (hs : s.Ordered) (hsize : ∀ f ∈ s.files.toList, f.content.length < 2 ^ 32)

include hs hsize

lemma checked_parse : s.parse.tree.Checked := by
  have hsound := sound_parse hs
  have hnumbered := hsound.numbered
  intro m hm
  obtain ⟨j, hj⟩ := List.getElem?_of_mem hm
  have hfiles : s.files.toList.length = s.parse.tree.modules.toList.length := by
    simpa using (congrArg List.length hnumbered.files).symm
  have hlt : j < s.files.toList.length := by
    rw [hfiles]
    exact (List.getElem?_eq_some_iff.1 hj).1
  have hfile : m.file = j + 1 := by
    have hj' := congrArg (fun l : List FileId => l[j]?) hnumbered.files
    simpa [hj, List.getElem?_range (show j < s.files.size by simpa using hlt)] using hj'
  have hf : s.files.toList[j]? = some s.files.toList[j] := List.getElem?_eq_getElem hlt
  have hchecked := hsound.checked j _ hf (hsize _ (List.getElem_mem hlt))
  rw [Tree.checkSpans_of_module (m := m) hj] at hchecked
  rw [hfile]
  exact ⟨_, hchecked⟩

lemma valuesApart_parse : s.parse.tree.ValuesApart :=
  (sound_parse hs).numbered.valuesApart (checked_parse hs hsize)

end SourceSet

namespace Validation

open Resolution Relation

/-! ### Cycles -/

/-- The items that `x` reaches and that reach it. -/
def cycleOf (r : Resolution) (x : ItemId) : Set ItemId :=
  {y | TransGen (Refers r) x y ∧ TransGen (Refers r) y x}

/-- The cycles of references, each as the set of its items. -/
def cycles (r : Resolution) : Set (Set ItemId) :=
  {c | ∃ x, TransGen (Refers r) x x ∧ c = cycleOf r x}

/-- The item is on a cycle, and its reference comes before those of all others on it. -/
def ComesFirst (r : Resolution) (x : ItemId) : Prop :=
  TransGen (Refers r) x x ∧
    ∀ y ∈ cycleOf r x, y ≠ x → (referenceSpan r x).before (referenceSpan r y) = true

section Cycles

variable {r : Resolution} {x y : ItemId}

lemma mem_cycleOf_self (h : TransGen (Refers r) x x) : x ∈ cycleOf r x := ⟨h, h⟩

lemma cycleOf_eq (h : y ∈ cycleOf r x) : cycleOf r y = cycleOf r x := by
  obtain ⟨hxy, hyx⟩ := h
  ext z
  constructor
  · rintro ⟨hyz, hzy⟩
    exact ⟨hxy.trans hyz, hzy.trans hyx⟩
  · rintro ⟨hxz, hzx⟩
    exact ⟨hyx.trans hxz, hzx.trans hxy⟩

lemma ComesFirst.unique (hx : ComesFirst r x) (hy : ComesFirst r y)
    (h : cycleOf r x = cycleOf r y) : x = y := by
  by_contra hne
  have hyx : y ∈ cycleOf r x := h ▸ mem_cycleOf_self hy.1
  have hxy : x ∈ cycleOf r y := h ▸ mem_cycleOf_self hx.1
  exact Span.before_asymm (hx.2 y hyx (Ne.symm hne)) (hy.2 x hxy hne)

lemma referenceSpan_inj (hapart : r.tree.ValuesApart) (hx : TransGen (Refers r) x x)
    (hy : TransGen (Refers r) y y) (h : referenceSpan r x = referenceSpan r y) : x = y := by
  have hvalue : ∀ {z}, TransGen (Refers r) z z → ∃ d e, d.item = z ∧
      r.tree.definition? d.item = some d ∧ r.tree.expr? d.definition.value = some e ∧
      referenceSpan r z = e.span := by
    intro z hz
    obtain ⟨w, ⟨span, d', hf, -⟩, -⟩ := TransGen.head'_iff.1 hz
    obtain ⟨d, e, name, b, hd, he, -, rfl, -⟩ := follow?_eq_some.1 hf
    obtain ⟨hid, hd⟩ := definition?_item hd
    exact ⟨d, e, hid, hd, (reference?_eq_some.1 he).1, by simp [referenceSpan, hf]⟩
  obtain ⟨d, e, rfl, hd, he, hspan⟩ := hvalue hx
  obtain ⟨d', e', rfl, hd', he', hspan'⟩ := hvalue hy
  rw [hapart d d' e e' hd hd' he he' (by rw [← hspan, ← hspan', h])]

/-- **An item on a cycle reports it** exactly if its reference comes first. -/
lemma comesFirst_iff (hapart : r.tree.ValuesApart) {l : List (Span × ItemId)} (h : IsLoop r x l) :
    ComesFirst r x ↔ (⟨spansOf l⟩ : Cycle).isReported = true := by
  rw [isReported_iff h]
  constructor
  · rintro ⟨-, hfirst⟩ y hxy hyx
    by_cases hne : y = x
    · subst hne
      by_contra hbefore
      rw [Bool.not_eq_false] at hbefore
      exact Span.before_asymm hbefore hbefore
    · simpa using Span.before_asymm (hfirst y ⟨hxy, hyx⟩ hne)
  · intro hall
    refine ⟨h.transGen, fun y hy hne => Span.before_of_not (hall y hy.1 hy.2) fun hspan => ?_⟩
    exact hne (referenceSpan_inj hapart h.transGen (hy.2.trans hy.1) hspan).symm

/-- **Every cycle** has an item whose reference comes first. -/
lemma exists_comesFirst (hg : Grounded r) (hapart : r.tree.ValuesApart)
    (hx : TransGen (Refers r) x x) : ∃ y ∈ cycleOf r x, ComesFirst r y := by
  obtain ⟨y, hy, hmin⟩ := (InvImage.wf (referenceSpan r) Span.wellFounded_before).has_min
    (cycleOf r x) ⟨x, mem_cycleOf_self hx⟩
  have hyy : TransGen (Refers r) y y := hy.2.trans hy.1
  rcases dependencies_spec hg y with ⟨l, hl, -⟩ | ⟨l, hl, -⟩
  · refine ⟨y, hy, (comesFirst_iff hapart hl).2 ((isReported_iff hl).2 fun z hyz hzy => ?_)⟩
    have hz : z ∈ cycleOf r x := cycleOf_eq hy ▸ ⟨hyz, hzy⟩
    simpa [InvImage] using hmin z hz
  · exact absurd (hl.mem_iff.2 hyy) hl.root

end Cycles

/-! ### Reports -/

/-- The diagnostics of a list that are about cycles. -/
def circularErrors (l : List Diagnostic) : List Diagnostic :=
  l.filter fun e => e.code = Code.circularDependency

/-- The diagnostic is the report of the cycle through a definition: an error at the name of the
definition with a note for each reference of the cycle, in the order of the chain from the
definition back to it. The last reference closes the cycle. -/
structure Reports (r : Resolution) (d : Declared) (e : Diagnostic) : Prop where
  severity : e.severity = .error
  span : e.span = d.definition.nameSpan
  message : e.message = "`" ++ d.definition.name ++ "` item has circular dependencies"
  notes : ∃ l last, Chain r d.item (l ++ [last]) d.item ∧ (itemsOf (l ++ [last])).Nodup ∧
    (∀ y, y ∈ itemsOf (l ++ [last]) ↔ y ∈ cycleOf r d.item) ∧
    e.notes = l.map (fun x => ⟨.info, x.1, "depends on this item"⟩) ++
      [⟨.info, last.1, "depends on itself"⟩]

section CircularErrors

variable {l l' : List Diagnostic} {code : Code} {span : Span} {message : Bytes}

@[simp] lemma circularErrors_nil : circularErrors [] = [] := rfl

@[simp] lemma circularErrors_append :
    circularErrors (l ++ l') = circularErrors l ++ circularErrors l' := List.filter_append l l'

lemma circularErrors_flatMap {α : Type} (as : List α) (f : α → List Diagnostic) :
    circularErrors (as.flatMap f) = as.flatMap fun a => circularErrors (f a) := by
  simp only [circularErrors, List.filter_flatMap]

lemma circularErrors_eq_nil :
    circularErrors l = [] ↔ ∀ e ∈ l, e.code ≠ Code.circularDependency := by
  simp [circularErrors]

lemma circularErrors_flatMap_nil {α : Type} {as : List α} {f : α → List Diagnostic}
    (h : ∀ a ∈ as, circularErrors (f a) = []) : circularErrors (as.flatMap f) = [] := by
  rw [circularErrors_flatMap, List.flatMap_eq_nil_iff]
  exact h

@[simp] lemma code_error : (Diagnostic.error code span message).code = code := rfl

@[simp] lemma code_warning : (Diagnostic.warning code span message).code = code := rfl

@[simp] lemma code_withNote {e : Diagnostic} : (e.withNote span message).code = e.code := rfl

lemma circularErrors_singleton {e : Diagnostic} (h : e.code ≠ Code.circularDependency) :
    circularErrors [e] = [] := by
  simpa [circularErrors_eq_nil] using h

end CircularErrors

/-! ### No other check reports cycles -/

section Checks

variable (r : Resolution)

@[simp] lemma circularErrors_checkSnakeCase (name : Bytes) (span : Span) :
    circularErrors (checkSnakeCase name span) = [] := by
  unfold checkSnakeCase
  split_ifs
  · rfl
  · exact circularErrors_singleton (by simp [Code.nameStyle, Code.circularDependency])

@[simp] lemma circularErrors_checkScreamingSnakeCase (name : Bytes) (span : Span) :
    circularErrors (checkScreamingSnakeCase name span) = [] := by
  unfold checkScreamingSnakeCase
  split_ifs
  · rfl
  · exact circularErrors_singleton (by simp [Code.nameStyle, Code.circularDependency])

@[simp] lemma circularErrors_checkSingleCharacter (name : Bytes) (span : Span) :
    circularErrors (checkSingleCharacter name span) = [] := by
  unfold checkSingleCharacter
  split_ifs
  · exact circularErrors_singleton (by simp [Code.singleCharacterName, Code.circularDependency])
  · rfl

@[simp] lemma circularErrors_checkUsage (d : Declared) : circularErrors (checkUsage r d) = [] := by
  simp only [checkUsage]
  split
  · exact circularErrors_singleton (by simp [Code.unusedValue, Code.circularDependency])
  · exact circularErrors_singleton (by simp [Code.usedUnderscore, Code.circularDependency])
  · rfl

@[simp] lemma circularErrors_checkValue (d : Declared) : circularErrors (checkValue r d) = [] := by
  have hunresolved : ∀ file e name, (unresolvedError r file e name).code = Code.unresolvedName := by
    intro file e name
    simp only [unresolvedError]
    split <;> rfl
  rw [circularErrors_eq_nil]
  intro e he
  simp only [checkValue] at he
  repeat' split at he
  all_goals simp_all [Code.literalOutOfBounds, Code.unresolvedName, Code.notConstant,
    Code.circularDependency]

lemma circularErrors_checkImport (id : ItemId) (item : Span) (i : Import) (after : Bool) :
    circularErrors (checkImport r id item i after).1 = [] := by
  unfold checkImport
  split
  · rfl
  · split_ifs
    · exact circularErrors_singleton (by simp [Code.moduleNotFound, Code.circularDependency])
    · exact circularErrors_singleton (by simp [Code.importNotAtTop, Code.circularDependency])
    -- What is left are the names on the path, whatever else is said of the import.
    all_goals
      rw [circularErrors_append, List.append_eq_nil_iff]
      refine ⟨by simp [circularErrors, Code.selfImport, Code.unusedImport, Code.circularDependency],
        circularErrors_flatMap_nil fun segment _ => ?_⟩
      cases segment with
      | parent span => rfl
      | name name span => exact circularErrors_checkSnakeCase name span

lemma circularErrors_checkImports (ids : List ItemId) (after : Bool) :
    circularErrors (checkImports r after ids).1 = [] := by
  induction ids generalizing after with
  | nil => rfl
  | cons id ids ih =>
    rw [checkImports]
    split
    · simp [circularErrors_checkImport, ih after]
    · exact ih true
    · exact ih after

lemma circularErrors_checkDefinition (d : Declared) :
    circularErrors (checkDefinition r d) =
      match r.dependencies d.item with
      | .error c => circularError d c
      | .ok _ => [] := by
  simp only [checkDefinition]
  cases r.dependencies d.item with
  | error c =>
    simp only [circularError]
    split_ifs
    · rfl
    · simp [circularErrors, Diagnostic.error, Diagnostic.of]
  | ok deps =>
    cases r.duplicate? d with
    | some other =>
      exact circularErrors_singleton (by simp [Code.duplicateName, Code.circularDependency])
    | none => cases d.definition.kind <;> simp

end Checks

/-! ### The reports of a program -/

lemma notes_snoc (spans : List Span) (last : Span) :
    ((spans ++ [last]).zipIdx.map fun x => (⟨.info, x.1,
        if x.2 + 1 = (spans ++ [last]).length then "depends on itself"
        else "depends on this item"⟩ : Note)) =
      spans.map (fun span => ⟨.info, span, "depends on this item"⟩) ++
        [⟨.info, last, "depends on itself"⟩] := by
  have hothers : (spans.zipIdx.map fun x => (⟨.info, x.1,
        if x.2 + 1 = (spans ++ [last]).length then "depends on itself"
        else "depends on this item"⟩ : Note)) =
      spans.map fun span => ⟨.info, span, "depends on this item"⟩ := by
    refine List.ext_getElem (by simp) fun i hi hi' => ?_
    have hlt : i < spans.length := by simpa using hi
    have hne : i ≠ spans.length := by omega
    simp [hne]
  rw [List.zipIdx_append, List.map_append, hothers]
  simp

section Reporting

variable {s : SourceSet} {t : Tree} {next : NodeId} {root : Bytes} {r : Resolution}

/-- **One definition** reports its cycle if it comes first on it, and else nothing. -/
lemma circularErrors_cases (hg : Grounded r) (hapart : r.tree.ValuesApart) (d : Declared) :
    (ComesFirst r d.item ∧ ∃ e, circularErrors (checkDefinition r d) = [e] ∧ Reports r d e) ∨
      ¬ ComesFirst r d.item ∧ circularErrors (checkDefinition r d) = [] := by
  rw [circularErrors_checkDefinition]
  rcases dependencies_spec hg d.item with ⟨l, hl, hdep⟩ | ⟨l, hl, hdep⟩
  · rw [hdep]
    by_cases hreported : (⟨spansOf l⟩ : Cycle).isReported = true
    · refine .inl ⟨(comesFirst_iff hapart hl).2 hreported, _,
        by simp [circularError, hreported]; rfl, rfl, rfl, rfl, ?_⟩
      obtain ⟨front, last, rfl⟩ : ∃ front last, l = front ++ [last] :=
        ⟨_, _, (List.dropLast_append_getLast hl.ne_nil).symm⟩
      refine ⟨front, last, hl.chain, hl.nodup, fun y => hl.mem_iff, ?_⟩
      have hspans : spansOf (front ++ [last]) = spansOf front ++ [last.1] := by simp [spansOf]
      rw [hspans, notes_snoc]
      simp [spansOf]
    · refine .inr ⟨fun h => hreported ((comesFirst_iff hapart hl).1 h), ?_⟩
      simp [circularError, hreported]
  · rw [hdep]
    exact .inr ⟨fun h => hl.root (hl.mem_iff.2 h.1), rfl⟩

lemma forall₂_flatMap {α β : Type} {P : α → Prop} [DecidablePred P] {R : α → β → Prop}
    {f : α → List β} {as : List α}
    (h : ∀ a ∈ as, (P a ∧ ∃ b, f a = [b] ∧ R a b) ∨ ¬ P a ∧ f a = []) :
    List.Forall₂ R (as.filter P) (as.flatMap f) := by
  induction as with
  | nil => exact .nil
  | cons a as ih =>
    obtain ⟨ha, has⟩ := List.forall_mem_cons.1 h
    rcases ha with ⟨hp, b, hf, hr⟩ | ⟨hp, hf⟩
    · rw [List.filter_cons_of_pos (by simpa using hp), List.flatMap_cons, hf]
      exact .cons hr (ih has)
    · rw [List.filter_cons_of_neg (by simpa using hp), List.flatMap_cons, hf]
      exact ih has

lemma declared_eq (t : Tree) :
    t.declared = t.modules.toList.flatMap fun m => m.items.filterMap t.definition? := by
  simp only [Tree.declared, Tree.places, List.filterMap_flatMap, List.filterMap_map]
  rfl

/-- If no file is skipped, all reports of cycles are those of the definitions in order. -/
lemma circularErrors_check (hr : r.tree = t) (hskipped : (check r).skipped = []) :
    circularErrors (check r).diagnostics =
      t.declared.flatMap fun d => circularErrors (checkDefinition r d) := by
  have hok : ∀ m ∈ t.modules.toList, (checkModule r m).2 = true := by
    intro m hm
    by_contra hbad
    have hmem : m.file ∈ (check r).skipped := by
      simp only [check, hr]
      refine List.mem_map.2 ⟨(m.file, checkModule r m), List.mem_filter.2 ⟨?_, ?_⟩, rfl⟩
      · exact List.mem_map.2 ⟨m, hm, rfl⟩
      · simpa using hbad
    rw [hskipped] at hmem
    exact absurd hmem List.not_mem_nil
  have hmodule : ∀ m ∈ t.modules.toList, circularErrors (checkModule r m).1 =
      (m.items.filterMap t.definition?).flatMap fun d => circularErrors (checkDefinition r d) := by
    intro m hm
    have hm' := hok m hm
    simp only [checkModule] at hm' ⊢
    split_ifs at hm' ⊢
    rw [circularErrors_append, circularErrors_checkImports, List.nil_append, hr,
      circularErrors_flatMap]
  rw [declared_eq, List.flatMap_assoc]
  simp only [check, hr, circularErrors_flatMap, List.flatMap_map]
  exact List.flatMap_congr hmodule

/-- Definitions that come first on their cycles are as many as there are cycles, one on each. -/
lemma ncard_cycles (h : t.Numbered s.size next) (hr : Resolved s t root r)
    (hapart : t.ValuesApart) {leaders : List Declared}
    (hasc : leaders.Pairwise fun d d' => d.item < d'.item)
    (hmem : ∀ d, d ∈ leaders ↔ t.definition? d.item = some d ∧ ComesFirst r d.item) :
    (∀ c ∈ cycles r, ∃! d, d ∈ leaders ∧ d.item ∈ c) ∧ leaders.length = (cycles r).ncard := by
  classical
  have hinj : ∀ d ∈ leaders, ∀ d' ∈ leaders, cycleOf r d.item = cycleOf r d'.item → d = d' := by
    intro d hd d' hd' hsame
    obtain ⟨hdef, hfirst⟩ := (hmem d).1 hd
    obtain ⟨hdef', hfirst'⟩ := (hmem d').1 hd'
    rw [hfirst.unique hfirst' hsame, hdef'] at hdef
    exact (Option.some.inj hdef).symm
  have hone : ∀ c ∈ cycles r, ∃! d, d ∈ leaders ∧ d.item ∈ c := by
    rintro c ⟨x, hx, rfl⟩
    obtain ⟨y, hy, hfirst⟩ := exists_comesFirst (hr.grounded h) (hr.tree ▸ hapart) hx
    obtain ⟨d, hd⟩ := definition?_of_transGen hfirst.1
    rw [hr.tree] at hd
    obtain ⟨rfl, hd⟩ := definition?_item hd
    refine ⟨d, ⟨(hmem d).2 ⟨hd, hfirst⟩, hy⟩, ?_⟩
    rintro d' ⟨hd', hy'⟩
    exact hinj d' hd' d ((hmem d).2 ⟨hd, hfirst⟩) ((cycleOf_eq hy').trans (cycleOf_eq hy).symm)
  refine ⟨hone, ?_⟩
  have hnodup : (leaders.map fun d => cycleOf r d.item).Nodup := by
    refine List.Nodup.map_on hinj (hasc.imp fun {d d'} hlt heq => ?_)
    rw [heq] at hlt
    exact Nat.lt_irrefl _ hlt
  have hcycles : cycles r =
      ((leaders.map fun d => cycleOf r d.item).toFinset : Set (Set ItemId)) := by
    ext c
    rw [List.coe_toFinset, Set.mem_ofPred_eq, List.mem_map]
    constructor
    · intro hc
      obtain ⟨d, ⟨hd, hdc⟩, -⟩ := hone c hc
      obtain ⟨x, hx, rfl⟩ := hc
      exact ⟨d, hd, cycleOf_eq hdc⟩
    · rintro ⟨d, hd, rfl⟩
      exact ⟨d.item, ((hmem d).1 hd).2.1, rfl⟩
  rw [hcycles, Set.ncard_coe_finset, List.toFinset_card_of_nodup hnodup, List.length_map]

/-- **Every cycle is reported once.** Let the files of a set be shorter than `2 ^ 32` bytes. If no
file is skipped, the errors about cycles are in order those of the definitions that come first on
their cycles: of all references on the cycle, theirs comes first. Each of them is the report of the
cycle from the definition on. There is one on each cycle, so there are as many errors as cycles, and
definitions that only lead into a cycle have none. -/
theorem check_reports_cycles (texts : List SourceText) (root : Bytes)
    (hsize : ∀ f ∈ (Project.sourcesOf texts).files.toList, f.content.length < 2 ^ 32) :
    ∃ r, Resolution.ofTree (Project.sourcesOf texts) (Project.treeOf texts) root = .ok r ∧
      ((check r).skipped = [] → ∃ leaders : List Declared,
        leaders.Pairwise (fun d d' => d.item < d'.item) ∧
        (∀ d, d ∈ leaders ↔
          (Project.treeOf texts).definition? d.item = some d ∧ ComesFirst r d.item) ∧
        List.Forall₂ (Reports r) leaders (circularErrors (check r).diagnostics) ∧
        (∀ c ∈ cycles r, ∃! d, d ∈ leaders ∧ d.item ∈ c) ∧
        (circularErrors (check r).diagnostics).length = (cycles r).ncard) := by
  classical
  obtain ⟨next, h⟩ := Project.numbered_treeOf texts
  obtain ⟨r, hr, hres⟩ := ofTree_resolved h root
  have hapart : (Project.treeOf texts).ValuesApart :=
    SourceSet.valuesApart_parse (Project.ordered_sourcesOf texts) hsize
  refine ⟨r, hr, fun hskipped => ?_⟩
  have hreports : List.Forall₂ (Reports r)
      ((Project.treeOf texts).declared.filter fun d => ComesFirst r d.item)
      (circularErrors (check r).diagnostics) := by
    rw [circularErrors_check hres.tree hskipped]
    exact forall₂_flatMap fun d _ => circularErrors_cases (hres.grounded h) (hres.tree ▸ hapart) d
  have hasc := h.pairwise_declared.filter fun d => ComesFirst r d.item
  have hmem : ∀ d, d ∈ (Project.treeOf texts).declared.filter (fun d => ComesFirst r d.item) ↔
      (Project.treeOf texts).definition? d.item = some d ∧ ComesFirst r d.item := by
    intro d
    rw [List.mem_filter, h.mem_declared_iff, decide_eq_true_iff]
  obtain ⟨hone, hcount⟩ := ncard_cycles h hres hapart hasc hmem
  exact ⟨_, hasc, hmem, hreports, hone, hreports.length_eq ▸ hcount⟩

/-- Two cycles over two files, and a variable that leads into one of them. -/
def interlaced : List SourceText :=
  [⟨"m.gpex", "m", "import n;pub var a=b;pub var c=d;var t=a;", false⟩,
    ⟨"n.gpex", "n", "import m;pub var d=c;pub var b=a;", false⟩]

/-- The first file has the first reference of both cycles. -/
theorem check_reports_cycles_interlaced :
    (∀ f ∈ (Project.sourcesOf interlaced).files.toList, f.content.length < 2 ^ 32) ∧
      ∃ r, Resolution.ofTree (Project.sourcesOf interlaced) (Project.treeOf interlaced) "" = .ok r ∧
        (check r).skipped = [] ∧
        ((circularErrors (check r).diagnostics).map fun e => (e.span, e.notes.map Note.span)) =
          [(⟨1, 17, 18⟩, [⟨1, 19, 20⟩, ⟨2, 31, 32⟩]), (⟨1, 29, 30⟩, [⟨1, 31, 32⟩, ⟨2, 19, 20⟩])] ∧
        (cycles r).ncard = 2 := by
  have hsize : ∀ f ∈ (Project.sourcesOf interlaced).files.toList, f.content.length < 2 ^ 32 := by
    decide +kernel
  obtain ⟨r, hr, hreports⟩ := check_reports_cycles interlaced "" hsize
  have hcheck : (Resolution.ofTree (Project.sourcesOf interlaced)
      (Project.treeOf interlaced) "").toOption.map (fun r => ((check r).skipped,
        (circularErrors (check r).diagnostics).map fun e => (e.span, e.notes.map Note.span))) =
      some ([], [(⟨1, 17, 18⟩, [⟨1, 19, 20⟩, ⟨2, 31, 32⟩]),
        (⟨1, 29, 30⟩, [⟨1, 31, 32⟩, ⟨2, 19, 20⟩])]) := by
    decide +kernel
  simp only [hr, Except.toOption, Option.map_some, Option.some.injEq, Prod.mk.injEq] at hcheck
  obtain ⟨hskipped, herrors⟩ := hcheck
  obtain ⟨leaders, -, -, -, -, hcount⟩ := hreports hskipped
  refine ⟨hsize, r, hr, hskipped, herrors, ?_⟩
  rw [← hcount]
  simpa using congrArg List.length herrors

end Reporting

end Validation

end StateBuffer
