import StateBuffer.Plan
import StateBuffer.Proofs.Graph
import StateBuffer.Proofs.Values

/-!
The plan of a program. The variables of all files are placed one after the other in source order.
Unless one of them reaches itself or has no value to be set to, each is set once, to a value known
at compile time or to a variable that was set before; so it is in a program that breaks no rule.
-/

namespace StateBuffer

lemma mapM_ok {ε α β : Type} {f : α → Except ε β} {g : α → β} {l : List α}
    (h : ∀ a ∈ l, f a = .ok (g a)) : l.mapM f = .ok (l.map g) := by
  induction l with
  | nil => rfl
  | cons a l ih =>
    rw [List.mapM_cons, h a List.mem_cons_self, ih fun b hb => h b (List.mem_cons_of_mem _ hb)]
    rfl

def Tree.vars (t : Tree) : List Declared := t.declared.filter fun d => d.definition.kind = .var

namespace Tree.Numbered

variable {t : Tree} {files : Nat} {next : NodeId} (h : t.Numbered files next)

include h

lemma mem_vars_iff {d : Declared} :
    d ∈ t.vars ↔ t.definition? d.item = some d ∧ d.definition.kind = .var := by
  rw [vars, List.mem_filter, h.mem_declared_iff, decide_eq_true_iff]

lemma pairwise_vars : t.vars.Pairwise fun d d' => d.item < d'.item := h.pairwise_declared.filter _

lemma pairwise_vars_node :
    t.vars.Pairwise fun d d' => d.definition.node < d'.definition.node := by
  refine h.pairwise_vars.imp_of_mem fun {d d'} hd hd' hlt => ?_
  exact (h.lt_iff_node_lt (h.mem_vars_iff.1 hd).1 (h.mem_vars_iff.1 hd').1).1 hlt

lemma getElem?_vars_inj {i j : Nat} {d d' : Declared} (hi : t.vars[i]? = some d)
    (hj : t.vars[j]? = some d') (he : d.item = d'.item) : i = j := by
  obtain ⟨hi', rfl⟩ := List.getElem?_eq_some_iff.1 hi
  obtain ⟨hj', rfl⟩ := List.getElem?_eq_some_iff.1 hj
  have hlt := List.pairwise_iff_getElem.1 h.pairwise_vars
  rcases Nat.lt_trichotomy i j with h1 | h1 | h1
  · exact absurd he (Nat.ne_of_lt (hlt i j hi' hj' h1))
  · exact h1
  · exact absurd he.symm (Nat.ne_of_lt (hlt j i hj' hi' h1))

end Tree.Numbered

namespace Plan

/-! ### Placement -/

def dotPathOf (s : SourceSet) (file : FileId) : Bytes :=
  ((s.get? file).map SourceFile.dotPath).getD []

/-- The variable as number `i` of those placed. -/
def globalAt (s : SourceSet) (d : Declared) (i : Nat) : Global :=
  ⟨d.item, d.definition.node, d.file, key (dotPathOf s d.file) d.definition.name,
    cellSize * i.toUInt32⟩

/-- The variables of a tree as they are placed. -/
def globalsIn (s : SourceSet) (t : Tree) : List Global :=
  t.vars.zipIdx.map fun x => globalAt s x.1 x.2

section Placement

variable {s : SourceSet} {t : Tree} {next : NodeId}

lemma vars_eq : t.vars = t.places.filterMap fun x => t.var? x.2 := by
  rw [Tree.vars, Tree.declared, List.filter_filterMap]
  rfl

lemma globalsOf_ok (h : t.Numbered s.size next) {m : Module} (hm : m ∈ t.modules.toList) :
    globalsOf s t m = .ok ((m.items.filterMap t.var?).map fun d => globalAt s d 0) := by
  obtain ⟨i, hi, hfile⟩ := h.file_mem hm
  obtain ⟨f, hf⟩ := SourceSet.get?_of_mem m.file
    (List.mem_map.2 ⟨i, List.mem_range.2 hi, hfile.symm⟩)
  refine mapM_ok fun d hd => ?_
  obtain ⟨id, hid, hvar⟩ := List.mem_filterMap.1 hd
  obtain ⟨hdef, -⟩ := Option.filter_eq_some_iff.1 hvar
  have hdfile := ((h.mem_definitions_iff hm).1 (List.mem_filterMap.2 ⟨id, hid, hdef⟩)).2
  simp only [SourceSet.get, hf, globalAt, dotPathOf, hdfile, Option.map_some, Option.getD_some]
  rfl

/-- **Placement** puts the variables one after the other in source order. -/
theorem placed_ok (h : t.Numbered s.size next) : placed s t = .ok (globalsIn s t) := by
  have hall : t.modules.toList.mapM (globalsOf s t) = .ok _ := mapM_ok fun m hm => globalsOf_ok h hm
  have hflat : (t.modules.toList.map fun m =>
      (m.items.filterMap t.var?).map fun d => globalAt s d 0).flatten =
      t.vars.map fun d => globalAt s d 0 := by
    rw [vars_eq, Tree.places, List.filterMap_flatMap, List.map_flatMap, List.flatMap_def]
    simp only [List.filterMap_map]
    rfl
  have hsort : (t.vars.map fun d => globalAt s d 0).mergeSort (fun a b => a.node ≤ b.node) =
      t.vars.map fun d => globalAt s d 0 := by
    refine List.mergeSort_of_pairwise (List.pairwise_map.2 (h.pairwise_vars_node.imp fun hlt => ?_))
    exact decide_eq_true (Nat.le_of_lt hlt)
  rw [placed, hall]
  show Except.ok _ = Except.ok _
  rw [hflat, hsort, List.zipIdx_map, List.map_map]
  rfl

lemma length_globalsIn : (globalsIn s t).length = t.vars.length := by simp [globalsIn]

lemma getElem?_globalsIn (i : Nat) :
    (globalsIn s t)[i]? = (t.vars[i]?).map fun d => globalAt s d i := by
  simp only [globalsIn, List.getElem?_map, List.getElem?_zipIdx, Option.map_map, Nat.zero_add]
  rfl

lemma map_node_globalsIn :
    (globalsIn s t).map Global.node = t.vars.map fun d => d.definition.node := by
  refine List.ext_getElem? fun i => ?_
  simp only [List.getElem?_map, getElem?_globalsIn, Option.map_map]
  rfl

lemma mem_globalsIn_iff (h : t.Numbered s.size next) {k : Nat} {d : Declared}
    (hk : t.vars[k]? = some d) {g : Global} :
    g ∈ globalsIn s t ∧ g.item = d.item ↔ g = globalAt s d k := by
  constructor
  · rintro ⟨hg, hitem⟩
    obtain ⟨j, hj⟩ := List.getElem?_of_mem hg
    rw [getElem?_globalsIn] at hj
    obtain ⟨d', hd', rfl⟩ := Option.map_eq_some_iff.1 hj
    obtain rfl := h.getElem?_vars_inj hd' hk hitem
    rw [Option.some.inj (hd'.symm.trans hk)]
  · rintro rfl
    refine ⟨List.mem_of_getElem? (i := k) ?_, rfl⟩
    rw [getElem?_globalsIn, hk]
    rfl

lemma toNat_cellSize_mul {n : Nat} (hn : n < 2 ^ 30) : (cellSize * n.toUInt32).toNat = 4 * n := by
  rw [UInt32.toNat_mul, show cellSize.toNat = 4 from rfl,
    show n.toUInt32.toNat = n % 2 ^ 32 from rfl]
  omega

lemma indexOf?_eq_some (h : t.Numbered s.size next) {item : ItemId} {i : Nat} :
    indexOf? (globalsIn s t) item = some i ↔ ∃ d, t.vars[i]? = some d ∧ d.item = item := by
  have hitem : ∀ j (hj : j < (globalsIn s t).length),
      ∃ d, t.vars[j]? = some d ∧ (globalsIn s t)[j].item = d.item := by
    intro j hj
    have hg := List.getElem?_eq_getElem hj
    rw [getElem?_globalsIn] at hg
    obtain ⟨d, hd, hg⟩ := Option.map_eq_some_iff.1 hg
    exact ⟨d, hd, by rw [← hg]; rfl⟩
  rw [indexOf?, List.findIdx?_eq_some_iff_getElem]
  constructor
  · rintro ⟨hi, hp, -⟩
    obtain ⟨d, hd, he⟩ := hitem i hi
    exact ⟨d, hd, by rw [← he]; simpa using hp⟩
  · rintro ⟨d, hd, rfl⟩
    have hi : i < (globalsIn s t).length := by
      rw [length_globalsIn]
      exact (List.getElem?_eq_some_iff.1 hd).1
    obtain ⟨d', hd', he⟩ := hitem i hi
    obtain rfl := Option.some.inj (hd.symm.trans hd')
    refine ⟨hi, by simpa using he, fun j hj hp => ?_⟩
    obtain ⟨d', hd', he'⟩ := hitem j (Nat.lt_trans hj hi)
    have hp : (globalsIn s t)[j].item = d.item := by simpa using hp
    exact Nat.ne_of_lt hj (h.getElem?_vars_inj hd' hd (he'.symm.trans hp))

end Placement

/-! ### The order of setting -/

section Order

open Resolution Relation

variable {s : SourceSet} {t : Tree} {next : NodeId} {root : Bytes} {r : Resolution}

/-- The variable number `b` depends on the variable number `a`. -/
def DependsOn (r : Resolution) (t : Tree) (b a : Nat) : Prop :=
  ∃ d d', t.vars[b]? = some d ∧ t.vars[a]? = some d' ∧ TransGen (Refers r) d.item d'.item

/-- The graph has the edges of the first `k` variables, and none of these reaches itself. -/
structure Linked (r : Resolution) (t : Tree) (k : Nat) (g : Graph) : Prop where
  size : g.size = t.vars.length
  proper : g.Proper
  edge : ∀ a b, g.Edge a b ↔ b < k ∧ DependsOn r t b a
  acyclic : ∀ i d, i < k → t.vars[i]? = some d → ¬ TransGen (Refers r) d.item d.item

variable (h : t.Numbered s.size next) (hr : Resolved s t root r)

include h hr

/-- **One variable** reaches itself or gets its edges. -/
lemma Linked.step {k : Nat} {g : Graph} (hg : Linked r t k g) {d : Declared}
    (hd : t.vars[k]? = some d) :
    (TransGen (Refers r) d.item d.item ∧
        addDependencies r (globalsIn s t) g k (globalAt s d k) =
          .error (.circularGlobal (key (dotPathOf s d.file) d.definition.name))) ∨
      ∃ g', addDependencies r (globalsIn s t) g k (globalAt s d k) = .ok g' ∧
        Linked r t (k + 1) g' := by
  have hk : k < g.size := by
    rw [hg.size]
    exact (List.getElem?_eq_some_iff.1 hd).1
  unfold addDependencies
  rcases dependencies_spec (hr.grounded h) d.item with ⟨l, hl, hdep⟩ | ⟨l, hl, hdep⟩
  · refine .inl ⟨hl.transGen, ?_⟩
    simp only [show (globalAt s d k).item = d.item from rfl, hdep]
    rfl
  · have hmem : ∀ a, a ∈ (itemsOf l).filterMap (indexOf? (globalsIn s t)) ↔
        DependsOn r t k a := by
      intro a
      rw [List.mem_filterMap]
      constructor
      · rintro ⟨item, hitem, hi⟩
        obtain ⟨d', hd', rfl⟩ := (indexOf?_eq_some h).1 hi
        exact ⟨d, d', hd, hd', hl.mem_iff.1 hitem⟩
      · rintro ⟨d1, d', hd1, hd', hdep⟩
        obtain rfl := Option.some.inj (hd.symm.trans hd1)
        exact ⟨d'.item, hl.mem_iff.2 hdep, (indexOf?_eq_some h).2 ⟨d', hd', rfl⟩⟩
    obtain ⟨g', hg', hsize, hproper, hedge⟩ := Graph.addEdges_ok hg.proper
      (fun a ha => by
        obtain ⟨d1, d', -, hd', -⟩ := (hmem a).1 ha
        rw [hg.size]
        exact (List.getElem?_eq_some_iff.1 hd').1) hk
    refine .inr ⟨g', ?_, hsize.trans hg.size, hproper, fun a b => ?_, fun i e hi he hcycle => ?_⟩
    · simp only [show (globalAt s d k).item = d.item from rfl, hdep]
      exact hg'
    · rw [hedge, hg.edge, hmem]
      constructor
      · rintro (⟨hb, hab⟩ | ⟨hab, rfl⟩)
        · exact ⟨Nat.lt_succ_of_lt hb, hab⟩
        · exact ⟨Nat.lt_succ_self _, hab⟩
      · rintro ⟨hb, hab⟩
        rcases Nat.lt_succ_iff_lt_or_eq.1 hb with hb | rfl
        · exact .inl ⟨hb, hab⟩
        · exact .inr ⟨hab, rfl⟩
    · rcases Nat.lt_succ_iff_lt_or_eq.1 hi with hi | rfl
      · exact hg.acyclic i e hi he hcycle
      · obtain rfl := Option.some.inj (hd.symm.trans he)
        exact hl.root (hl.mem_iff.2 hcycle)

/-- **The order**: some variable reaches itself, or every variable comes once and after all that it
depends on. The dependencies are those of whole chains, so the graph has a cycle only if a variable
reaches itself. -/
theorem initOrder_cases :
    (∃ d ∈ t.vars, TransGen (Refers r) d.item d.item ∧ initOrder r (globalsIn s t) =
        .error (.circularGlobal (key (dotPathOf s d.file) d.definition.name))) ∨
      (∀ d ∈ t.vars, ¬ TransGen (Refers r) d.item d.item) ∧
        ∃ order, initOrder r (globalsIn s t) = .ok order ∧
          order.Perm (List.range t.vars.length) ∧
          ∀ {a b before after}, order = before ++ b :: after → DependsOn r t b a →
            a ∈ before := by
  have hfold := foldlM_cases (fun done g => Linked r t done.length g)
    (fun f => ∃ d ∈ t.vars, TransGen (Refers r) d.item d.item ∧
      f = .circularGlobal (key (dotPathOf s d.file) d.definition.name))
    (l := (globalsIn s t).zipIdx)
    (f := fun g (x : Global × Nat) => addDependencies r (globalsIn s t) g x.2 x.1)
    (fun done x rest g hl hg => by
      have hx : (globalsIn s t).zipIdx[done.length]? = some x := by
        rw [hl, List.getElem?_append_right (Nat.le_refl _)]
        simp
      rw [List.getElem?_zipIdx, getElem?_globalsIn, Option.map_map] at hx
      obtain ⟨d, hd, rfl⟩ := Option.map_eq_some_iff.1 hx
      rw [List.length_append]
      rcases hg.step h hr hd with ⟨hcycle, hfail⟩ | hnext
      · exact .inl ⟨_, by simpa using hfail, d, List.mem_of_getElem? hd, hcycle, rfl⟩
      · exact .inr (by simpa using hnext))
    (b := Graph.empty (globalsIn s t).length)
    ⟨(Graph.size_empty _).trans length_globalsIn, Graph.proper_empty _,
      fun a b => by simp [Graph.edge_empty], by simp⟩
  rcases hfold with ⟨f, hfail, d, hd, hcycle, rfl⟩ | ⟨g, hfold, hg⟩
  · refine .inl ⟨d, hd, hcycle, ?_⟩
    rw [initOrder, show (globalsIn s t).zipIdx.foldlM _ _ = _ from hfail]
    rfl
  have hlen : (globalsIn s t).zipIdx.length = t.vars.length := by
    rw [List.length_zipIdx, length_globalsIn]
  rw [hlen] at hg
  have hacyclic : ∀ d ∈ t.vars, ¬ TransGen (Refers r) d.item d.item := fun d hd => by
    obtain ⟨i, hi⟩ := List.getElem?_of_mem hd
    exact hg.acyclic i d (List.getElem?_eq_some_iff.1 hi).1 hi
  have hedge : ∀ {a b}, g.Edge a b ↔ DependsOn r t b a := by
    intro a b
    rw [hg.edge]
    refine ⟨And.right, fun hab => ⟨?_, hab⟩⟩
    obtain ⟨d, d', hd, -⟩ := hab
    exact (List.getElem?_eq_some_iff.1 hd).1
  -- paths of the graph are chains of references
  have hpath : ∀ {a b}, TransGen g.Edge a b → DependsOn r t b a := by
    intro a b hab
    induction hab with
    | single hab => exact hedge.1 hab
    | tail _ hbc ih =>
      obtain ⟨d, d', hd, hd', hdd'⟩ := ih
      obtain ⟨e, e', he, he', hee'⟩ := hedge.1 hbc
      obtain rfl := Option.some.inj (hd.symm.trans he')
      exact ⟨e, d', he, hd', hee'.trans hdd'⟩
  obtain ⟨hcyclic, hperm, hbefore⟩ := Graph.layering_order hg.proper
    (fun a ha => by
      obtain ⟨d, d', hd, hd', hdd'⟩ := hpath ha
      obtain rfl := Option.some.inj (hd.symm.trans hd')
      exact hacyclic d (List.mem_of_getElem? hd) hdd')
  refine .inr ⟨hacyclic, g.layering.order, ?_, hg.size ▸ hperm,
    fun hsplit hab => hbefore hsplit (hedge.2 hab)⟩
  rw [initOrder, show (globalsIn s t).zipIdx.foldlM _ _ = _ from hfold]
  show (if g.layering.isCyclic then _ else _) = _
  rw [hcyclic]
  rfl

end Order

/-! ### What variables are set to -/

section Settings

open Resolution Relation

variable {s : SourceSet} {t : Tree} {next : NodeId} {root : Bytes} {r : Resolution}

/-- A variable is set to its value, or to the variable that it refers to. -/
inductive Sets (t : Tree) (r : Resolution) (d : Declared) : InitValue → Prop where
  | const {i : Int} (hi : Denotes r d.item i) : Sets t r d (.const (Int32.ofInt i))
  | global {d' : Declared} (hd' : d' ∈ t.vars) (h : Refers r d.item d'.item) :
      Sets t r d (.global d'.definition.node)

def SetsAll (t : Tree) (r : Resolution) (seq : List Declared) (inits : List Init) : Prop :=
  List.Forall₂ (fun d i => i.target = d.definition.node ∧ Sets t r d i.value) seq inits

/-- Why there is nothing to set a variable to, with the fault that says so. -/
inductive Unvalued (t : Tree) (r : Resolution) (d : Declared) : Fault → Prop where
  /-- Its name is bound to nothing. -/
  | unresolved {e : Expr} {name : Bytes} (he : t.reference? d.definition = some (e, name))
      (h : r.binding? e.node = none) : Unvalued t r d (.unresolvedReference e.span)
  /-- Its literal does not fit. -/
  | outOfBounds {e : Expr} {digits : Bytes} {i : Int} (he : t.expr? d.definition.value = some e)
      (hb : e.body = .literal digits) (hi : Literal.integer? digits = some i)
      (h : i < -2 ^ 31 ∨ 2 ^ 31 - 1 < i) : Unvalued t r d (.initializerNotConstant e.span)
  /-- Its name is bound to a constant without a value. -/
  | notConstant {e : Expr} {name : Bytes} {b : Binding}
      (he : t.reference? d.definition = some (e, name)) (hb : r.binding? e.node = some b)
      (hk : b.target.definition.kind = .const) (h : ∀ v, ¬ Folds r b.target.item v) :
      Unvalued t r d (.initializerNotConstant e.span)

/-- Why a variable cannot be set, with the fault that says so. -/
inductive Refuses (s : SourceSet) (t : Tree) (r : Resolution) (d : Declared) : Fault → Prop where
  /-- It reaches itself. -/
  | circular (h : TransGen (Refers r) d.item d.item) :
      Refuses s t r d (.circularGlobal (key (dotPathOf s d.file) d.definition.name))
  | unvalued {f : Fault} (h : Unvalued t r d f) : Refuses s t r d f

section Faults

variable (h : t.Numbered s.size next) (hr : Resolved s t root r) {d : Declared}
  (hd : t.definition? d.item = some d) {cache : ConstantCache} (hcache : Faithful r cache)

include hr hd hcache

lemma Unvalued.initValue {f : Fault} (hf : Unvalued t r d f) :
    initValue r d.item cache = .error f := by
  cases hf with
  | unresolved href hnone =>
    obtain ⟨he, hb⟩ := reference?_eq_some.1 href
    simp [Plan.initValue, hr.tree, hd, he, hb, hnone]
  | outOfBounds he hb hi hout =>
    have hvalue := (Validation.value?_eq_none hi).2 hout
    simp [Plan.initValue, hr.tree, hd, he, hb, exprValue, hvalue]
  | @notConstant e name b href hbind hk hno =>
    obtain ⟨he, hb⟩ := reference?_eq_some.1 href
    have hvalue : (r.constant b.target.item cache).1 = none := by
      by_contra hsome
      obtain ⟨v, hv⟩ := Option.ne_none_iff_exists'.1 hsome
      exact hno v (((constant_spec hcache b.target.item).1 v).1 hv)
    have hexpr : r.exprValue e cache = (none, (r.constant b.target.item cache).2) := by
      simp [exprValue, hb, hbind, hk, ← hvalue]
    simp [Plan.initValue, hr.tree, hd, he, hb, hbind, hk, hexpr]

include h

/-- **One variable** has no value or is set rightly. -/
lemma initValue_cases : (∃ f, Unvalued t r d f) ∨
    ∃ value cache', Plan.initValue r d.item cache = .ok (value, cache') ∧ Sets t r d value ∧
      Faithful r cache' := by
  obtain ⟨e, he, hinit⟩ := h.value hd
  simp only [Plan.initValue, hr.tree, hd, Option.bind_some, he]
  cases hb : e.body with
  | literal digits =>
    obtain ⟨i, hi⟩ := hinit.readable digits hb
    cases hvalue : Literal.value? digits with
    | none => exact .inl ⟨_, .outOfBounds he hb hi ((Validation.value?_eq_none hi).1 hvalue)⟩
    | some v =>
      obtain ⟨j, hj, rfl⟩ := integer?_of_value? hvalue
      have hspells : Spells r d.item digits := ⟨d, e, hr.tree ▸ hd, hr.tree ▸ he, hb⟩
      refine .inr ⟨_, cache, ?_, .const (.literal hspells hj), hcache⟩
      simp only [exprValue, hb, hvalue]
  | name name =>
    have href : t.reference? d.definition = some (e, name) := reference?_eq_some.2 ⟨he, hb⟩
    have hfollow := follow?_of_name (hr.tree ▸ hd) (hr.tree ▸ he) hb
    cases hbind : r.binding? e.node with
    | none => exact .inl ⟨_, .unresolved href hbind⟩
    | some b =>
      rw [hbind, Option.map_some] at hfollow
      cases hkind : b.target.definition.kind with
      | var =>
        have htarget : t.definition? b.target.item = some b.target :=
          hr.tree ▸ hr.grounded h hfollow
        refine .inr ⟨_, cache, ?_, .global (h.mem_vars_iff.2 ⟨htarget, hkind⟩)
          (refers_of_follow hfollow), hcache⟩
        simp only [hkind]
      | const =>
        obtain ⟨htells, hcache'⟩ := constant_spec hcache b.target.item
        cases hvalue : (r.constant b.target.item cache).1 with
        | none =>
          refine .inl ⟨_, .notConstant href hbind hkind fun v hv => ?_⟩
          simp [(htells v).2 hv] at hvalue
        | some v =>
          obtain ⟨i, hi, rfl⟩ := ((htells v).1 hvalue).denotes
          refine .inr ⟨_, (r.constant b.target.item cache).2, ?_,
            .const (.refers (refers_of_follow hfollow) hi), hcache'⟩
          have hexpr : r.exprValue e cache = r.constant b.target.item cache := by
            simp [exprValue, hb, hbind, hkind]
          simp only [hkind, hexpr]
          rw [← Prod.eta (r.constant b.target.item cache), hvalue]

omit hd in
lemma initsOf_cases (order : List Nat) :
    (∃ d ∈ t.vars, ∃ f, Unvalued t r d f ∧
        initsOf r (order.filterMap fun i => (globalsIn s t)[i]?) cache = .error f) ∨
      (∀ d ∈ order.filterMap fun i => t.vars[i]?, ∀ f, ¬ Unvalued t r d f) ∧
        ∃ inits, initsOf r (order.filterMap fun i => (globalsIn s t)[i]?) cache = .ok inits ∧
          SetsAll t r (order.filterMap fun i => t.vars[i]?) inits := by
  induction order generalizing cache with
  | nil => exact .inr ⟨by simp, [], rfl, .nil⟩
  | cons i order ih =>
    rw [List.filterMap_cons, List.filterMap_cons, getElem?_globalsIn]
    cases hd : t.vars[i]? with
    | none => exact ih hcache
    | some d =>
      have hmem := List.mem_of_getElem? hd
      have hdef := (h.mem_vars_iff.1 hmem).1
      simp only [Option.map_some]
      rw [initsOf, show (globalAt s d i).item = d.item from rfl]
      rcases initValue_cases h hr hdef hcache with ⟨f, hf⟩ | ⟨value, cache', hv, hsets, hcache'⟩
      · refine .inl ⟨d, hmem, f, hf, ?_⟩
        rw [hf.initValue hr hdef hcache]
        rfl
      · have hfree : ∀ f, ¬ Unvalued t r d f := fun f hf => by
          simp [hf.initValue hr hdef hcache] at hv
        rw [hv]
        rcases ih hcache' with ⟨d', hd', f, hf, hfail⟩ | ⟨hrest, inits, hinits, hall⟩
        · refine .inl ⟨d', hd', f, hf, ?_⟩
          show (initsOf r _ cache' >>= _ : Except Fault _) = _
          rw [hfail]
          rfl
        · refine .inr ⟨List.forall_mem_cons.2 ⟨hfree, hrest⟩,
            ⟨d.definition.node, value⟩ :: inits, ?_, .cons ⟨rfl, hsets⟩ hall⟩
          show (initsOf r _ cache' >>= _ : Except Fault _) = _
          rw [hinits]
          rfl

end Faults

lemma filterMap_range {α : Type} (l : List α) :
    ((List.range l.length).filterMap fun i => l[i]?) = l := by
  induction l using List.reverseRecOn with
  | nil => rfl
  | append_singleton l a ih =>
    rw [List.length_append, List.length_singleton, List.range_succ, List.filterMap_append]
    have hold : ((List.range l.length).filterMap fun i => (l ++ [a])[i]?) = l := by
      conv_rhs => rw [← ih]
      refine List.filterMap_congr fun i hi => ?_
      rw [List.getElem?_append_left (List.mem_range.1 hi)]
    rw [hold]
    simp

variable (h : t.Numbered s.size next) (hr : Resolved s t root r)

include h hr

lemma lower_eq : lower s r = do
    let order ← initOrder r (globalsIn s t)
    let inits ← initsOf r (order.filterMap fun i => (globalsIn s t)[i]?) []
    return ⟨globalsIn s t, inits, cellSize * t.vars.length.toUInt32⟩ := by
  rw [lower, hr.tree, placed_ok h, ← length_globalsIn (s := s)]
  rfl

/-- **The plan**: some variable cannot be set, or all variables are placed, and each is set once and
after all that it depends on. -/
theorem lower_cases :
    (∃ d ∈ t.vars, ∃ f, Refuses s t r d f ∧ lower s r = .error f) ∨
      (∀ d ∈ t.vars, ∀ f, ¬ Refuses s t r d f) ∧ ∃ inits seq,
        lower s r = .ok ⟨globalsIn s t, inits, cellSize * t.vars.length.toUInt32⟩ ∧
          seq.Perm t.vars ∧ SetsAll t r seq inits ∧
          ∀ {d d' before after}, seq = before ++ d :: after → d' ∈ t.vars →
            TransGen (Refers r) d.item d'.item → d' ∈ before := by
  rw [lower_eq h hr]
  rcases initOrder_cases h hr with ⟨d, hd, hcycle, hfail⟩ | ⟨hacyclic, order, horder, hperm, hprior⟩
  · refine .inl ⟨d, hd, _, .circular hcycle, ?_⟩
    rw [hfail]
    rfl
  rw [horder]
  have hseq : (order.filterMap fun i => t.vars[i]?).Perm t.vars := by
    have := hperm.filterMap fun i => t.vars[i]?
    rwa [filterMap_range] at this
  rcases initsOf_cases h hr faithful_nil order with
    ⟨d, hd, f, hf, hfail⟩ | ⟨hfree, inits, hinits, hall⟩
  · refine .inl ⟨d, hd, f, .unvalued hf, ?_⟩
    show (initsOf r _ [] >>= _ : Except Fault _) = _
    rw [hfail]
    rfl
  refine .inr ⟨fun d hd f hf => ?_, inits, order.filterMap fun i => t.vars[i]?, ?_, hseq, hall, ?_⟩
  · cases hf with
    | circular hcycle => exact hacyclic d hd hcycle
    | unvalued hf => exact hfree d (hseq.mem_iff.2 hd) f hf
  · show (initsOf r _ [] >>= _ : Except Fault _) = _
    rw [hinits]
    rfl
  · intro d d' before after hsplit hd' hdep
    obtain ⟨l, l', rfl, hbefore', hl'⟩ := List.filterMap_eq_append_iff.1 hsplit
    obtain ⟨l1, b, l2, rfl, hskip, hd, -⟩ := List.filterMap_eq_cons_iff.1 hl'
    obtain ⟨a, ha⟩ := List.getElem?_of_mem hd'
    have hmem : a ∈ l ++ l1 := hprior (List.append_assoc l l1 _).symm ⟨d, d', hd, ha, hdep⟩
    rw [← hbefore']
    rcases List.mem_append.1 hmem with hmem | hmem
    · exact List.mem_filterMap.2 ⟨a, hmem, ha⟩
    · rw [hskip a hmem] at ha
      simp at ha

lemma not_refuses (hsound : ¬ Validation.Violation s t root r) {d : Declared} (hd : d ∈ t.vars)
    (f : Fault) : ¬ Refuses s t r d f := by
  have hdef := (h.mem_vars_iff.1 hd).1
  intro hf
  rcases hf with hcycle | hf
  · exact hsound (.circular hcycle)
  · cases hf with
    | unresolved he hnone => exact hsound (.unresolved hdef he hnone)
    | outOfBounds he hb hi hout => exact hsound (.outOfBounds hdef he hb hi hout)
    | notConstant href hbind hk hno =>
      obtain ⟨he, hb⟩ := reference?_eq_some.1 href
      have hfollow := follow?_of_name (hr.tree ▸ hdef) (hr.tree ▸ he) hb
      rw [hbind, Option.map_some] at hfollow
      have htarget := hr.tree ▸ hr.grounded h hfollow
      obtain ⟨i, hi, -⟩ := exists_denotes h hr hsound htarget
      exact hno _ (folds_of_denotes h hr hsound htarget hk hi)

/-- The plan of a program that breaks no rule. -/
theorem lower_ok (hsound : ¬ Validation.Violation s t root r) : ∃ inits seq,
    lower s r = .ok ⟨globalsIn s t, inits, cellSize * t.vars.length.toUInt32⟩ ∧
      seq.Perm t.vars ∧ SetsAll t r seq inits ∧
      ∀ {d d' before after}, seq = before ++ d :: after → d' ∈ t.vars →
        TransGen (Refers r) d.item d'.item → d' ∈ before := by
  rcases lower_cases h hr with ⟨d, hd, f, hf, -⟩ | ⟨-, hplan⟩
  · exact absurd hf (not_refuses h hr hsound hd f)
  · exact hplan

end Settings

end Plan

end StateBuffer
