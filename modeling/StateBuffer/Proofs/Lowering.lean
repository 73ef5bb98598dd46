import StateBuffer.Proofs.Plan

/-!
What plans are like. A plan is refused exactly when some variable reaches itself or has nothing to
be set to; the order of setting never fails on its own. A plan that is made has the variables of all
files one after the other, finds each by its node, and sets each once and no variable from one that
is not yet set. All this holds of every program, whether or not it passes the checks.
-/

namespace StateBuffer

namespace Plan

/-! ### Finding a variable -/

section Search

variable {globals : List Global} {node : NodeId} {low high : Nat}

/-- The variables before `low` have smaller nodes, those from `high` on have not. -/
structure Between (globals : List Global) (node : NodeId) (low high : Nat) : Prop where
  below : ∀ {i g}, i < low → globals[i]? = some g → g.node < node
  above : ∀ {i g}, high ≤ i → globals[i]? = some g → node ≤ g.node

lemma node_mono (hasc : globals.Pairwise fun a b => a.node < b.node) {i j : Nat} {a b : Global}
    (hi : globals[i]? = some a) (hj : globals[j]? = some b) (hij : i ≤ j) : a.node ≤ b.node := by
  obtain ⟨hi', rfl⟩ := List.getElem?_eq_some_iff.1 hi
  obtain ⟨hj', rfl⟩ := List.getElem?_eq_some_iff.1 hj
  rcases Nat.lt_or_eq_of_le hij with hlt | rfl
  · exact Nat.le_of_lt (List.pairwise_iff_getElem.1 hasc i j hi' hj' hlt)
  · exact Nat.le_refl _

/-- Halving keeps the bounds, until they meet. -/
lemma Between.search (hasc : globals.Pairwise fun a b => a.node < b.node) (hle : low ≤ high)
    (hhigh : high ≤ globals.length) (h : Between globals node low high) :
    Between globals node (searchNode globals node low high)
      (searchNode globals node low high) := by
  fun_induction searchNode globals node low high with
  | case1 low high hlt middle hnone =>
    have := List.getElem?_eq_none_iff.1 hnone
    omega
  | case2 low high hlt middle g hg hnode ih =>
    refine ih (by omega) hhigh ⟨fun {i a} hi ha => ?_, h.above⟩
    have := node_mono hasc ha hg (by omega)
    exact Nat.lt_of_le_of_lt this hnode
  | case3 low high hlt middle g hg hnode ih =>
    refine ih (by omega) (by omega) ⟨h.below, fun {i a} hi ha => ?_⟩
    have := node_mono hasc hg ha hi
    exact Nat.le_trans (Nat.not_lt.1 hnode) this
  | case4 low high hlt =>
    obtain rfl : low = high := by omega
    exact h

/-- **Finding a variable** by its node. -/
theorem global?_eq_some_iff {p : Plan} (hasc : p.globals.Pairwise fun a b => a.node < b.node)
    {g : Global} : p.global? node = some g ↔ g ∈ p.globals ∧ g.node = node := by
  have hbounds : Between p.globals node 0 p.globals.length :=
    ⟨fun {i g} hi => by omega, fun {i g} hi hg => by
      have := (List.getElem?_eq_some_iff.1 hg).1
      omega⟩
  have hfound := hbounds.search hasc (Nat.zero_le _) (Nat.le_refl _)
  unfold global?
  set place := searchNode p.globals node 0 p.globals.length
  rw [Option.filter_eq_some_iff, decide_eq_true_iff]
  constructor
  · rintro ⟨hg, hnode⟩
    exact ⟨List.mem_of_getElem? hg, hnode⟩
  · rintro ⟨hg, hnode⟩
    refine ⟨?_, hnode⟩
    obtain ⟨i, hi⟩ := List.getElem?_of_mem hg
    have hle : place ≤ i := by
      by_contra hlt
      have hless := hfound.below (by omega) hi
      exact Nat.ne_of_lt hless hnode
    -- no other variable stands between, since nodes are distinct
    have hlen := (List.getElem?_eq_some_iff.1 hi).1
    have hplace := List.getElem?_eq_getElem (l := p.globals) (i := place) (by omega)
    rcases Nat.lt_or_eq_of_le hle with hlt | rfl
    · have hless := List.pairwise_iff_getElem.1 hasc place i (by omega) hlen hlt
      have hmore := hfound.above (Nat.le_refl _) hplace
      rw [(List.getElem?_eq_some_iff.1 hi).2, hnode] at hless
      exact absurd hless (Nat.not_lt.2 hmore)
    · exact hi

end Search

/-! ### The plan as a whole -/

/-- A plan of the variables of a tree. -/
structure WellFormed (t : Tree) (p : Plan) : Prop where
  vars : p.globals.map (fun g => (g.item, g.node, g.file)) =
    t.vars.map fun d => (d.item, d.definition.node, d.file)
  ascending : p.globals.Pairwise fun a b => a.node < b.node
  offset : ∀ i g, p.globals[i]? = some g → g.offset.toNat = 4 * i
  size : p.size.toNat = 4 * p.globals.length
  find : ∀ node g, p.global? node = some g ↔ g ∈ p.globals ∧ g.node = node
  targets : (p.inits.map Init.target).Perm (p.globals.map Global.node)
  earlier : ∀ before i after node, p.inits = before ++ i :: after → i.value = .global node →
    ∃ j ∈ before, j.target = node

section Whole

open Resolution Relation

variable {s : SourceSet} {t : Tree} {next : NodeId} {root : Bytes} {r : Resolution}

lemma SetsAll.targets {seq : List Declared} {inits : List Init} (hall : SetsAll t r seq inits) :
    inits.map Init.target = seq.map fun d => d.definition.node := by
  induction hall with
  | nil => rfl
  | cons hd _ ih => rw [List.map_cons, List.map_cons, hd.1, ih]

lemma SetsAll.split {seq : List Declared} {i : Init} {before after : List Init}
    (hall : SetsAll t r seq (before ++ i :: after)) :
    ∃ front d back, seq = front ++ d :: back ∧ SetsAll t r front before ∧ Sets t r d i.value := by
  induction before generalizing seq with
  | nil =>
    cases hall with
    | cons hd => exact ⟨[], _, _, rfl, .nil, hd.2⟩
  | cons j before ih =>
    cases hall with
    | cons hd hall =>
      obtain ⟨front, d, back, rfl, hfront, hi⟩ := ih hall
      exact ⟨_ :: front, d, back, rfl, .cons hd hfront, hi⟩

variable (h : t.Numbered s.size next) (hr : Resolved s t root r)

include h hr

lemma wellFormed_of_lower {p : Plan} (hlower : lower s r = .ok p)
    (hfew : t.vars.length < 2 ^ 30) : WellFormed t p := by
  rcases lower_cases h hr with ⟨d, -, f, -, hfail⟩ | ⟨-, inits, seq, hok, hperm, hall, hbefore⟩
  · simp [hfail] at hlower
  obtain rfl := Except.ok.inj (hlower.symm.trans hok)
  have hasc : (globalsIn s t).Pairwise fun a b => a.node < b.node := by
    have hnodes := List.pairwise_map.2 h.pairwise_vars_node
    rw [← map_node_globalsIn (s := s)] at hnodes
    exact List.pairwise_map.1 hnodes
  constructor
  case vars =>
    refine List.ext_getElem? fun i => ?_
    simp only [List.getElem?_map, getElem?_globalsIn, Option.map_map]
    rfl
  case ascending => exact hasc
  case offset =>
    intro i g hg
    rw [getElem?_globalsIn] at hg
    obtain ⟨d, hd, rfl⟩ := Option.map_eq_some_iff.1 hg
    have := (List.getElem?_eq_some_iff.1 hd).1
    exact toNat_cellSize_mul (by omega)
  case size =>
    rw [length_globalsIn]
    exact toNat_cellSize_mul hfew
  case find => exact fun node g => global?_eq_some_iff hasc
  case targets =>
    rw [hall.targets, map_node_globalsIn]
    exact hperm.map _
  case earlier =>
    rintro before i after node rfl hvalue
    obtain ⟨front, d, back, rfl, hfront, hi⟩ := hall.split
    rw [hvalue] at hi
    cases hi with
    | @global d' hd' href =>
      have hmem := hbefore rfl hd' (.single href)
      have htarget : d'.definition.node ∈ before.map Init.target := by
        rw [hfront.targets]
        exact List.mem_map_of_mem hmem
      exact List.mem_map.1 htarget

end Whole

end Plan

namespace Project

open Resolution Plan

/-- **Plans are refused for stated reasons only, and else well-formed.** Whatever the texts, the
plan of the resolved program is refused exactly if some variable reaches itself, has a name bound to
nothing, a literal that does not fit or a name bound to a constant without a value, and the fault
says which; so the order of setting is never refused as cyclic. A plan that is made is
well-formed. -/
theorem lower_exact (texts : List SourceText) (root : Bytes) :
    ∃ r, Resolution.ofTree (sourcesOf texts) (treeOf texts) root = .ok r ∧
      ((∃ f, lower (sourcesOf texts) r = .error f) ↔
        ∃ d ∈ (treeOf texts).vars, ∃ f, Refuses (sourcesOf texts) (treeOf texts) r d f) ∧
      (∀ f, lower (sourcesOf texts) r = .error f →
        ∃ d ∈ (treeOf texts).vars, Refuses (sourcesOf texts) (treeOf texts) r d f) ∧
      (∀ nodes, lower (sourcesOf texts) r ≠ .error (.cyclicOrder nodes)) ∧
      ∀ p, lower (sourcesOf texts) r = .ok p → (treeOf texts).vars.length < 2 ^ 30 →
        p.WellFormed (treeOf texts) := by
  obtain ⟨next, h⟩ := numbered_treeOf texts
  obtain ⟨r, hr, hres⟩ := ofTree_resolved h root
  have hcases := lower_cases h hres
  have hfault : ∀ f, lower (sourcesOf texts) r = .error f →
      ∃ d ∈ (treeOf texts).vars, Refuses (sourcesOf texts) (treeOf texts) r d f := by
    intro f hf
    rcases hcases with ⟨d, hd, f', hf', hfail⟩ | ⟨-, inits, seq, hok, -⟩
    · rw [hf] at hfail
      obtain rfl := Except.error.inj hfail
      exact ⟨d, hd, hf'⟩
    · simp [hok] at hf
  refine ⟨r, hr, ⟨fun ⟨f, hf⟩ => ?_, fun ⟨d, hd, f, hf⟩ => ?_⟩, hfault, fun nodes hcyclic => ?_,
    fun p hp hfew => wellFormed_of_lower h hres hp hfew⟩
  · obtain ⟨d, hd, hrefuses⟩ := hfault f hf
    exact ⟨d, hd, f, hrefuses⟩
  · rcases hcases with ⟨d, hd, f', -, hfail⟩ | ⟨hfree, -⟩
    · exact ⟨f', hfail⟩
    · exact absurd hf (hfree d hd f)
  · obtain ⟨d, hd, hrefuses⟩ := hfault _ hcyclic
    rcases hrefuses with - | hunvalued
    cases hunvalued

/-- A name defined twice, a constant without a value, and a variable set from a later file. -/
def unsound : List SourceText :=
  [⟨"m.gpex", "m", "import n;var a=b;const k=k;", false⟩,
    ⟨"n.gpex", "n", "pub var b=1;pub var b=2;", false⟩]

/-- A plan is made and well-formed though the program breaks rules. -/
theorem lower_exact_unsound :
    ∃ r p, Resolution.ofTree (sourcesOf unsound) (treeOf unsound) "" = .ok r ∧
      (∃ d ∈ (Validation.check r).diagnostics, d.severity = .error) ∧
      lower (sourcesOf unsound) r = .ok p ∧ (treeOf unsound).vars.length < 2 ^ 30 ∧
      p.inits = [⟨5, .const 1⟩, ⟨7, .const 2⟩, ⟨1, .global 7⟩] ∧
      p.WellFormed (treeOf unsound) := by
  obtain ⟨r, hr, -, -, -, hwell⟩ := lower_exact unsound ""
  have hbad : (Resolution.ofTree (sourcesOf unsound) (treeOf unsound) "").toOption.map
      (fun r => (Validation.check r).diagnostics.any fun d => d.severity = .error) =
        some true := by
    decide +kernel
  have horder : (Resolution.ofTree (sourcesOf unsound) (treeOf unsound) "").toOption.map
      (fun r => initOrder r (globalsIn (sourcesOf unsound) (treeOf unsound))) =
        some (.ok [1, 2, 0]) := by
    decide +kernel
  have hinits : (Resolution.ofTree (sourcesOf unsound) (treeOf unsound) "").toOption.map
      (fun r => initsOf r ([1, 2, 0].filterMap fun i =>
        (globalsIn (sourcesOf unsound) (treeOf unsound))[i]?) []) =
        some (.ok [⟨5, .const 1⟩, ⟨7, .const 2⟩, ⟨1, .global 7⟩]) := by
    decide +kernel
  have hfew : (treeOf unsound).vars.length < 2 ^ 30 := by decide +kernel
  simp only [hr, Except.toOption, Option.map_some, Option.some.injEq] at hbad horder hinits
  obtain ⟨next, h⟩ := numbered_treeOf unsound
  obtain ⟨r', hr', hres⟩ := ofTree_resolved h ""
  obtain rfl := Except.ok.inj (hr.symm.trans hr')
  obtain ⟨p, hlower, hp⟩ : ∃ p, lower (sourcesOf unsound) r = .ok p ∧
      p.inits = [⟨5, .const 1⟩, ⟨7, .const 2⟩, ⟨1, .global 7⟩] := by
    rw [lower_eq h hres, horder]
    show ∃ p, (initsOf r _ [] >>= _ : Except Fault _) = .ok p ∧ _
    rw [hinits]
    exact ⟨_, rfl, rfl⟩
  exact ⟨r, p, hr, by simpa using hbad, hlower, hfew, hp, hwell p hlower hfew⟩

end Project

end StateBuffer
