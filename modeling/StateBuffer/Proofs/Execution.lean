import StateBuffer.Proofs.Machine.Simulation
import StateBuffer.Proofs.Plan
import StateBuffer.Proofs.Shader.Emission

/-!
Programs from their texts to their values. The settings of a plan come in an order in which every
right-hand side is known, so the machine executes them all, and each variable ends up with the value
that its initializer denotes.
-/

namespace StateBuffer

lemma Shader.understood_ofText? : Understood Wgsl.ModuleTree.ofText? := fun p _ => ofText?_emit p

namespace Plan

open Resolution Relation

/-- The values of these variables are known. -/
def Known (r : Resolution) (done : List Declared) (cells : Cells) : Prop :=
  ∀ d ∈ done, ∀ i, Denotes r d.item i → cells d.definition.node = some (Int32.ofInt i)

section Known

variable {s : SourceSet} {t : Tree} {next : NodeId} {root : Bytes} {r : Resolution}
  (h : t.Numbered s.size next) (hr : Resolved s t root r)
  (hsound : ¬ Validation.Violation s t root r) {done : List Declared} {cells : Cells}

include h hr hsound

/-- **One setting** makes the value of its variable known. -/
lemma Known.step (hk : Known r done cells) {d : Declared} (hvars : ∀ d' ∈ done ++ [d], d' ∈ t.vars)
    {value : InitValue} (hsets : Sets t r d value)
    (hbefore : ∀ d' ∈ t.vars, Refers r d.item d'.item → d' ∈ done) :
    ∃ v, value.known? cells = some v ∧
      Known r (done ++ [d]) (Function.update cells d.definition.node (some v)) := by
  have hvalue : ∃ i, Denotes r d.item i ∧ value.known? cells = some (Int32.ofInt i) := by
    cases hsets with
    | const hi => exact ⟨_, hi, rfl⟩
    | @global d' hd' href =>
      obtain ⟨i, hi, -⟩ := exists_denotes h hr hsound (h.mem_vars_iff.1 hd').1
      exact ⟨i, .refers href hi, hk d' (hbefore d' hd' href) i hi⟩
  obtain ⟨i, hi, hv⟩ := hvalue
  refine ⟨_, hv, fun d' hd' j hj => ?_⟩
  by_cases hnode : d'.definition.node = d.definition.node
  · obtain rfl : d' = d := by
      have hd := hvars d (by simp)
      exact h.node_inj (h.mem_vars_iff.1 (hvars d' hd')).1 (h.mem_vars_iff.1 hd).1 hnode
    rw [Function.update_self, hi.unique hj]
  · have hmem : d' ∈ done := by
      rcases List.mem_append.1 hd' with hmem | hmem
      · exact hmem
      · exact absurd (by rw [List.mem_singleton.1 hmem]) hnode
    rw [Function.update_of_ne hnode]
    exact hk d' hmem j hj

/-- **All settings** can be made, and make all values known. -/
lemma Known.run {rest : List Declared} {inits : List Init} (hall : SetsAll t r rest inits)
    (hk : Known r done cells) (hvars : ∀ d ∈ done ++ rest, d ∈ t.vars)
    (hbefore : ∀ {d d' before after}, done ++ rest = before ++ d :: after → d' ∈ t.vars →
      TransGen (Refers r) d.item d'.item → d' ∈ before) :
    ∃ cells', Settles ((globalsIn s t).map Global.node) cells inits cells' ∧
      Known r (done ++ rest) cells' := by
  induction hall generalizing done cells with
  | nil => exact ⟨cells, .nil, by rwa [List.append_nil]⟩
  | @cons d i rest inits hset _ ih =>
    have hsplit : done ++ [d] ++ rest = done ++ d :: rest := by simp
    have hd : d ∈ t.vars := hvars d (by simp)
    obtain ⟨v, hv, hk'⟩ := hk.step h hr hsound
      (fun d' hd' => hvars d' (hsplit ▸ List.mem_append_left rest hd')) hset.2
      (fun d' hd' href => hbefore rfl hd' (.single href))
    rw [← hsplit] at hvars hbefore ⊢
    obtain ⟨cells', hsettles, hknown⟩ := ih hk' hvars hbefore
    refine ⟨cells', .cons ?_ hv ?_, hknown⟩
    · rw [hset.1, map_node_globalsIn]
      exact List.mem_map_of_mem hd
    · rw [hset.1]
      exact hsettles

end Known

/-- **A program that breaks no rule runs**, and its variables hold what they denote. -/
lemma run_of_sound {reader : Bytes → Option Wgsl.ModuleTree} (hread : Shader.Understood reader)
    {s : SourceSet} {t : Tree} {next : NodeId} {root : Bytes} {r : Resolution}
    (h : t.Numbered s.size next) (hr : Resolved s t root r)
    (hsound : ¬ Validation.Violation s t root r) (hvars : t.vars.length < 2 ^ 30) :
    ∃ p m m', lower s r = .ok p ∧ Machine.ofProgramBy reader p.program = .ok m ∧
      m.run = (m', none) ∧
      ∀ d ∈ t.vars, ∃ g i, (∀ g', g' ∈ p.globals ∧ g'.item = d.item ↔ g' = g) ∧
        (∀ j, Denotes r d.item j ↔ j = i) ∧ Memory.Holds m'.memory g.offset.toNat i := by
  obtain ⟨inits, seq, hlower, hperm, hall, hbefore⟩ := lower_ok h hr hsound
  have hnothing : Known r [] fun _ => none := by simp [Known]
  obtain ⟨cells, hsettles, hknown⟩ :=
    hnothing.run h hr hsound hall (fun d hd => hperm.subset hd) hbefore
  have hnodup : ((globalsIn s t).map Global.node).Nodup := by
    rw [map_node_globalsIn]
    exact List.pairwise_map.2 (h.pairwise_vars_node.imp fun hlt => Nat.ne_of_lt hlt)
  have hsize : (cellSize * t.vars.length.toUInt32).toNat = 4 * (globalsIn s t).length := by
    rw [toNat_cellSize_mul hvars, length_globalsIn]
  obtain ⟨m, m', hm, hrun, hmirrors⟩ := Machine.ofProgramBy_run hread
    (p := ⟨globalsIn s t, inits, cellSize * t.vars.length.toUInt32⟩) hnodup hsize hsettles
  refine ⟨_, m, m', hlower, hm, hrun, fun d hd => ?_⟩
  obtain ⟨i, hi, hlow, hhigh⟩ := exists_denotes h hr hsound (h.mem_vars_iff.1 hd).1
  have hcell := hknown d (hperm.symm.subset hd) i hi
  obtain ⟨k, hk, -, hmemory⟩ := hmirrors.known hcell
  have hplace : t.vars[k]? = some d := by
    rw [map_node_globalsIn, List.getElem?_map] at hk
    obtain ⟨d', hd', hnode⟩ := Option.map_eq_some_iff.1 hk
    have hdef := (h.mem_vars_iff.1 (List.mem_of_getElem? hd')).1
    rw [hd', h.node_inj hdef (h.mem_vars_iff.1 hd).1 hnode]
  have hlt : k < t.vars.length := (List.getElem?_eq_some_iff.1 hplace).1
  refine ⟨globalAt s d k, i, fun g => mem_globalsIn_iff h hplace, fun j => ⟨fun hj => ?_, ?_⟩, ?_⟩
  · exact hj.unique hi
  · rintro rfl
    exact hi
  · rw [show (globalAt s d k).offset = cellSize * k.toUInt32 from rfl,
      toNat_cellSize_mul (Nat.lt_trans hlt hvars)]
    exact Memory.holds_of_cell ⟨hlow, by omega⟩ hmemory

end Plan

namespace Project

open Resolution

/-- **Programs run to the values of their variables.** Take any reader that understands the shaders
of plans. The names of all files of a set, whatever their texts and dot paths, can be resolved. If
the check of the resolved program gives no error, and there are fewer than 2^30 variables, so that
sizes do not wrap around, then the program is lowered to a plan, the machine takes the plan's
program and runs it without an error, and afterwards every variable of every file, placed once in
the buffer, holds the integer to which references lead from it. -/
theorem run_holds_values (reader : Bytes → Option Wgsl.ModuleTree)
    (hread : Shader.Understood reader) (texts : List SourceText) (root : Bytes) :
    ∃ r, Resolution.ofTree (sourcesOf texts) (treeOf texts) root = .ok r ∧
      ((∀ e ∈ (Validation.check r).diagnostics, e.severity ≠ .error) →
        (treeOf texts).vars.length < 2 ^ 30 →
        ∃ p m m', Plan.lower (sourcesOf texts) r = .ok p ∧
          Machine.ofProgramBy reader p.program = .ok m ∧ m.run = (m', none) ∧
          ∀ d, (treeOf texts).definition? d.item = some d → d.definition.kind = .var →
            ∃ g i, (∀ g', g' ∈ p.globals ∧ g'.item = d.item ↔ g' = g) ∧
              (∀ j, Denotes r d.item j ↔ j = i) ∧ Memory.Holds m'.memory g.offset.toNat i) := by
  obtain ⟨next, h⟩ := numbered_treeOf texts
  obtain ⟨r, hr, hres⟩ := ofTree_resolved h root
  refine ⟨r, hr, fun hclean hvars => ?_⟩
  have hsound : ¬ Validation.Violation (sourcesOf texts) (treeOf texts) root r := by
    intro hv
    obtain ⟨e, he, hsev⟩ := hv.hasError h hres
    exact hclean e he hsev
  obtain ⟨p, m, m', hlower, hm, hrun, hall⟩ := Plan.run_of_sound hread h hres hsound hvars
  refine ⟨p, m, m', hlower, hm, hrun, fun d hd hk => ?_⟩
  exact hall d (h.mem_vars_iff.2 ⟨hd, hk⟩)

/-- A variable that is set to one of another file, which is set to a constant. -/
def crossing : List SourceText :=
  [⟨"m.gpex", "m", "import p;var v=w;", false⟩,
    ⟨"p.gpex", "p", "const k=-7;pub var w=k;", false⟩]

/-- A value is passed on through another file. -/
theorem run_holds_values_crossing :
    ∃ r p m m' g, Resolution.ofTree (sourcesOf crossing) (treeOf crossing) "" = .ok r ∧
      Plan.lower (sourcesOf crossing) r = .ok p ∧
      Machine.ofProgramBy Wgsl.ModuleTree.ofText? p.program = .ok m ∧ m.run = (m', none) ∧
      g ∈ p.globals ∧ g.item = 2 ∧ Denotes r 2 (-7) ∧
      Memory.Holds m'.memory g.offset.toNat (-7) := by
  obtain ⟨r, hr, h⟩ :=
    run_holds_values Wgsl.ModuleTree.ofText? Shader.understood_ofText? crossing ""
  have hclean : (Resolution.ofTree (sourcesOf crossing) (treeOf crossing) "").toOption.map
      (fun r => (Validation.check r).diagnostics.all fun e => e.severity ≠ .error) = some true := by
    decide +kernel
  have hfollow : (Resolution.ofTree (sourcesOf crossing) (treeOf crossing) "").toOption.map
      (fun r => (r.follow? 2, r.follow? 4).map (Option.map fun x => x.2.item)
        (Option.map fun x => x.2.item)) = some (some 4, some 3) := by
    decide +kernel
  have hvalue : (Resolution.ofTree (sourcesOf crossing) (treeOf crossing) "").toOption.map
      (fun r => ((r.tree.definition? 3).bind fun d => r.tree.expr? d.definition.value).map
        Expr.body) = some (some (.literal "-7")) := by
    decide +kernel
  have hvar : ((treeOf crossing).definition? 2).map (fun d => d.definition.kind) = some .var := by
    decide +kernel
  simp only [hr, Except.toOption, Option.map_some, Option.some.injEq, Prod.map_apply,
    Prod.mk.injEq] at hclean hfollow hvalue
  obtain ⟨⟨⟨span, d4⟩, h24, hd4⟩, ⟨span', d3⟩, h43, hd3⟩ :=
    And.imp Option.map_eq_some_iff.1 Option.map_eq_some_iff.1 hfollow
  obtain ⟨e, he, hbody⟩ := Option.map_eq_some_iff.1 hvalue
  obtain ⟨d, hd, he⟩ := Option.bind_eq_some_iff.1 he
  have hdenotes : Denotes r 2 (-7) :=
    .refers ⟨span, d4, h24, hd4⟩ (.refers ⟨span', d3, h43, hd3⟩
      (.literal ⟨d, e, hd, he, hbody⟩ (by decide +kernel)))
  obtain ⟨p, m, m', hlower, hm, hrun, hall⟩ := h (by simpa using hclean) (by decide +kernel)
  obtain ⟨v, hv, hk⟩ := Option.map_eq_some_iff.1 hvar
  obtain ⟨hitem, hv⟩ := definition?_item hv
  obtain ⟨g, i, hg, hi, hholds⟩ := hall v hv hk
  rw [hitem] at hg hi
  obtain rfl := (hi _).1 hdenotes
  exact ⟨r, p, m, m', g, hr, hlower, hm, hrun, ((hg g).2 rfl).1, ((hg g).2 rfl).2, hdenotes, hholds⟩

end Project

end StateBuffer
