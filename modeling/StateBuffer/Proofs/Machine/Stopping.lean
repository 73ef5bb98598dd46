import Mathlib.Data.List.Induction
import StateBuffer.Proofs.Machine.Simulation
import StateBuffer.Proofs.Shader.Emission

/-!
Plans that need not make sense. The settings of a plan may name variables that there are not, or
come in an order in which a variable is read before it is set. The machine makes all settings up to
the first that cannot be made, and its memory is then what those settings make of zeros.
-/

namespace StateBuffer

/-! ### Settings without a machine -/

/-- What a setting makes of the values of all variables. -/
def Init.apply (values : NodeId → Int32) (i : Init) : NodeId → Int32 :=
  Function.update values i.target <| match i.value with
    | .const value => value
    | .global node => values node

/-- What settings, one after the other, make of zeros. -/
def effect (inits : List Init) : NodeId → Int32 := inits.foldl Init.apply fun _ => 0

/-- The setting cannot be made after these, when the variables are those of these nodes: the code of
the error. -/
inductive Stops (nodes : List NodeId) (before : List Init) (i : Init) : Nat → Prop where
  /-- It sets something that is not a variable. -/
  | target (ht : i.target ∉ nodes) : Stops nodes before i 1002
  /-- It reads something that is not a variable. -/
  | source {n : NodeId} (hv : i.value = .global n) (hn : n ∉ nodes) : Stops nodes before i 1002
  /-- It reads a variable that was not set. -/
  | unassigned {n : NodeId} (ht : i.target ∈ nodes) (hv : i.value = .global n) (hn : n ∈ nodes)
      (hb : n ∉ before.map Init.target) : Stops nodes before i 1006

/-- None of the settings stops the others. -/
def Clear (nodes : List NodeId) (inits : List Init) : Prop :=
  ∀ before i after, inits = before ++ i :: after → ∀ code, ¬ Stops nodes before i code

lemma effect_append (inits : List Init) (i : Init) :
    effect (inits ++ [i]) = i.apply (effect inits) := by
  rw [effect, List.foldl_append]
  rfl

lemma effect_of_notMem {inits : List Init} {n : NodeId} (h : n ∉ inits.map Init.target) :
    effect inits n = 0 := by
  induction inits using List.reverseRecOn with
  | nil => rfl
  | append_singleton inits i ih =>
    rw [List.map_append, List.mem_append, not_or] at h
    rw [effect_append, Init.apply, Function.update_of_ne (by simpa using h.2), ih h.1]

lemma clear_nil (nodes : List NodeId) : Clear nodes [] := by
  intro before i after hsplit
  simp at hsplit

lemma clear_append_iff {nodes : List NodeId} {inits : List Init} {i : Init} :
    Clear nodes (inits ++ [i]) ↔ Clear nodes inits ∧ ∀ code, ¬ Stops nodes inits i code := by
  constructor
  · intro h
    refine ⟨fun before j after hsplit => ?_, h inits i [] rfl⟩
    exact h before j (after ++ [i]) (by rw [hsplit]; simp)
  · rintro ⟨h, hlast⟩ before j after hsplit
    rcases List.eq_nil_or_concat after with rfl | ⟨after, k, rfl⟩
    · obtain ⟨rfl, hj⟩ := List.append_inj' hsplit rfl
      obtain rfl := List.singleton_inj.1 hj
      exact hlast
    · rw [List.concat_eq_append, ← List.cons_append, ← List.append_assoc] at hsplit
      exact h before j after (List.append_inj' hsplit rfl).1

/-- The values of the variables that were set. -/
def cellsAfter (inits : List Init) : Cells := fun n =>
  if n ∈ inits.map Init.target then some (effect inits n) else none

lemma cellsAfter_append {nodes : List NodeId} {inits : List Init} {i : Init}
    (h : ∀ code, ¬ Stops nodes inits i code) :
    i.target ∈ nodes ∧ ∃ v, i.value.known? (cellsAfter inits) = some v ∧
      cellsAfter (inits ++ [i]) = Function.update (cellsAfter inits) i.target (some v) := by
  have ht : i.target ∈ nodes := by
    by_contra ht
    exact h _ (.target ht)
  have hvalue : i.value.known? (cellsAfter inits) = some (i.apply (effect inits) i.target) := by
    rw [Init.apply, Function.update_self]
    cases hv : i.value with
    | const value => rfl
    | global n =>
      have hn : n ∈ nodes := by
        by_contra hn
        exact h _ (.source hv hn)
      have hset : n ∈ inits.map Init.target := by
        by_contra hset
        exact h _ (.unassigned ht hv hn hset)
      exact if_pos hset
  refine ⟨ht, _, hvalue, ?_⟩
  funext n
  rw [cellsAfter, effect_append]
  by_cases hn : n = i.target
  · subst hn
    rw [Function.update_self, if_pos (by simp)]
  · rw [Function.update_of_ne hn, Init.apply, Function.update_of_ne hn]
    simp [cellsAfter, hn]

namespace Machine

/-! ### One setting -/

lemma execute_initTree (m : Machine) (i : Init) : m.execute (Shader.initTree i) = (do
    let offset ← m.place (Shader.placeTree i.target)
    let value ← m.eval (Shader.valueTree i.value)
    return { m with
      memory := Memory.store m.memory offset value
      assigned := offset :: m.assigned
      steps := m.steps + 1 }) := by
  rw [Shader.initTree, execute, if_neg (by decide)]

lemma eval_placeTree (m : Machine) (n : NodeId) : m.eval (Shader.placeTree n) = (do
    let offset ← m.place (Shader.placeTree n)
    if offset ∈ m.assigned then .ok (Memory.load m.memory offset)
    else .error (.unassigned (Shader.memberName n))) := by
  rw [Shader.placeTree, Machine.eval]

/-- The machine is where the settings lead: it mirrors them, and there is nothing else in it. -/
structure Tracks (nodes : List NodeId) (inits : List Init) (m : Machine) : Prop extends
    Mirrors nodes (cellsAfter inits) m where
  foreign : ∀ {n}, n ∉ nodes → m.offset? (Shader.memberName n) = none
  fresh : ∀ {k n}, nodes[k]? = some n → n ∉ inits.map Init.target → 4 * k ∉ m.assigned ∧
    Memory.cell m.memory (4 * k) = Memory.encode32 0

section Step

variable {nodes : List NodeId} {inits : List Init} {m : Machine} (h : Tracks nodes inits m)

include h

lemma Tracks.place_foreign {n : NodeId} (hn : n ∉ nodes) :
    m.place (Shader.placeTree n) = .error (.unknownMember (Shader.memberName n)) := by
  simp only [Shader.placeTree, Machine.place]
  rw [if_neg (by decide), h.foreign hn]

/-- **A setting that cannot be made** is an error of its kind. -/
lemma Tracks.stops {i : Init} {code : Nat} (hs : Stops nodes inits i code) :
    ∃ trap, trap.code = code ∧ m.execute (Shader.initTree i) = .error trap := by
  rw [execute_initTree]
  cases hs with
  | target ht =>
    rw [h.place_foreign ht]
    exact ⟨_, rfl, rfl⟩
  | source hv hn =>
    by_cases ht : i.target ∈ nodes
    · obtain ⟨k, hk⟩ := List.getElem?_of_mem ht
      rw [h.place hk, hv, Shader.valueTree, eval_placeTree, h.place_foreign hn]
      exact ⟨_, rfl, rfl⟩
    · rw [h.place_foreign ht]
      exact ⟨_, rfl, rfl⟩
  | unassigned ht hv hn hb =>
    obtain ⟨k, hk⟩ := List.getElem?_of_mem ht
    obtain ⟨j, hj⟩ := List.getElem?_of_mem hn
    rw [h.place hk, hv, Shader.valueTree, eval_placeTree, h.place hj]
    simp only [bind, Except.bind, if_neg (h.fresh hj hb).1]
    exact ⟨_, rfl, rfl⟩

/-- **A setting that can be made** is made. -/
lemma Tracks.step {i : Init} (hs : ∀ code, ¬ Stops nodes inits i code) :
    ∃ m', m.execute (Shader.initTree i) = .ok m' ∧ Tracks nodes (inits ++ [i]) m' := by
  obtain ⟨ht, v, hv, hcells⟩ := cellsAfter_append hs
  obtain ⟨m', hm', hmirrors⟩ := h.toMirrors.step ht hv
  obtain ⟨k, hk⟩ := List.getElem?_of_mem ht
  have hlt : k < nodes.length := (List.getElem?_eq_some_iff.1 hk).1
  have hroom : 4 * k + 4 ≤ m.memory.length := by
    rw [h.length]
    omega
  have hresult := hm'
  rw [execute_initTree, h.place hk, h.eval hv] at hresult
  obtain rfl := Except.ok.inj hresult
  refine ⟨_, hm', hcells ▸ hmirrors, h.foreign, fun {j n} hj hn => ?_⟩
  rw [List.map_append, List.mem_append, not_or] at hn
  have hjk : j ≠ k := by
    rintro rfl
    exact hn.2 (by simp [Option.some.inj (hj.symm.trans hk)])
  obtain ⟨hunassigned, hcell⟩ := h.fresh hj hn.1
  refine ⟨?_, ?_⟩
  · rw [List.mem_cons, not_or]
    exact ⟨by omega, hunassigned⟩
  · rw [← hcell]
    exact Memory.cell_store_of_disjoint hroom v (by omega)

lemma Tracks.cell (hnodup : nodes.Nodup) {k : Nat} {n : NodeId} (hk : nodes[k]? = some n) :
    Memory.cell m.memory (4 * k) = Memory.encode32 (effect inits n) := by
  by_cases hn : n ∈ inits.map Init.target
  · obtain ⟨j, hj, -, hcell⟩ := h.known (show cellsAfter inits n = _ from if_pos hn)
    have hjk : j = k :=
      (List.getElem?_inj (List.getElem?_eq_some_iff.1 hj).1 hnodup).1 (hj.trans hk.symm)
    rw [← hjk, hcell]
  · rw [effect_of_notMem hn]
    exact (h.fresh hk hn).2

end Step

/-- **Settings that can all be made** are made, whatever statements follow. -/
lemma Tracks.run {nodes : List NodeId} {m : Machine} (h : Tracks nodes [] m) {inits : List Init}
    (hclear : Clear nodes inits) :
    ∃ m', (∀ rest, m.executeFrom 0 (inits.map Shader.initTree ++ rest) =
      m'.executeFrom inits.length rest) ∧ Tracks nodes inits m' := by
  induction inits using List.reverseRecOn with
  | nil => exact ⟨m, fun rest => rfl, h⟩
  | append_singleton inits i ih =>
    obtain ⟨hbefore, hlast⟩ := clear_append_iff.1 hclear
    obtain ⟨m1, hm1, h1⟩ := ih hbefore
    obtain ⟨m2, hm2, h2⟩ := h1.step hlast
    refine ⟨m2, fun rest => ?_, h2⟩
    rw [List.map_append, List.append_assoc, hm1, List.map_singleton, List.singleton_append,
      executeFrom, hm2, List.length_append]
    rfl

/-! ### From the beginning -/

lemma offset?_foreign {nodes : List NodeId} {m : Machine} (hm : m.offsets = offsetsOf nodes)
    {n : NodeId} (hn : n ∉ nodes) : m.offset? (Shader.memberName n) = none := by
  rw [offset?, hm, Option.map_eq_none_iff, List.find?_eq_none]
  intro o ho hname
  obtain ⟨x, hx, rfl⟩ := List.mem_map.1 (List.mem_reverse.1 ho)
  obtain rfl := memberName_inj (of_decide_eq_true hname)
  exact hn (List.fst_mem_of_mem_zipIdx hx)

lemma tracks_cleared {p : Plan} (hnodup : (p.globals.map Global.node).Nodup)
    (hsize : p.size.toNat = 4 * p.globals.length) :
    Tracks (p.globals.map Global.node) [] (ofPlan p).cleared := by
  have hmirrors := mirrors_cleared hnodup hsize
  refine ⟨hmirrors, fun hn => offset?_foreign rfl hn, fun {k n} hk _ => ⟨by simp [cleared], ?_⟩⟩
  have hlt : k < (p.globals.map Global.node).length := (List.getElem?_eq_some_iff.1 hk).1
  have hzeros : (ofPlan p).cleared.memory =
      List.replicate (4 * (p.globals.map Global.node).length) 0 := by
    rw [← hmirrors.length]
    simp [cleared]
  rw [hzeros, Memory.cell, List.drop_replicate, List.take_replicate, Nat.min_eq_left (by omega)]
  rfl

/-- The memory is as long as the buffer of the plan, and every variable of the plan holds, at its
offset, what the settings make of zero. -/
structure Shows (p : Plan) (inits : List Init) (memory : Bytes) : Prop where
  length : memory.length = p.size.toNat
  holds : ∀ g ∈ p.globals, Memory.Holds memory g.offset.toNat (effect inits g.node).toInt

/-- **The shader of a plan does what the plan says.** Take any plan with at least one variable, of
different nodes and placed one after the other, and any settings, and a reader that gives the shader
of the plan the tree that its text denotes. The machine takes the program of the plan. If all
settings can be made it runs them without an error; otherwise it stops at the first that cannot be
made, with the number of that setting and the code of what is wrong with it. Either way memory is
what the settings that were made make of zeros. -/
theorem run_of_plan (reader : Bytes → Option Wgsl.ModuleTree) (p : Plan)
    (hread : reader (Shader.emit p) = some (Shader.tree p)) (hvars : p.globals ≠ [])
    (hnodup : (p.globals.map Global.node).Nodup)
    (hplaced : ∀ k g, p.globals[k]? = some g → g.offset.toNat = 4 * k)
    (hsize : p.size.toNat = 4 * p.globals.length) :
    ∃ m, ofProgramBy reader p.program = .ok m ∧
      (Clear (p.globals.map Global.node) p.inits →
        ∃ m', m.run = (m', none) ∧ Shows p p.inits m'.memory) ∧
      ∀ before i after code, p.inits = before ++ i :: after →
        Clear (p.globals.map Global.node) before →
        Stops (p.globals.map Global.node) before i code →
        ∃ m' trap, m.run = (m', some ⟨trap, some before.length⟩) ∧ trap.code = code ∧
          Shows p before m'.memory := by
  have hstart := tracks_cleared hnodup hsize
  have hshows : ∀ {inits m'}, Tracks (p.globals.map Global.node) inits m' →
      Shows p inits m'.memory := by
    intro inits m' h
    refine ⟨by rw [h.length, hsize, List.length_map], fun g hg => ?_⟩
    obtain ⟨k, hk⟩ := List.getElem?_of_mem hg
    have hnode : (p.globals.map Global.node)[k]? = some g.node := by simp [hk]
    have hcell := h.cell hnodup hnode
    rw [← hplaced k g hk, ← Int32.ofInt_toInt (effect inits g.node)] at hcell
    exact Memory.holds_of_cell ⟨Int32.le_toInt _, Int32.toInt_lt _⟩ hcell
  refine ⟨ofPlan p, ?_, fun hclear => ?_, fun before i after code hsplit hclear hs => ?_⟩
  · refine ofProgramBy_ok hread (fun hempty => ?_) (Nat.le_of_eq hsize.symm)
    have hlen : 4 * p.globals.length = 0 := by
      rw [← hsize, hempty]
      rfl
    exact hvars (List.eq_nil_of_length_eq_zero (by omega))
  · obtain ⟨m', hrun, htracks⟩ := hstart.run hclear
    refine ⟨m', ?_, hshows htracks⟩
    have hend := hrun []
    rw [List.append_nil] at hend
    exact hend
  · obtain ⟨m', hrun, htracks⟩ := hstart.run hclear
    obtain ⟨trap, hcode, htrap⟩ := htracks.stops hs
    refine ⟨m', trap, ?_, hcode, hshows htracks⟩
    have hend := hrun ((i :: after).map Shader.initTree)
    rw [← List.map_append, ← hsplit, List.map_cons, executeFrom, htrap] at hend
    exact hend

/-- Two variables; the third setting reads one that there is not. -/
def astray : Plan where
  globals := [⟨1, 5, 1, "m:v", 0⟩, ⟨2, 9, 1, "m:w", 4⟩]
  inits := [⟨5, .const (-2147483648)⟩, ⟨9, .global 5⟩, ⟨5, .global 7⟩, ⟨9, .const 1⟩]
  size := 8

/-- The least integer is set, passed on and kept when the run stops. -/
theorem run_of_plan_astray :
    ∃ m m' trap, ofProgramBy Wgsl.ModuleTree.ofText? astray.program = .ok m ∧
      m.run = (m', some ⟨trap, some 2⟩) ∧ trap.code = 1002 ∧
      Memory.Holds m'.memory 4 (-2147483648) := by
  have hplaced : ∀ k g, astray.globals[k]? = some g → g.offset.toNat = 4 * k := by
    intro k g hk
    match k with
    | 0 => rw [← Option.some.inj hk]; rfl
    | 1 => rw [← Option.some.inj hk]; rfl
    | k + 2 => simp [astray] at hk
  obtain ⟨m, hm, -, hstops⟩ :=
    run_of_plan Wgsl.ModuleTree.ofText? astray (Shader.ofText?_emit astray) (by decide) (by decide)
      hplaced (by decide)
  have hfirst : ∀ code, ¬ Stops [5, 9] [] ⟨5, .const (-2147483648)⟩ code := by
    rintro _ (ht | hv | ⟨-, hv⟩)
    · simp at ht
    · simp at hv
    · simp at hv
  have hsecond : ∀ code, ¬ Stops [5, 9] [⟨5, .const (-2147483648)⟩] ⟨9, .global 5⟩ code := by
    rintro _ (ht | ⟨hv, hn⟩ | ⟨-, hv, -, hb⟩)
    · simp at ht
    · simp [← InitValue.global.inj hv] at hn
    · simp [← InitValue.global.inj hv] at hb
  have hclear : Clear [5, 9] ([] ++ [⟨5, .const (-2147483648)⟩] ++ [⟨9, .global 5⟩]) :=
    clear_append_iff.2 ⟨clear_append_iff.2 ⟨clear_nil _, hfirst⟩, hsecond⟩
  obtain ⟨m', trap, hrun, hcode, hshows⟩ :=
    hstops _ ⟨5, .global 7⟩ [⟨9, .const 1⟩] 1002 rfl hclear (.source rfl (by decide))
  exact ⟨m, m', trap, hm, hrun, hcode, hshows.holds ⟨2, 9, 1, "m:w", 4⟩ (by decide)⟩

end Machine

end StateBuffer
