import Mathlib.Logic.Function.Basic
import StateBuffer.Machine.Run
import StateBuffer.Proofs.Machine.Memory
import StateBuffer.Proofs.Text.Numerals
import StateBuffer.Shader.Emit

/-!
A machine that executes the settings of a plan. The variables of the plan lie in memory one after
the other, and as long as each is set to something known the machine goes on without an error and
its memory mirrors the values of the variables.
-/

namespace StateBuffer

/-- The reader gives the shader of every plan with variables the tree that its text denotes. -/
def Shader.Understood (reader : Bytes → Option Wgsl.ModuleTree) : Prop :=
  ∀ p : Plan, p.globals ≠ [] → reader (Shader.emit p) = some (Shader.tree p)

/-- The values of the variables that were set, by node. -/
abbrev Cells := NodeId → Option Int32

/-- The value of a right-hand side, if it is known. -/
def InitValue.known? (cells : Cells) : InitValue → Option Int32
  | .const value => some value
  | .global node => cells node

/-- Variables with these nodes are set one after the other, each to something known. -/
inductive Settles (nodes : List NodeId) : Cells → List Init → Cells → Prop where
  | nil {cells : Cells} : Settles nodes cells [] cells
  | cons {cells cells' : Cells} {i : Init} {inits : List Init} {v : Int32}
      (ht : i.target ∈ nodes) (hv : i.value.known? cells = some v)
      (h : Settles nodes (Function.update cells i.target (some v)) inits cells') :
      Settles nodes cells (i :: inits) cells'

namespace Machine

/-! ### Numbers -/

lemma trimSuffix_ofNat (n : Nat) : trimSuffix (Bytes.ofNat n) = Bytes.ofNat n := by
  have hne : (Bytes.ofNat n).reverse ≠ [] := by simpa using Bytes.ofNat_ne_nil n
  obtain ⟨b, rest, hb⟩ := List.exists_cons_of_ne_nil hne
  have hmem : b ∈ Bytes.ofNat n := List.mem_reverse.1 (by rw [hb]; simp)
  have hdigit := Bytes.isDigit_of_mem_ofNat hmem
  have hkeep : (b = 0x69 || b = 0x75) = false := by
    rw [← Bool.not_eq_true]
    intro h
    rcases (by simpa using h : b = 0x69 ∨ b = 0x75) with rfl | rfl
    · exact absurd hdigit (by decide)
    · exact absurd hdigit (by decide)
  rw [trimSuffix, hb, List.dropWhile_cons, hkeep]
  show (b :: rest).reverse = _
  rw [← hb, List.reverse_reverse]

lemma constant_numberTree {i : Int} (h : i.natAbs < 9223372036854775808) :
    constant (Shader.numberTree i) = .ok i := by
  have hdigits : constant (.literal .integer (Bytes.ofNat i.natAbs)) = .ok (i.natAbs : Int) := by
    simp only [constant, trimSuffix_ofNat, Integer.ofText_ofNat h]
    rfl
  unfold Shader.numberTree
  by_cases hneg : i < 0
  · simp only [if_pos hneg]
    rw [constant, if_neg (not_not.2 rfl), hdigits]
    show Except.ok _ = Except.ok _
    congr 1
    omega
  · rw [if_neg hneg, hdigits]
    congr 1
    omega

lemma narrow_toInt (v : Int32) : narrow v.toInt = .ok v := by
  have h1 := v.le_toInt
  have h2 := v.toInt_lt
  rw [narrow, if_pos (by omega), Int32.ofInt_toInt]

lemma eval_number (m : Machine) (v : Int32) : m.eval (Shader.numberTree v.toInt) = .ok v := by
  have hconst : constant (Shader.numberTree v.toInt) = .ok v.toInt := by
    have h1 := v.le_toInt
    have h2 := v.toInt_lt
    exact constant_numberTree (by omega)
  have heval : m.eval (Shader.numberTree v.toInt) = (do
      let value ← constant (Shader.numberTree v.toInt)
      narrow value) := by
    unfold Shader.numberTree
    by_cases hneg : v.toInt < 0
    · simp only [if_pos hneg, eval]
    · simp only [if_neg hneg, eval]
  rw [heval, hconst]
  exact narrow_toInt v

/-! ### One setting -/

/-- The memory of the machine mirrors the variables with these nodes. -/
structure Mirrors (nodes : List NodeId) (cells : Cells) (m : Machine) : Prop where
  offset : ∀ {k n}, nodes[k]? = some n → m.offset? (Shader.memberName n) = some (4 * k)
  length : m.memory.length = 4 * nodes.length
  known : ∀ {n v}, cells n = some v → ∃ k, nodes[k]? = some n ∧ 4 * k ∈ m.assigned ∧
    Memory.cell m.memory (4 * k) = Memory.encode32 v

section Step

variable {nodes : List NodeId} {cells : Cells} {m : Machine} (h : Mirrors nodes cells m)

include h

lemma Mirrors.place {k : Nat} {n : NodeId} (hk : nodes[k]? = some n) :
    m.place (Shader.placeTree n) = .ok (4 * k) := by
  simp only [Shader.placeTree, Machine.place]
  rw [if_neg (by decide), h.offset hk]

lemma Mirrors.eval {value : InitValue} {v : Int32} (hv : value.known? cells = some v) :
    m.eval (Shader.valueTree value) = .ok v := by
  cases value with
  | const value =>
    obtain rfl := Option.some.inj hv
    rw [Shader.valueTree, Machine.eval,
      if_pos (show (Wgsl.TypeTree.named "i32" []).name? = some cellType from rfl), evalSingle]
    exact eval_number m value
  | global n =>
    obtain ⟨k, hk, hassigned, hcell⟩ := h.known hv
    rw [Shader.valueTree, Shader.placeTree, Machine.eval]
    rw [show m.place (.member (.ident Shader.bufferName) (Shader.memberName n)) = _ from h.place hk]
    show (if 4 * k ∈ m.assigned then _ else _) = _
    rw [if_pos hassigned, Memory.load, show (m.memory.drop (4 * k)).take 4 = _ from hcell,
      Memory.decode32_encode32]

/-- **One setting** is executed and mirrored. -/
lemma Mirrors.step {i : Init} {v : Int32} (ht : i.target ∈ nodes)
    (hv : i.value.known? cells = some v) :
    ∃ m', m.execute (Shader.initTree i) = .ok m' ∧
      Mirrors nodes (Function.update cells i.target (some v)) m' := by
  obtain ⟨k, hk⟩ := List.getElem?_of_mem ht
  have hlt : k < nodes.length := (List.getElem?_eq_some_iff.1 hk).1
  have hroom : 4 * k + 4 ≤ m.memory.length := by
    rw [h.length]
    omega
  refine ⟨{ m with
    memory := Memory.store m.memory (4 * k) v
    assigned := 4 * k :: m.assigned
    steps := m.steps + 1 }, ?_, ?_⟩
  · rw [Shader.initTree, execute, if_neg (by decide), h.place hk]
    show (m.eval (Shader.valueTree i.value) >>= _ : Except Trap _) = _
    rw [h.eval hv]
    rfl
  · refine ⟨h.offset, (Memory.length_store hroom v).trans h.length, fun {n w} hn => ?_⟩
    by_cases hne : n = i.target
    · subst hne
      rw [Function.update_self] at hn
      obtain rfl := Option.some.inj hn
      exact ⟨k, hk, List.mem_cons_self, Memory.cell_store hroom v⟩
    · rw [Function.update_of_ne hne] at hn
      obtain ⟨j, hj, hassigned, hcell⟩ := h.known hn
      have hjk : j ≠ k := by
        rintro rfl
        exact hne (Option.some.inj (hj.symm.trans hk))
      refine ⟨j, hj, List.mem_cons_of_mem _ hassigned, ?_⟩
      rw [← hcell]
      exact Memory.cell_store_of_disjoint hroom v (by omega)

end Step

/-- **A run** of settings is executed without an error and mirrored. -/
theorem Mirrors.run {nodes : List NodeId} {cells cells' : Cells} {inits : List Init}
    (hs : Settles nodes cells inits cells') {m : Machine} (h : Mirrors nodes cells m) (k : Nat) :
    ∃ m', m.executeFrom k (inits.map Shader.initTree) = (m', none) ∧ Mirrors nodes cells' m' := by
  induction hs generalizing m k with
  | nil => exact ⟨m, rfl, h⟩
  | cons ht hv _ ih =>
    obtain ⟨m1, hm1, h1⟩ := h.step ht hv
    obtain ⟨m2, hm2, h2⟩ := ih h1 (k + 1)
    refine ⟨m2, ?_, h2⟩
    rw [List.map_cons, executeFrom, hm1]
    exact hm2

/-! ### Loading -/

lemma memberName_inj {m n : NodeId} (h : Shader.memberName m = Shader.memberName n) : m = n :=
  Bytes.ofNat_inj (List.append_cancel_left h)

def memberTree (n : NodeId) : Wgsl.Member := ⟨[], Shader.memberName n, .named "i32" []⟩

def offsetsOf (nodes : List NodeId) : List (Bytes × Nat) :=
  nodes.zipIdx.map fun x => (Shader.memberName x.1, x.2 * 4)

lemma placeMembers_ok (size : Nat) (nodes : List NodeId) (k : Nat)
    (h : (k + nodes.length) * 4 ≤ size) : placeMembers size k (nodes.map memberTree) =
      .ok ((nodes.zipIdx k).map fun x => (Shader.memberName x.1, x.2 * 4)) := by
  induction nodes generalizing k with
  | nil => rfl
  | cons n nodes ih =>
    rw [List.length_cons] at h
    have htype : ¬ (memberTree n).type.name? ≠ some cellType := not_not.2 rfl
    rw [List.map_cons, placeMembers, if_neg htype,
      if_neg (Nat.not_lt.2 (by simp only [cellSize]; omega)), ih (k + 1) (by omega)]
    rfl

lemma offset?_offsetsOf {nodes : List NodeId} (hnodup : nodes.Nodup) {m : Machine}
    (hm : m.offsets = offsetsOf nodes) {k : Nat} {n : NodeId} (hk : nodes[k]? = some n) :
    m.offset? (Shader.memberName n) = some (4 * k) := by
  have hmem : ∀ {j n'}, (Shader.memberName n', j) ∈ offsetsOf nodes ↔
      ∃ i, nodes[i]? = some n' ∧ j = i * 4 := by
    intro j n'
    simp only [offsetsOf, List.mem_map, Prod.exists, List.mk_mem_zipIdx_iff_getElem?, Prod.mk.injEq]
    constructor
    · rintro ⟨n1, i, hi, hn1, rfl⟩
      exact ⟨i, memberName_inj hn1 ▸ hi, rfl⟩
    · rintro ⟨i, hi, rfl⟩
      exact ⟨n', i, hi, rfl, rfl⟩
  rw [offset?, hm]
  cases hfind : (offsetsOf nodes).reverse.find? fun o => o.1 = Shader.memberName n with
  | none =>
    have := List.find?_eq_none.1 hfind _ (List.mem_reverse.2 (hmem.2 ⟨k, hk, rfl⟩))
    simp at this
  | some o =>
    obtain ⟨name, j⟩ := o
    have hname : name = Shader.memberName n := by simpa using List.find?_some hfind
    have ho := List.mem_reverse.1 (List.mem_of_find?_eq_some hfind)
    rw [hname] at ho
    obtain ⟨i, hi, rfl⟩ := hmem.1 ho
    have hik : i = k :=
      (List.getElem?_inj (List.getElem?_eq_some_iff.1 hi).1 hnodup).1 (hi.trans hk.symm)
    rw [hik, Nat.mul_comm]
    rfl

def ofPlan (p : Plan) : Machine :=
  ⟨p.program, offsetsOf (p.globals.map Global.node), p.inits.map Shader.initTree,
    zeroed p.program, [], 0⟩

lemma load_ok {p : Plan} (h : 4 * p.globals.length ≤ p.size.toNat) :
    load p.program (Shader.tree p) = .ok (ofPlan p) := by
  have hplace := placeMembers_ok p.size.toNat (p.globals.map Global.node) 0
    (by rw [List.length_map]; omega)
  rw [List.map_map] at hplace
  have hstruct : (Shader.tree p).structs.reverse.find? (fun s => s.name = structName) =
      some ⟨Shader.structName, p.globals.map (memberTree ∘ Global.node)⟩ := by
    rfl
  have hfunction : (Shader.tree p).functions.find? (fun f => f.name = entryPoint) =
      some ⟨[Shader.attributeTree "compute" [], Shader.attributeTree "workgroup_size" [1, 1, 1]],
        Shader.entryPoint, [], none, p.inits.map Shader.initTree⟩ := by
    rfl
  rw [load, hstruct]
  show (placeMembers p.size.toNat 0 _ >>= _ : Except Trap _) = _
  rw [hplace, hfunction]
  rfl

lemma ofProgramBy_ok {reader : Bytes → Option Wgsl.ModuleTree} {p : Plan}
    (hread : reader (Shader.emit p) = some (Shader.tree p)) (hempty : p.size ≠ 0)
    (hsize : 4 * p.globals.length ≤ p.size.toNat) :
    ofProgramBy reader p.program = .ok (ofPlan p) := by
  rw [ofProgramBy, if_neg (show ¬ p.program.buffer.size = 0 from hempty),
    show p.program.shader = Shader.emit p from rfl, hread]
  simp only [load_ok hsize]

lemma mirrors_cleared {p : Plan} (hnodup : (p.globals.map Global.node).Nodup)
    (hsize : p.size.toNat = 4 * p.globals.length) :
    Mirrors (p.globals.map Global.node) (fun _ => none) (ofPlan p).cleared := by
  refine ⟨fun hk => offset?_offsetsOf hnodup rfl hk, ?_, fun hn => by simp at hn⟩
  show (List.replicate (zeroed p.program).length (0 : UInt8)).length = _
  rw [List.length_replicate, zeroed, List.length_replicate, List.length_map]
  exact hsize

/-- **A plan runs**: if the shader of a plan reads as its tree, the machine takes the program, and
settings that are all known are executed without an error and mirrored in memory. -/
theorem ofProgramBy_run {reader : Bytes → Option Wgsl.ModuleTree}
    (hread : Shader.Understood reader) {p : Plan} (hnodup : (p.globals.map Global.node).Nodup)
    (hsize : p.size.toNat = 4 * p.globals.length) {cells : Cells}
    (hs : Settles (p.globals.map Global.node) (fun _ => none) p.inits cells) :
    ∃ m m', ofProgramBy reader p.program = .ok m ∧ m.run = (m', none) ∧
      Mirrors (p.globals.map Global.node) cells m' := by
  by_cases hempty : p.size = 0
  · -- without variables nothing can be set
    have hglobals : p.globals = [] := by
      rw [hempty] at hsize
      exact List.eq_nil_of_length_eq_zero (by simpa using hsize.symm)
    rw [hglobals, List.map_nil] at hs ⊢
    have hcells : cells = fun _ => none := by
      generalize hi : p.inits = inits at hs
      cases hs with
      | nil => rfl
      | cons ht => simp at ht
    refine ⟨_, _, if_pos hempty, rfl, ?_⟩
    rw [hcells]
    exact ⟨fun hk => by simp at hk, rfl, fun hn => by simp at hn⟩
  · obtain ⟨m', hrun, hmirrors⟩ := (mirrors_cleared hnodup hsize).run hs 0
    have hglobals : p.globals ≠ [] := by
      intro hnil
      rw [hnil] at hsize
      exact hempty (UInt32.toNat_inj.1 hsize)
    exact ⟨ofPlan p, m', ofProgramBy_ok (hread p hglobals) hempty (Nat.le_of_eq hsize.symm), hrun,
      hmirrors⟩

end Machine

end StateBuffer
