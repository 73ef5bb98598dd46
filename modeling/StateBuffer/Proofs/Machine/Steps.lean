import Mathlib.Tactic.SplitIfs
import StateBuffer.Machine.Run
import StateBuffer.Proofs.Machine.Memory

/-!
What a machine does step by step. A statement that is executed assigns one member, and members lie
in the memory, so memory keeps its size and only the bytes of that member change. A run executes
statements until there are none left or one of them is an error.
-/

namespace StateBuffer

lemma bind_eq_ok {ε α β : Type} {x : Except ε α} {f : α → Except ε β} {b : β} :
    x >>= f = .ok b ↔ ∃ a, x = .ok a ∧ f a = .ok b := by
  cases x with
  | error e => simp [bind, Except.bind]
  | ok a => simp [bind, Except.bind]

namespace Machine

/-! ### New machines -/

/-- Every member lies in the memory. -/
def Inside (m : Machine) : Prop := ∀ o ∈ m.offsets, o.2 + cellSize ≤ m.memory.length

/-- A machine of this program before its first run. -/
structure IsNew (p : Program) (m : Machine) : Prop where
  program : m.program = p
  memory : m.memory = zeroed p
  assigned : m.assigned = []
  steps : m.steps = 0
  inside : m.Inside

lemma placeMembers_inside {size i : Nat} {members : List Wgsl.Member}
    {offsets : List (Bytes × Nat)} (h : placeMembers size i members = .ok offsets) :
    ∀ o ∈ offsets, o.2 + cellSize ≤ size := by
  induction members generalizing i offsets with
  | nil => simp [← Except.ok.inj h]
  | cons member members ih =>
    rw [placeMembers] at h
    split_ifs at h with htype hsize
    obtain ⟨more, hmore, h⟩ := bind_eq_ok.1 h
    rw [← Except.ok.inj h, List.forall_mem_cons]
    exact ⟨Nat.not_lt.1 hsize, ih hmore⟩

lemma load_isNew {p : Program} {tree : Wgsl.ModuleTree} {m : Machine} (h : load p tree = .ok m) :
    IsNew p m := by
  rw [load] at h
  split at h
  · obtain ⟨buffer, -, h⟩ := bind_eq_ok.1 h
    obtain ⟨offsets, hoffsets, h⟩ := bind_eq_ok.1 h
    split at h
    · rw [← Except.ok.inj h]
      refine ⟨rfl, rfl, rfl, rfl, ?_⟩
      simpa [Inside, zeroed] using placeMembers_inside hoffsets
    · simp at h
  · obtain ⟨buffer, hnone, -⟩ := bind_eq_ok.1 h
    simp at hnone

/-- **A machine that is made** is a new one, whatever the shader is read as. -/
lemma ofProgramBy_isNew {reader : Bytes → Option Wgsl.ModuleTree} {p : Program} {m : Machine}
    (h : ofProgramBy reader p = .ok m) : IsNew p m := by
  unfold ofProgramBy at h
  split_ifs at h with hempty
  · rw [← Except.ok.inj h]
    refine ⟨rfl, ?_, rfl, rfl, by simp [Inside]⟩
    rw [zeroed, hempty]
    rfl
  · split at h
    · simp at h
    · split at h
      · rename_i hload
        exact Except.ok.inj h ▸ load_isNew hload
      · simp at h

/-! ### One statement -/

lemma place_inside {m : Machine} (h : m.Inside) {e : Wgsl.ExprTree} {offset : Nat}
    (hplace : m.place e = .ok offset) : offset + cellSize ≤ m.memory.length := by
  unfold place at hplace
  split at hplace
  · split_ifs at hplace
    split at hplace
    · rename_i o ho
      obtain ⟨entry, hentry, rfl⟩ := Option.map_eq_some_iff.1 ho
      rw [← Except.ok.inj hplace]
      exact h entry (List.mem_reverse.1 (List.mem_of_find?_eq_some hentry))
    · simp at hplace
  · simp at hplace
  · simp at hplace

def assign (m : Machine) (offset : Nat) (value : Int32) : Machine :=
  { m with
    memory := Memory.store m.memory offset value
    assigned := offset :: m.assigned
    steps := m.steps + 1 }

/-- **A statement that is executed** assigns the value of an expression to a member. -/
lemma execute_eq_ok_iff {m m' : Machine} {s : Wgsl.Stmt} : m.execute s = .ok m' ↔
    ∃ left right offset value, s = .assign left "=" right ∧ m.place left = .ok offset ∧
      m.eval right = .ok value ∧ m' = m.assign offset value := by
  constructor
  · intro h
    cases s with
    | assign left operator right =>
      rw [execute] at h
      split_ifs at h with hoperator
      obtain ⟨offset, hplace, h⟩ := bind_eq_ok.1 h
      obtain ⟨value, hvalue, h⟩ := bind_eq_ok.1 h
      rw [not_not.1 hoperator]
      exact ⟨left, right, offset, value, rfl, hplace, hvalue, (Except.ok.inj h).symm⟩
    | _ => simp [execute] at h
  · rintro ⟨left, right, offset, value, rfl, hplace, hvalue, rfl⟩
    rw [execute, if_neg (not_not.2 rfl), hplace]
    show (m.eval right >>= _ : Except Trap _) = _
    rw [hvalue]
    rfl

/-- One machine is the other after a while: of the same program, with the same members and
statements. -/
structure Continues (m m' : Machine) : Prop where
  program : m'.program = m.program
  offsets : m'.offsets = m.offsets
  body : m'.body = m.body

lemma Continues.refl (m : Machine) : Continues m m := ⟨rfl, rfl, rfl⟩

lemma Continues.trans {m m' m'' : Machine} (h : Continues m m') (h' : Continues m' m'') :
    Continues m m'' :=
  ⟨h'.program.trans h.program, h'.offsets.trans h.offsets, h'.body.trans h.body⟩

lemma Continues.place {m m' : Machine} (h : Continues m m') (e : Wgsl.ExprTree) :
    m'.place e = m.place e := by
  unfold Machine.place offset?
  rw [h.offsets]

lemma Continues.inside {m m' : Machine} (h : Continues m m') (hlength :
    m'.memory.length = m.memory.length) (hinside : m.Inside) : m'.Inside := by
  unfold Inside
  rw [h.offsets, hlength]
  exact hinside

lemma continues_cleared (m : Machine) : Continues m m.cleared := ⟨rfl, rfl, rfl⟩

lemma length_cleared (m : Machine) : m.cleared.memory.length = m.memory.length :=
  List.length_replicate

lemma continues_execute {m m' : Machine} {s : Wgsl.Stmt} (h : m.execute s = .ok m') :
    Continues m m' := by
  obtain ⟨left, right, offset, value, -, -, -, rfl⟩ := execute_eq_ok_iff.1 h
  exact ⟨rfl, rfl, rfl⟩

/-- A statement assigns the byte with this index. -/
def Assigns (m : Machine) (s : Wgsl.Stmt) (i : Nat) : Prop :=
  ∃ left right offset, s = .assign left "=" right ∧ m.place left = .ok offset ∧
    offset ≤ i ∧ i < offset + cellSize

lemma Continues.assigns {m m' : Machine} (h : Continues m m') {s : Wgsl.Stmt} {i : Nat} :
    m'.Assigns s i ↔ m.Assigns s i := by
  simp only [Assigns, h.place]

/-- **One statement** leaves memory as large as it is, and all bytes that it does not assign. -/
lemma memory_of_execute {m m' : Machine} {s : Wgsl.Stmt} (hinside : m.Inside)
    (h : m.execute s = .ok m') :
    m'.memory.length = m.memory.length ∧
      ∀ i, ¬ m.Assigns s i → m'.memory[i]? = m.memory[i]? := by
  obtain ⟨left, right, offset, value, rfl, hplace, -, rfl⟩ := execute_eq_ok_iff.1 h
  have hroom := place_inside hinside hplace
  refine ⟨Memory.length_store hroom value, fun i hi => Memory.getElem?_store hroom value ?_⟩
  by_contra hin
  rw [not_or, Nat.not_lt, Nat.not_le] at hin
  exact hi ⟨left, right, offset, rfl, hplace, hin.1, hin.2⟩

/-! ### Runs -/

/-- The statements are executed one after the other. -/
inductive Executes : Machine → List Wgsl.Stmt → Machine → Prop where
  | nil {m : Machine} : Executes m [] m
  | cons {m m' m'' : Machine} {s : Wgsl.Stmt} {rest : List Wgsl.Stmt} (h : m.execute s = .ok m')
      (hrest : Executes m' rest m'') : Executes m (s :: rest) m''

/-- Of the statements from number `k` on none is executed: there are none, or the first of them is
an error. -/
inductive Halts (m : Machine) (k : Nat) : List Wgsl.Stmt → Option MachineError → Prop where
  | finished : Halts m k [] none
  | failed {s : Wgsl.Stmt} {rest : List Wgsl.Stmt} {trap : Trap} (h : m.execute s = .error trap) :
      Halts m k (s :: rest) (some ⟨trap, some k⟩)

/-- **A run** executes statements up to an error or the end. -/
lemma executeFrom_spec (m : Machine) (k : Nat) (body : List Wgsl.Stmt) :
    ∃ done rest, body = done ++ rest ∧ Executes m done (m.executeFrom k body).1 ∧
      Halts (m.executeFrom k body).1 (k + done.length) rest (m.executeFrom k body).2 := by
  induction body generalizing m k with
  | nil => exact ⟨[], [], rfl, .nil, .finished⟩
  | cons s body ih =>
    rw [executeFrom]
    cases hs : m.execute s with
    | error trap => exact ⟨[], s :: body, rfl, .nil, .failed hs⟩
    | ok m' =>
      obtain ⟨done, rest, rfl, hdone, hrest⟩ := ih m' (k + 1)
      refine ⟨s :: done, rest, rfl, .cons hs hdone, ?_⟩
      rwa [List.length_cons, Nat.add_comm done.length, ← Nat.add_assoc]

section Executes

variable {m m' : Machine} {done : List Wgsl.Stmt} (h : Executes m done m')

include h

lemma Executes.continues : Continues m m' := by
  induction h with
  | nil => exact .refl _
  | cons hs _ ih => exact (continues_execute hs).trans ih

lemma Executes.steps : m'.steps = m.steps + done.length := by
  induction h with
  | nil => rfl
  | cons hs _ ih =>
    obtain ⟨left, right, offset, value, -, -, -, rfl⟩ := execute_eq_ok_iff.1 hs
    rw [ih, List.length_cons, Nat.add_comm _ 1, ← Nat.add_assoc]
    rfl

/-- **Statements** leave memory as large as it is, and all bytes that none of them assigns. -/
lemma Executes.memory (hinside : m.Inside) :
    m'.memory.length = m.memory.length ∧
      ∀ i, (∀ s ∈ done, ¬ m.Assigns s i) → m'.memory[i]? = m.memory[i]? := by
  induction h with
  | nil => exact ⟨rfl, fun _ _ => rfl⟩
  | cons hs _ ih =>
    obtain ⟨hlength, hfirst⟩ := memory_of_execute hinside hs
    have hcontinues := continues_execute hs
    obtain ⟨hlength', hlater⟩ := ih (hcontinues.inside hlength hinside)
    refine ⟨hlength'.trans hlength, fun i hi => ?_⟩
    obtain ⟨hi, hrest⟩ := List.forall_mem_cons.1 hi
    rw [hlater i fun s hmem => by rw [hcontinues.assigns]; exact hrest s hmem, hfirst i hi]

end Executes

lemma continues_executeFrom (m : Machine) (k : Nat) (body : List Wgsl.Stmt) :
    Continues m (m.executeFrom k body).1 := by
  obtain ⟨done, rest, -, hdone, -⟩ := executeFrom_spec m k body
  exact hdone.continues

lemma length_executeFrom {m : Machine} (hinside : m.Inside) (k : Nat) (body : List Wgsl.Stmt) :
    (m.executeFrom k body).1.memory.length = m.memory.length := by
  obtain ⟨done, rest, -, hdone, -⟩ := executeFrom_spec m k body
  exact (hdone.memory hinside).1

end Machine

end StateBuffer
