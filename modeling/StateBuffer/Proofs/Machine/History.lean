import StateBuffer.Proofs.Machine.Steps
import StateBuffer.Proofs.Machine.Stopping

/-!
Machines that are used again. A run begins by clearing memory and forgetting what was assigned, so
nothing that happened before shows in it: neither runs that ended well, nor runs that failed or were
called off half-way. Only the statements executed are counted on.
-/

namespace StateBuffer

namespace Machine

/-! ### Calls -/

inductive Call where
  | run
  | runUntil (limit : Nat)
  | read (key : Bytes)
  | snapshot
  deriving DecidableEq, Repr

inductive Answer where
  | ended (ending : Ending)
  | value (result : Except MachineError Int32)
  | values (result : Except MachineError (List (Bytes × Int32)))

/-- How a run without limit ends. -/
def Ending.ofError? : Option MachineError → Ending
  | none => .finished
  | some e => .failed e

/-- The machine after a call, and the answer. -/
def answer (m : Machine) : Call → Machine × Answer
  | .run => (m.run.1, .ended (.ofError? m.run.2))
  | .runUntil limit => ((m.runUntil limit).1, .ended (m.runUntil limit).2)
  | .read key => (m, .value (m.read key))
  | .snapshot => (m, .values m.snapshot)

/-- The machine after calls, one after the other. -/
def after (m : Machine) (calls : List Call) : Machine :=
  calls.foldl (fun m call => (m.answer call).1) m

lemma runUntil_zero (m : Machine) :
    m.runUntil 0 = (m.cleared, if m.runCancelled.2 then .calledOff else .finished) := by
  simp [runUntil, runCancelled, executeFrom, List.length_pos_iff]

lemma runUntil_of_length_le {m : Machine} {limit : Nat} (h : m.body.length ≤ limit) :
    m.runUntil limit = (m.run.1, .ofError? m.run.2) := by
  rw [runUntil, List.take_of_length_le h, run, if_neg (Nat.not_lt.2 h)]
  split <;> simp [*, Ending.ofError?]

lemma runUntil_fst (m : Machine) (limit : Nat) :
    (m.runUntil limit).1 = (m.cleared.executeFrom 0 (m.body.take limit)).1 := by
  rw [runUntil]
  split <;> simp [*]

lemma continues_answer {m : Machine} (hinside : m.Inside) (call : Call) :
    Continues m (m.answer call).1 ∧ (m.answer call).1.memory.length = m.memory.length := by
  have hrun : ∀ body, Continues m (m.cleared.executeFrom 0 body).1 ∧
      (m.cleared.executeFrom 0 body).1.memory.length = m.memory.length := by
    intro body
    have hcleared := (continues_cleared m).inside (length_cleared m) hinside
    exact ⟨(continues_cleared m).trans (continues_executeFrom ..),
      (length_executeFrom hcleared 0 body).trans (length_cleared m)⟩
  cases call with
  | run => exact hrun m.body
  | runUntil limit =>
    rw [answer, runUntil_fst]
    exact hrun _
  | read key => exact ⟨.refl m, rfl⟩
  | snapshot => exact ⟨.refl m, rfl⟩

/-- **No history** changes the program or the size of memory. -/
lemma continues_after {m : Machine} (hinside : m.Inside) (calls : List Call) :
    Continues m (m.after calls) ∧ (m.after calls).memory.length = m.memory.length := by
  induction calls generalizing m with
  | nil => exact ⟨.refl m, rfl⟩
  | cons call calls ih =>
    obtain ⟨hcontinues, hlength⟩ := continues_answer hinside call
    obtain ⟨hcontinues', hlength'⟩ := ih (hcontinues.inside hlength hinside)
    exact ⟨hcontinues.trans hcontinues', hlength'.trans hlength⟩

/-! ### The count of statements shows nowhere else -/

def counting (m : Machine) (steps : Nat) : Machine := { m with steps }

mutual

lemma eval_counting (m : Machine) (steps : Nat) (e : Wgsl.ExprTree) :
    (m.counting steps).eval e = m.eval e := by
  cases e with
  | construct type arguments => rw [eval, eval, evalSingle_counting m steps arguments]
  | call function arguments => rw [eval, eval, evalSingle_counting m steps arguments]
  | member base name => rw [eval, eval]; rfl
  | literal kind text => rw [eval, eval] <;> exact nofun
  | ident name => rw [eval, eval] <;> exact nofun
  | index base place => rw [eval, eval] <;> exact nofun
  | unary operator operand => rw [eval, eval] <;> exact nofun
  | binary operator left right => rw [eval, eval] <;> exact nofun

lemma evalSingle_counting (m : Machine) (steps : Nat) (arguments : List Wgsl.ExprTree) :
    (m.counting steps).evalSingle arguments = m.evalSingle arguments := by
  match arguments with
  | [] => rfl
  | [e] => rw [evalSingle, evalSingle, eval_counting m steps e]
  | _ :: _ :: _ => rfl

end

lemma execute_counting (m : Machine) (steps : Nat) (s : Wgsl.Stmt) :
    (m.counting steps).execute s = (m.execute s).map (counting · (steps + 1)) := by
  cases s with
  | assign left operator right =>
    rw [execute, execute]
    split_ifs with hoperator
    · rfl
    · show (m.place left >>= fun offset => (m.counting steps).eval right >>= _) = _
      rw [eval_counting]
      cases m.place left with
      | error trap => rfl
      | ok offset =>
        cases m.eval right with
        | error trap => rfl
        | ok value => rfl
  | _ => rfl

lemma executeFrom_counting (m : Machine) (steps k : Nat) (body : List Wgsl.Stmt) :
    ∃ steps', (m.counting steps).executeFrom k body =
      ((m.executeFrom k body).1.counting steps', (m.executeFrom k body).2) := by
  induction body generalizing m steps k with
  | nil => exact ⟨steps, rfl⟩
  | cons s body ih =>
    rw [executeFrom, executeFrom, execute_counting]
    cases m.execute s with
    | error trap => exact ⟨steps, rfl⟩
    | ok m' => exact ih m' (steps + 1) (k + 1)

/-! ### Another run -/

/-- **Nothing is left** of a machine's past when it is cleared, but the count. -/
lemma cleared_of_continues {m m' : Machine} (h : Continues m m')
    (hlength : m'.memory.length = m.memory.length) :
    m'.cleared = m.cleared.counting m'.steps := by
  simp only [cleared, counting, h.program, h.offsets, h.body, hlength]

lemma getElem?_cleared {m : Machine} {i : Nat} (h : i < m.memory.length) :
    m.cleared.memory[i]? = some 0 := by
  rw [cleared, List.getElem?_replicate_of_lt h]

/-- **A machine that runs again starts afresh.** Take a machine of a program, whatever its shader is
read as, and any calls made on it before: runs that ended well, failed or were called off, and
readings. One more run ends as the first run of a new machine does, with the same error or with
none, and leaves the same memory. The statements executed are those before the error, or all. The
count of statements grows by their number, and every byte that none of them assigns is zero. -/
theorem run_after (reader : Bytes → Option Wgsl.ModuleTree) {p : Program} {m : Machine}
    (h : ofProgramBy reader p = .ok m) (calls : List Call) :
    (m.after calls).run.2 = m.run.2 ∧ (m.after calls).run.1.memory = m.run.1.memory ∧
      ∃ done rest, m.body = done ++ rest ∧
        Executes (m.after calls).cleared done (m.after calls).run.1 ∧
        Halts (m.after calls).run.1 done.length rest (m.after calls).run.2 ∧
        (m.after calls).run.1.steps = (m.after calls).steps + done.length ∧
        ∀ i < p.buffer.size.toNat, (∀ s ∈ done, ¬ m.Assigns s i) →
          (m.after calls).run.1.memory[i]? = some 0 := by
  have hnew := ofProgramBy_isNew h
  obtain ⟨hcontinues, hlength⟩ := continues_after hnew.inside calls
  have hsize : (m.after calls).memory.length = p.buffer.size.toNat := by
    rw [hlength, hnew.memory, zeroed, List.length_replicate]
  have hfresh := cleared_of_continues hcontinues hlength
  obtain ⟨steps, hsame⟩ :=
    executeFrom_counting m.cleared (m.after calls).steps 0 (m.after calls).body
  rw [← hfresh, hcontinues.body] at hsame
  obtain ⟨done, rest, hbody, hdone, hrest⟩ :=
    executeFrom_spec (m.after calls).cleared 0 (m.after calls).body
  rw [Nat.zero_add] at hrest
  refine ⟨?_, ?_, done, rest, hcontinues.body ▸ hbody, hdone, hrest, hdone.steps, fun i hi hs => ?_⟩
  · rw [run, hcontinues.body, hsame]
    rfl
  · rw [run, hcontinues.body, hsame]
    rfl
  · have hinside := (continues_cleared (m.after calls)).inside (length_cleared _)
      (hcontinues.inside hlength hnew.inside)
    have hassigns : ∀ s ∈ done, ¬ (m.after calls).cleared.Assigns s i := fun s hmem => by
      rw [(hcontinues.trans (continues_cleared _)).assigns]
      exact hs s hmem
    rw [← hsize] at hi
    rw [run, (hdone.memory hinside).2 i hassigns, getElem?_cleared hi]

/-- The second of two variables is set to itself. -/
def selfish : Plan where
  globals := [⟨1, 5, 1, "m:v", 0⟩, ⟨2, 9, 1, "m:w", 4⟩]
  inits := [⟨5, .const (-1)⟩, ⟨9, .global 9⟩, ⟨9, .const 1⟩]
  size := 8

/-- After a run that failed, one that was called off and a reading, the run fails again at the
second statement, and the second variable is zero. -/
theorem run_after_selfish :
    ∃ m, ofProgramBy Wgsl.ModuleTree.ofText? selfish.program = .ok m ∧
      (m.after [.run, .runUntil 1, .read "m:v"]).run.2 = some ⟨.unassigned "v9", some 1⟩ ∧
      (m.after [.run, .runUntil 1, .read "m:v"]).run.1.memory = [255, 255, 255, 255, 0, 0, 0, 0] ∧
      (m.after [.run, .runUntil 1, .read "m:v"]).run.1.steps = 3 := by
  have hm : ofProgramBy Wgsl.ModuleTree.ofText? selfish.program = .ok (ofPlan selfish) :=
    ofProgramBy_ok (Shader.ofText?_emit selfish) (by decide) (by decide)
  obtain ⟨herror, hmemory, -⟩ := run_after _ hm [.run, .runUntil 1, .read "m:v"]
  refine ⟨_, hm, herror.trans ?_, hmemory.trans ?_, ?_⟩
  · decide +kernel
  · decide +kernel
  · decide +kernel

end Machine

end StateBuffer
