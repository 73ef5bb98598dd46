import StateBuffer.Proofs.Machine.History
import StateBuffer.Proofs.Program.Decoding
import StateBuffer.Proofs.Program.Snapshot

/-!
Machines stay in their memory. Beside each step of a machine stands a guarded one, which breaks off
at an access outside the memory. The members that a shader names were placed inside when the machine
was made, and the fields of a program that was decoded lie inside because its layout was checked. So
no guard is ever met, whatever is asked of the machine.
-/

namespace StateBuffer

/-! ### Guarded computations -/

/-- Computations that may fail, and break off when memory is left. -/
abbrev Guarded (ε α : Type) := ExceptT ε Option α

/-- The guarded computation does not break off and has this result. -/
def Guarded.Gives {ε α : Type} (x : Guarded ε α) (result : Except ε α) : Prop :=
  x.run = some result

namespace Guarded

variable {ε α β : Type}

lemma gives_lift (result : Except ε α) : Gives (liftM result : Guarded ε α) result := rfl

lemma gives_ok (a : α) : Gives (pure a : Guarded ε α) (.ok a) := rfl

lemma gives_error (e : ε) : Gives (throw e : Guarded ε α) (.error e) := rfl

/-- **Two steps** after each other do not break off if none of them does. -/
lemma Gives.bind {x : Guarded ε α} {result : Except ε α} {f : α → Guarded ε β}
    {g : α → Except ε β} (h : Gives x result) (hf : ∀ a, result = .ok a → Gives (f a) (g a)) :
    Gives (x >>= f) (result >>= g) := by
  unfold Gives at *
  rw [ExceptT.run_bind, h]
  cases result with
  | error e => rfl
  | ok a => exact hf a rfl

lemma gives_mapM {f : α → Guarded ε β} {g : α → Except ε β} (h : ∀ a, Gives (f a) (g a))
    (l : List α) : Gives (l.mapM f) (l.mapM g) := by
  induction l with
  | nil => exact gives_ok _
  | cons a l ih =>
    rw [List.mapM_cons, List.mapM_cons]
    exact (h a).bind fun b _ => ih.bind fun bs _ => gives_ok _

end Guarded

namespace Memory

/-- The integer at an offset, if its bytes are there. -/
def load? (memory : Bytes) (offset : Nat) : Option Int32 :=
  if offset + 4 ≤ memory.length then some (load memory offset) else none

/-- The memory with an integer stored at an offset, if its bytes are there. -/
def store? (memory : Bytes) (offset : Nat) (value : Int32) : Option Bytes :=
  if offset + 4 ≤ memory.length then some (store memory offset value) else none

variable {memory : Bytes} {offset : Nat} (h : offset + 4 ≤ memory.length)

include h

lemma gives_load? {ε : Type} :
    Guarded.Gives (liftM (load? memory offset) : Guarded ε Int32) (.ok (load memory offset)) := by
  rw [load?, if_pos h]
  rfl

lemma gives_store? {ε : Type} (value : Int32) :
    Guarded.Gives (liftM (store? memory offset value) : Guarded ε Bytes)
      (.ok (store memory offset value)) := by
  rw [store?, if_pos h]
  rfl

end Memory

namespace Machine

open Guarded

/-! ### Guarded steps -/

mutual

/-- The value of an expression. -/
def evalGuarded (m : Machine) : Wgsl.ExprTree → Guarded Trap Int32
  | .member base name => do
    let offset ← m.place (.member base name)
    if offset ∈ m.assigned then Memory.load? m.memory offset else throw (.unassigned name)
  | .construct type arguments =>
    if type.name? = some cellType then m.evalSingleGuarded arguments else throw .constructorType
  | .call function arguments =>
    if function = cellType then m.evalSingleGuarded arguments else throw .unsupportedCall
  | e => do
    let value ← constant e
    narrow value

/-- The value of the one argument that a conversion takes. -/
def evalSingleGuarded (m : Machine) : List Wgsl.ExprTree → Guarded Trap Int32
  | [e] => m.evalGuarded e
  | arguments => throw (.argumentCount arguments.length)

end

def executeGuarded (m : Machine) : Wgsl.Stmt → Guarded Trap Machine
  | .assign left operator right =>
    if operator ≠ "=" then throw .compoundAssignment
    else do
      let offset ← m.place left
      let value ← m.evalGuarded right
      let memory ← Memory.store? m.memory offset value
      return { m with
        memory
        assigned := offset :: m.assigned
        steps := m.steps + 1 }
  | s => throw (.unsupportedStatement s.kindName)

/-- Executes statements from number `i` on, up to the first error. -/
def executeFromGuarded (m : Machine) (i : Nat) :
    List Wgsl.Stmt → Option (Machine × Option MachineError)
  | [] => some (m, none)
  | s :: rest => do
    match ← (m.executeGuarded s).run with
    | .ok m => m.executeFromGuarded (i + 1) rest
    | .error trap => return (m, some ⟨trap, some i⟩)

/-- The value of a field. -/
def readGuarded (m : Machine) (key : Bytes) : Guarded MachineError Int32 :=
  match m.program.field? key with
  | none => throw ⟨.unknownField key, none⟩
  | some f =>
    if f.size ≠ 4 then throw ⟨.fieldSize key f.size, none⟩
    else if m.memory.length < f.offset.toNat + cellSize then throw ⟨.fieldOutside key, none⟩
    else Memory.load? m.memory f.offset.toNat

/-- The values of all fields in the order of their offsets. -/
def snapshotGuarded (m : Machine) : Guarded MachineError (List (Bytes × Int32)) :=
  m.program.keys.mapM fun key => do
    let value ← m.readGuarded key
    return (key, value)

/-- The machine after a call, and the answer. -/
def answerGuarded (m : Machine) : Call → Option (Machine × Answer)
  | .run => do
    let (m', error) ← m.cleared.executeFromGuarded 0 m.body
    return (m', .ended (.ofError? error))
  | .runUntil limit => do
    match ← m.cleared.executeFromGuarded 0 (m.body.take limit) with
    | (m', some e) => return (m', .ended (.failed e))
    | (m', none) =>
      return (m', .ended (if limit < m.body.length then .calledOff else .finished))
  | .read key => do
    let result ← (m.readGuarded key).run
    return (m, .value result)
  | .snapshot => do
    let result ← m.snapshotGuarded.run
    return (m, .values result)

/-! ### No guard is met -/

lemma gives_constant {m : Machine} {e : Wgsl.ExprTree} (hmember : ∀ base name, e ≠ .member base name)
    (hconstruct : ∀ type arguments, e ≠ .construct type arguments)
    (hcall : ∀ function arguments, e ≠ .call function arguments) :
    Gives (m.evalGuarded e) (m.eval e) := by
  rw [evalGuarded, eval]
  · exact (gives_lift _).bind fun value _ => gives_lift _
  all_goals assumption

mutual

lemma gives_eval {m : Machine} (h : m.Inside) (e : Wgsl.ExprTree) :
    Gives (m.evalGuarded e) (m.eval e) := by
  cases e with
  | member base name =>
    rw [evalGuarded, eval]
    refine (gives_lift _).bind fun offset hplace => ?_
    split_ifs
    · exact Memory.gives_load? (place_inside h hplace)
    · exact gives_error _
  | construct type arguments =>
    rw [evalGuarded, eval]
    split_ifs
    · exact gives_evalSingle h arguments
    · exact gives_error _
  | call function arguments =>
    rw [evalGuarded, eval]
    split_ifs
    · exact gives_evalSingle h arguments
    · exact gives_error _
  | literal kind text => exact gives_constant nofun nofun nofun
  | ident name => exact gives_constant nofun nofun nofun
  | index base place => exact gives_constant nofun nofun nofun
  | unary operator operand => exact gives_constant nofun nofun nofun
  | binary operator left right => exact gives_constant nofun nofun nofun

lemma gives_evalSingle {m : Machine} (h : m.Inside) (arguments : List Wgsl.ExprTree) :
    Gives (m.evalSingleGuarded arguments) (m.evalSingle arguments) := by
  match arguments with
  | [] => exact gives_error _
  | [e] =>
    rw [evalSingleGuarded, evalSingle]
    exact gives_eval h e
  | _ :: _ :: _ => exact gives_error _

end

lemma gives_execute {m : Machine} (h : m.Inside) (s : Wgsl.Stmt) :
    Gives (m.executeGuarded s) (m.execute s) := by
  cases s with
  | assign left operator right =>
    rw [executeGuarded, execute]
    split_ifs
    · exact gives_error _
    · refine (gives_lift _).bind fun offset hplace => (gives_eval h right).bind fun value _ => ?_
      exact (Memory.gives_store? (place_inside h hplace) value).bind fun memory _ => gives_ok _
  | _ => exact gives_error _

/-- **Statements** are executed without leaving memory: each leaves the next one a memory of the
same size. -/
lemma executeFromGuarded_eq {m : Machine} (h : m.Inside) (k : Nat) (body : List Wgsl.Stmt) :
    m.executeFromGuarded k body = some (m.executeFrom k body) := by
  induction body generalizing m k with
  | nil => rfl
  | cons s body ih =>
    rw [executeFromGuarded, gives_execute h s, executeFrom]
    cases hs : m.execute s with
    | error trap => rfl
    | ok m' =>
      exact ih ((continues_execute hs).inside (memory_of_execute h hs).1 h) (k + 1)

lemma gives_read (m : Machine) (key : Bytes) : Gives (m.readGuarded key) (m.read key) := by
  unfold readGuarded read
  cases m.program.field? key with
  | none => exact gives_error _
  | some f =>
    show Gives (if f.size ≠ 4 then _ else _) (if f.size ≠ 4 then _ else _)
    split_ifs with hsize hroom
    · exact gives_error _
    · exact gives_error _
    · exact Memory.gives_load? (Nat.not_lt.1 hroom)

lemma gives_snapshot (m : Machine) : Gives m.snapshotGuarded m.snapshot :=
  gives_mapM (fun key => (gives_read m key).bind fun _ _ => gives_ok _) m.program.keys

/-- **Every call** is answered without leaving memory. -/
lemma answerGuarded_eq {m : Machine} (h : m.Inside) (call : Call) :
    m.answerGuarded call = some (m.answer call) := by
  have hcleared := (continues_cleared m).inside (length_cleared m) h
  cases call with
  | run =>
    rw [answerGuarded, executeFromGuarded_eq hcleared]
    rfl
  | runUntil limit =>
    rw [answerGuarded, executeFromGuarded_eq hcleared, answer, runUntil]
    rcases m.cleared.executeFrom 0 (m.body.take limit) with ⟨m', error | error⟩
    · rfl
    · rfl
  | read key =>
    rw [answerGuarded, gives_read]
    rfl
  | snapshot =>
    rw [answerGuarded, gives_snapshot]
    rfl

/-! ### Fields of decoded programs -/

lemma exists_error_of_mapM {ε α β : Type} {f : α → Except ε β} {l : List α} {e : ε}
    (h : l.mapM f = .error e) : ∃ a ∈ l, f a = .error e := by
  induction l with
  | nil => exact absurd h nofun
  | cons a l ih =>
    rw [List.mapM_cons] at h
    cases ha : f a with
    | error e' =>
      rw [ha] at h
      obtain rfl := Except.error.inj h
      exact ⟨a, List.mem_cons_self, ha⟩
    | ok b =>
      rw [ha] at h
      cases hl : l.mapM f with
      | error e' =>
        rw [hl] at h
        obtain rfl := Except.error.inj h
        obtain ⟨a', ha', he⟩ := ih hl
        exact ⟨a', List.mem_cons_of_mem a ha', he⟩
      | ok bs =>
        rw [hl] at h
        exact absurd h nofun

lemma read_of_fits {m : Machine} {p : Program} (hprogram : m.program = p)
    (hlength : m.memory.length = p.buffer.size.toNat) (hfits : p.buffer.Fits) {key : Bytes}
    {f : Field} (hf : p.field? key = some f) :
    (∃ v, m.read key = .ok v) ∨
      f.size ≠ 4 ∧ m.read key = .error ⟨.fieldSize key f.size, none⟩ := by
  have hstop := hfits _ (FieldMap.mem_entries_iff.2 hf)
  simp only [read, hprogram, hf, hlength]
  by_cases hsize : f.size = 4
  · have hroom : ¬ p.buffer.size.toNat < f.offset.toNat + cellSize := by
      rw [Nat.not_lt]
      simpa [Field.stop, hsize, cellSize] using hstop
    exact .inl ⟨_, by rw [if_neg (not_not.2 hsize), if_neg hroom]⟩
  · exact .inr ⟨hsize, if_pos hsize⟩

lemma exists_read_error {m : Machine} {e : MachineError} (h : m.snapshot = .error e) :
    ∃ key f, m.program.field? key = some f ∧ m.read key = .error e := by
  obtain ⟨key, hkey, he⟩ := exists_error_of_mapM h
  obtain ⟨⟨_, f⟩, hentry, rfl⟩ := List.mem_map.1 (mem_keys_iff.1 hkey)
  refine ⟨_, f, FieldMap.mem_entries_iff.1 hentry, ?_⟩
  cases hread : m.read _ with
  | error e' => simpa [hread, bind, Except.bind] using he
  | ok v => simp [hread, bind, Except.bind, pure, Except.pure] at he

/-- **Decoded programs keep the machine in its memory.** Take any bytes that are decoded to a
program, by whatever implementation of MessagePack and in whatever order the fields are checked, and
a machine of that program, whatever its shader is read as. However it was used before, with runs
that ended well, failed or were called off and with readings, memory is as large as the buffer, and
every call is answered by the guarded machine as well: none of its readings and storings leaves
memory. A field of the program is read unless its size is not four bytes. If a reading or a snapshot
fails, it does so with the code for a wrong size, at a field of such a size. -/
theorem decoded_stays_inside {w : Msgpack.Wire} {o : Enumeration} {format : Format} {s : Bytes}
    {p : Program} (hdecode : Program.decodeBy w o format s = .ok p)
    {reader : Bytes → Option Wgsl.ModuleTree} {m : Machine} (hm : ofProgramBy reader p = .ok m)
    (calls : List Call) :
    (m.after calls).memory.length = p.buffer.size.toNat ∧
      (∀ call, (m.after calls).answerGuarded call = some ((m.after calls).answer call)) ∧
      (∀ key f, p.field? key = some f → (f.size = 4 → ∃ v, (m.after calls).read key = .ok v) ∧
        ∀ e, (m.after calls).read key = .error e → e.trap.code = 1003 ∧ f.size ≠ 4) ∧
      ∀ e, (m.after calls).snapshot = .error e →
        e.trap.code = 1003 ∧ ∃ key f, p.field? key = some f ∧ f.size ≠ 4 := by
  have hnew := ofProgramBy_isNew hm
  obtain ⟨hcontinues, hlength⟩ := continues_after hnew.inside calls
  have hprogram := hcontinues.program.trans hnew.program
  have hsize : (m.after calls).memory.length = p.buffer.size.toNat := by
    rw [hlength, hnew.memory, zeroed, List.length_replicate]
  have hfits := ((Buffer.accepts_iff (o.perm _)).1 (Program.decodeBy_eq_ok_iff.1 hdecode).2).1
  have herror : ∀ {key f e}, p.field? key = some f → (m.after calls).read key = .error e →
      e.trap.code = 1003 ∧ f.size ≠ 4 := by
    intro key f e hf he
    rcases read_of_fits hprogram hsize hfits hf with ⟨v, hv⟩ | ⟨hfour, hfault⟩
    · simp [hv] at he
    · rw [hfault] at he
      exact Except.error.inj he ▸ ⟨rfl, hfour⟩
  refine ⟨hsize, answerGuarded_eq (hcontinues.inside hlength hnew.inside),
    fun key f hf => ⟨fun hfour => ?_, fun e he => herror hf he⟩, fun e he => ?_⟩
  · exact (read_of_fits hprogram hsize hfits hf).resolve_right fun h => h.1 hfour
  · obtain ⟨key, f, hf, hread⟩ := exists_read_error he
    rw [hprogram] at hf
    obtain ⟨hcode, hfour⟩ := herror hf hread
    exact ⟨hcode, key, f, hf, hfour⟩

/-- A field across two members and one that is too small, with the shader of a plan. -/
def uneven : Program where
  buffer := ⟨8, ⟨[("m:a", ⟨2, 6⟩), ("m:b", ⟨4, 1⟩)], by decide +kernel⟩⟩
  shader := Shader.emit selfish

/-- After a run that was called off and one that failed. -/
theorem decoded_stays_inside_uneven :
    ∃ m, ofProgramBy Wgsl.ModuleTree.ofText? uneven = .ok m ∧
      (m.after [.runUntil 1, .run]).answerGuarded .run =
        some ((m.after [.runUntil 1, .run]).answer .run) ∧
      (m.after [.runUntil 1, .run]).memory.length = 8 ∧
      (∃ v, (m.after [.runUntil 1, .run]).read "m:b" = .ok v) ∧
      ∀ e, (m.after [.runUntil 1, .run]).read "m:a" = .error e → e.trap.code = 1003 := by
  have hread : Program.envelope? .standard .msgpack (uneven.encode .standard .msgpack) =
      some ⟨Envelope.version, some uneven⟩ := by
    decide +kernel
  have hcheck : Buffer.checkEntries uneven.buffer.size
      (Enumeration.byKeyDown.order uneven.buffer.fields) = .ok () := by cbv
  have hm : ∃ m, ofProgramBy Wgsl.ModuleTree.ofText? uneven = .ok m := by
    rw [ofProgramBy, if_neg (by decide), show uneven.shader = Shader.emit selfish from rfl,
      Shader.ofText?_emit]
    exact ⟨_, rfl⟩
  obtain ⟨m, hm⟩ := hm
  obtain ⟨hlength, hguarded, hfields, -⟩ := decoded_stays_inside
    (Program.decodeBy_eq_ok_iff.2 ⟨hread, hcheck⟩) hm [.runUntil 1, .run]
  exact ⟨m, hm, hguarded .run, hlength, (hfields "m:b" ⟨4, 1⟩ (by decide +kernel)).1 rfl,
    fun e he => ((hfields "m:a" ⟨2, 6⟩ (by decide +kernel)).2 e he).1⟩

end Machine

end StateBuffer
