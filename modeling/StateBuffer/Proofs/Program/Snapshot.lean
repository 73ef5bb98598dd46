import StateBuffer.Compilation.Artifact
import StateBuffer.Proofs.Execution
import StateBuffer.Proofs.Machine.Steps
import StateBuffer.Proofs.Program.Fields

/-!
The values that a program gives to its fields. A program that breaks no rule, whose variables have
keys of their own, gives each key the value of its variable; one with so many variables that the
size of its buffer wraps around gives no values at all.
-/

namespace StateBuffer

lemma Memory.Holds.load {memory : Bytes} {offset : Nat} {i : Int} (h : Holds memory offset i) :
    Memory.load memory offset = Int32.ofInt i := by
  have hbits : ((i % 2 ^ 32).toNat.toUInt32).toInt32 = Int32.ofInt i := by
    rw [← ofDigits_encode32_ofInt, ofDigits_encode32]
    simp
  rw [Memory.load, show (memory.drop offset).take 4 = cell memory offset from rfl, decode32_eq,
    h.digits, hbits]

/-! ### Reading fields -/

namespace Machine

lemma run_program (m : Machine) : m.run.1.program = m.program :=
  ((continues_cleared m).trans (continues_executeFrom ..)).program

lemma read_of_holds {m : Machine} {key : Bytes} {offset : UInt32} {i : Int}
    (hf : m.program.field? key = some ⟨4, offset⟩) (h : Memory.Holds m.memory offset.toNat i) :
    m.read key = .ok (Int32.ofInt i) := by
  have hlen := h.length
  rw [Memory.cell, List.length_take, List.length_drop] at hlen
  have hroom : ¬ m.memory.length < offset.toNat + cellSize := by
    simp only [cellSize]
    omega
  simp only [read, hf, ne_eq, not_true_eq_false, if_false, hroom, h.load]

lemma read_of_empty {m : Machine} (h : m.memory = []) (key : Bytes) :
    ∃ e, m.read key = .error e := by
  unfold read
  split
  · exact ⟨_, rfl⟩
  · split_ifs with hsize hroom
    · exact ⟨_, rfl⟩
    · exact ⟨_, rfl⟩
    · simp [h, cellSize] at hroom

lemma mem_keys_iff {p : Program} {key : Bytes} :
    key ∈ p.keys ↔ key ∈ p.buffer.fields.entries.map Prod.fst := by
  simp only [Program.keys, Buffer.byOffset, Buffer.sortByOffset, List.mem_map, List.mem_mergeSort]

lemma nodup_programKeys (p : Program) : p.keys.Nodup := by
  have hperm := (List.mergeSort_perm p.buffer.fields.entries
    fun a b => a.2.offset ≤ b.2.offset).map Prod.fst
  exact hperm.nodup_iff.2 p.buffer.fields.nodup_keys

lemma snapshot_ok {m : Machine} {value : Bytes → Int32}
    (h : ∀ key ∈ m.program.keys, m.read key = .ok (value key)) :
    m.snapshot = .ok (m.program.keys.map fun key => (key, value key)) := by
  refine mapM_ok fun key hkey => ?_
  rw [h key hkey]
  rfl

lemma snapshot_of_empty {m : Machine} (h : m.memory = []) (hkeys : m.program.keys ≠ []) :
    ∃ e, m.snapshot = .error e := by
  obtain ⟨key, keys, hk⟩ := List.exists_cons_of_ne_nil hkeys
  obtain ⟨e, he⟩ := read_of_empty h key
  refine ⟨e, ?_⟩
  rw [snapshot, hk, List.mapM_cons, he]
  rfl

lemma placeMembers_error (size : Nat) (nodes : List NodeId) (k : Nat) (hfits : k * 4 ≤ size)
    (h : size < (k + nodes.length) * 4) :
    ∃ e, placeMembers size k (nodes.map memberTree) = .error e := by
  induction nodes generalizing k with
  | nil => simp at h; omega
  | cons n nodes ih =>
    have htype : ¬ (memberTree n).type.name? ≠ some cellType := not_not.2 rfl
    rw [List.map_cons, placeMembers, if_neg htype]
    split_ifs with hroom
    · exact ⟨_, rfl⟩
    · rw [List.length_cons] at h
      simp only [cellSize] at hroom
      obtain ⟨e, he⟩ := ih (k + 1) (by omega) (by omega)
      rw [he]
      exact ⟨e, rfl⟩

end Machine

/-! ### The values of a plan -/

namespace Plan

open Resolution

lemma mem_keys_program {p : Plan} {key : Bytes} :
    key ∈ p.program.keys ↔ key ∈ p.globals.map Global.key := by
  rw [Machine.mem_keys_iff, ← map_fst_entries]
  exact FieldMap.mem_keys_ofList

lemma values_of_small {reader : Bytes → Option Wgsl.ModuleTree} (hread : Shader.Understood reader)
    {p : Plan} (h : p.size.toNat < 4 * p.globals.length) :
    ∃ e, p.program.values reader = .error e := by
  have hglobals : p.globals ≠ [] := by
    intro hnil
    rw [hnil] at h
    simp at h
  have hkeys : p.program.keys ≠ [] := by
    intro hnil
    have hnone : p.globals.map Global.key = [] :=
      List.eq_nil_iff_forall_not_mem.2 fun key hkey => by
        simpa [hnil] using mem_keys_program.2 hkey
    exact hglobals (List.map_eq_nil_iff.1 hnone)
  by_cases hempty : p.program.buffer.size = 0
  · obtain ⟨e, he⟩ := Machine.snapshot_of_empty (m := ⟨p.program, [], [], [], [], 0⟩) rfl hkeys
    refine ⟨.snapshot e, ?_⟩
    rw [Program.values, Program.execute, Machine.ofProgramBy, if_pos hempty]
    show (Machine.snapshot ⟨p.program, [], [], [], [], 0⟩).mapError _ = _
    rw [he]
    rfl
  · obtain ⟨e, he⟩ := Machine.placeMembers_error p.size.toNat
      (p.globals.map Global.node) 0 (Nat.zero_le _) (by rw [List.length_map]; omega)
    rw [List.map_map] at he
    have hload : Machine.load p.program (Shader.tree p) = .error e := by
      have hstruct : (Shader.tree p).structs.reverse.find? (fun s => s.name = Machine.structName) =
          some ⟨Shader.structName, p.globals.map (Machine.memberTree ∘ Global.node)⟩ := rfl
      rw [Machine.load, hstruct]
      show (Machine.placeMembers p.size.toNat 0 _ >>= _ : Except Trap _) = _
      rw [he]
      rfl
    refine ⟨.run ⟨e, none⟩, ?_⟩
    rw [Program.values, Program.execute, Machine.ofProgramBy, if_neg hempty,
      show p.program.shader = Shader.emit p from rfl, hread p hglobals]
    simp only [hload]
    rfl

section Sound

variable {reader : Bytes → Option Wgsl.ModuleTree} (hread : Shader.Understood reader)
  {s : SourceSet} {t : Tree} {next : NodeId} {root : Bytes} {r : Resolution}
  (h : t.Numbered s.size next) (hr : Resolved s t root r)
  (hsound : ¬ Validation.Violation s t root r) (hkeys : (t.vars.map (keyOf s)).Nodup)

include hread h hr hsound hkeys

/-- **A program that breaks no rule** runs, and every variable is read by its key. -/
lemma execute_of_sound (hvars : t.vars.length < 2 ^ 30) :
    ∃ p m, lower s r = .ok p ∧ p.program.execute reader = .ok m ∧ m.program = p.program ∧
      ∀ d ∈ t.vars, ∃ i, Denotes r d.item i ∧ m.read (keyOf s d) = .ok (Int32.ofInt i) := by
  obtain ⟨p, m, m', hlower, hm, hrun, hall⟩ := run_of_sound hread h hr hsound hvars
  obtain ⟨inits, seq, hlower', -⟩ := lower_ok h hr hsound
  have hglobals : p.globals = globalsIn s t := by
    rw [Except.ok.inj (hlower.symm.trans hlower')]
  have hkeeps : p.Keeps := by
    rw [keeps_iff, hglobals, map_key_globalsIn]
    exact hkeys
  have hprogram : m'.program = p.program := by
    rw [← (Machine.ofProgramBy_isNew hm).program, ← Machine.run_program m, hrun]
  refine ⟨p, m', hlower, ?_, hprogram, fun d hd => ?_⟩
  · rw [Program.execute, hm]
    simp only [hrun]
  · obtain ⟨g, i, hg, hi, hholds⟩ := hall d hd
    obtain ⟨k, hk⟩ := List.getElem?_of_mem hd
    obtain ⟨hmem, hitem⟩ := (hg g).2 rfl
    have hfield := hkeeps.field g hmem
    have hkey : g.key = keyOf s d := by
      rw [hglobals] at hmem
      rw [(mem_globalsIn_iff h hk).1 ⟨hmem, hitem⟩]
      rfl
    rw [← hprogram, hkey] at hfield
    exact ⟨i, (hi i).2 rfl, Machine.read_of_holds hfield hholds⟩

/-- **Its values** are those of its variables. -/
theorem values_of_sound (hvars : t.vars.length < 2 ^ 30) :
    ∃ p vs, lower s r = .ok p ∧ p.program.values reader = .ok vs ∧ (vs.map Prod.fst).Nodup ∧
      ∀ key v, (key, v) ∈ vs ↔
        ∃ d ∈ t.vars, keyOf s d = key ∧ ∃ i, Denotes r d.item i ∧ v = Int32.ofInt i := by
  obtain ⟨p, m, hlower, hexecute, hprogram, hall⟩ := execute_of_sound hread h hr hsound hkeys hvars
  obtain ⟨inits, seq, hlower', -⟩ := lower_ok h hr hsound
  have hmem : ∀ {key}, key ∈ m.program.keys ↔ ∃ d ∈ t.vars, keyOf s d = key := by
    intro key
    rw [hprogram, mem_keys_program, Except.ok.inj (hlower.symm.trans hlower'), map_key_globalsIn,
      List.mem_map]
  set value : Bytes → Int32 := fun key => ((m.read key).toOption).getD 0
  have hvalue : ∀ key ∈ m.program.keys, m.read key = .ok (value key) := by
    intro key hkey
    obtain ⟨d, hd, rfl⟩ := hmem.1 hkey
    obtain ⟨i, -, hi⟩ := hall d hd
    simp [value, hi, Except.toOption]
  refine ⟨p, m.program.keys.map fun key => (key, value key), hlower, ?_, ?_, fun key v => ?_⟩
  · rw [Program.values, hexecute]
    show m.snapshot.mapError _ = _
    rw [Machine.snapshot_ok hvalue]
    rfl
  · rw [List.map_map]
    exact (List.map_id _).symm ▸ Machine.nodup_programKeys m.program
  · rw [List.mem_map]
    constructor
    · rintro ⟨key', hkey', heq⟩
      obtain ⟨rfl, rfl⟩ := Prod.mk.inj heq
      obtain ⟨d, hd, rfl⟩ := hmem.1 hkey'
      obtain ⟨i, hdenotes, hi⟩ := hall d hd
      exact ⟨d, hd, rfl, i, hdenotes, by simp [value, hi, Except.toOption]⟩
    · rintro ⟨d, hd, rfl, i, hdenotes, rfl⟩
      obtain ⟨j, hj, hval⟩ := hall d hd
      refine ⟨keyOf s d, hmem.2 ⟨d, hd, rfl⟩, ?_⟩
      rw [hdenotes.unique hj]
      simp [value, hval, Except.toOption]

omit hkeys in
lemma values_of_many (hvars : 2 ^ 30 ≤ t.vars.length) :
    ∃ p e, lower s r = .ok p ∧ p.program.values reader = .error e := by
  obtain ⟨inits, seq, hlower, -⟩ := lower_ok h hr hsound
  have hsmall : (cellSize * t.vars.length.toUInt32).toNat < 4 * (globalsIn s t).length := by
    have hsize := UInt32.toNat_lt (cellSize * t.vars.length.toUInt32)
    rw [length_globalsIn]
    omega
  obtain ⟨e, he⟩ :=
    values_of_small hread (p := ⟨globalsIn s t, inits, cellSize * t.vars.length.toUInt32⟩) hsmall
  exact ⟨_, e, hlower, he⟩

end Sound

end Plan

end StateBuffer
