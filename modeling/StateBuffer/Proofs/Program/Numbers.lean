import Mathlib.Data.List.Forall2
import Mathlib.Data.Option.Basic
import StateBuffer.Proofs.Program.Decoding

/-!
The numbers of a stored program and the integers written for them. Both formats can write integers
of any size and sign, and more than one for a number, of which the last one counts. Readers that
keep every integer as it is written go along with the readers of programs, step by step. The reader
of JSON refuses integers out of range; the reader of MessagePack keeps the low bits of the integer
that counts, so its numbers are those written only where all integers are in range.
-/

namespace StateBuffer

/-! ### What is written -/

structure WrittenField where
  sizes : List Int
  offsets : List Int
  deriving DecidableEq

/-- The integers written for the size of a buffer and for its fields, one entry for each time that a
field is written. -/
structure WrittenBuffer where
  sizes : List Int
  fields : List (Bytes × WrittenField)
  deriving DecidableEq

/-- The integers written for the version and, if there is a program, those for its buffer. -/
structure WrittenEnvelope where
  schemas : List Int
  buffer : Option WrittenBuffer
  deriving DecidableEq

def WrittenField.empty : WrittenField := ⟨[], []⟩

def WrittenBuffer.empty : WrittenBuffer := ⟨[], []⟩

def WrittenEnvelope.empty : WrittenEnvelope := ⟨[], none⟩

namespace Json

/-- The integer of a literal without fraction and exponent. -/
def integer? : Bytes → Option Int
  | 0x2D :: digits => (Bytes.toNat? digits).map fun n => -(n : Int)
  | digits => (Bytes.toNat? digits).map fun n => (n : Int)

def writtenInteger (l : List Int) : Json → Option (List Int)
  | .null => some l
  | .number literal => (integer? literal).map fun i => l ++ [i]
  | _ => none

def writtenField : WrittenField → Json → Option WrittenField :=
  intoStruct fun name =>
    if Bytes.equalFold name "size" then
      some fun w j => (writtenInteger w.sizes j).map fun sizes => { w with sizes }
    else if Bytes.equalFold name "offset" then
      some fun w j => (writtenInteger w.offsets j).map fun offsets => { w with offsets }
    else none

def writtenFields (l : List (Bytes × WrittenField)) : Json → Option (List (Bytes × WrittenField))
  | .null => some []
  | .object members => members.foldlM (fun l m => do
      let w ← writtenField .empty m.2
      return l ++ [(m.1, w)]) l
  | _ => none

def writtenBuffer : WrittenBuffer → Json → Option WrittenBuffer :=
  intoStruct fun name =>
    if Bytes.equalFold name "size" then
      some fun w j => (writtenInteger w.sizes j).map fun sizes => { w with sizes }
    else if Bytes.equalFold name "fields" then
      some fun w j => (writtenFields w.fields j).map fun fields => { w with fields }
    else none

/-- The program, whose shader has no numbers. -/
def writtenProgram : WrittenBuffer → Json → Option WrittenBuffer :=
  intoStruct fun name =>
    if Bytes.equalFold name "buffer" then some writtenBuffer
    else if Bytes.equalFold name "init_shader" then some fun w j => (intoText [] j).map fun _ => w
    else none

/-- The envelope; null drops the program read before. -/
def writtenEnvelope : WrittenEnvelope → Json → Option WrittenEnvelope :=
  intoStruct fun name =>
    if Bytes.equalFold name "schema" then
      some fun w j => (writtenInteger w.schemas j).map fun schemas => { w with schemas }
    else if Bytes.equalFold name "program" then
      some fun w j => match j with
        | .null => some { w with buffer := none }
        | j => (writtenProgram (w.buffer.getD .empty) j).map fun b => { w with buffer := some b }
    else none

end Json

namespace Msgpack.Wire

variable (wire : Wire)

def writtenInteger? (l : List Int) (s : Bytes) : Option (List Int × Bytes) :=
  (wire.integer? s).map fun (i, rest) => (l ++ [i], rest)

def writtenField? : WrittenField → Bytes → Option (WrittenField × Bytes) :=
  wire.struct? ["size", "offset"] (fun name w =>
    if name = "size" then
      some fun s =>
        (wire.writtenInteger? w.sizes s).map fun (sizes, rest) => ({ w with sizes }, rest)
    else if name = "offset" then
      some fun s =>
        (wire.writtenInteger? w.offsets s).map fun (offsets, rest) => ({ w with offsets }, rest)
    else none) .empty

def writtenEntries? : Nat → List (Bytes × WrittenField) → Bytes →
    Option (List (Bytes × WrittenField) × Bytes)
  | 0, l, s => some (l, s)
  | count + 1, l, s => do
    let (key, rest) ← wire.text? s
    let (w, rest) ← wire.writtenField? .empty rest
    writtenEntries? count (l ++ [(key, w)]) rest

def writtenFields? (l : List (Bytes × WrittenField)) (s : Bytes) :
    Option (List (Bytes × WrittenField) × Bytes) := do
  let (count, rest) ← wire.mapHeader? s
  match count with
  | none => return ([], rest)
  | some count => wire.writtenEntries? count l rest

def writtenBuffer? : WrittenBuffer → Bytes → Option (WrittenBuffer × Bytes) :=
  wire.struct? ["size", "fields"] (fun name w =>
    if name = "size" then
      some fun s =>
        (wire.writtenInteger? w.sizes s).map fun (sizes, rest) => ({ w with sizes }, rest)
    else if name = "fields" then
      some fun s =>
        (wire.writtenFields? w.fields s).map fun (fields, rest) => ({ w with fields }, rest)
    else none) .empty

/-- The program, whose shader has no numbers. -/
def writtenProgram? : WrittenBuffer → Bytes → Option (WrittenBuffer × Bytes) :=
  wire.struct? ["buffer", "init_shader"] (fun name w =>
    if name = "buffer" then some (wire.writtenBuffer? w)
    else if name = "init_shader" then some fun s => (wire.text? s).map fun (_, rest) => (w, rest)
    else none) .empty

def writtenOptional? (w : Option WrittenBuffer) (s : Bytes) :
    Option (Option WrittenBuffer × Bytes) :=
  match wire.nil? s with
  | some rest => some (none, rest)
  | none => (wire.writtenProgram? (w.getD .empty) s).map fun (w, rest) => (some w, rest)

def writtenEnvelope? : Bytes → Option (WrittenEnvelope × Bytes) :=
  wire.struct? ["schema", "program"] (fun name w =>
    if name = "schema" then
      some fun s =>
        (wire.writtenInteger? w.schemas s).map fun (schemas, rest) => ({ w with schemas }, rest)
    else if name = "program" then
      some fun s =>
        (wire.writtenOptional? w.buffer s).map fun (buffer, rest) => ({ w with buffer }, rest)
    else none) .empty .empty

end Msgpack.Wire

/-- The integers written in the envelope at the start of a text. -/
def Program.written? (wire : Msgpack.Wire) : Format → Bytes → Option WrittenEnvelope
  | .json, s => do
    let (j, _) ← Json.read? s
    Json.writtenEnvelope .empty j
  | .msgpack, s => (wire.writtenEnvelope? s).map Prod.fst

/-! ### Integers and the numbers they give -/

/-- The integer that counts: the last one, and zero if none is written. -/
def lastInteger (l : List Int) : Int := l.getLast?.getD 0

/-- All integers are below a bound and none is negative. -/
def InRange (bound : Nat) (l : List Int) : Prop := ∀ i ∈ l, 0 ≤ i ∧ i < bound

/-- A number holds the low bits of the integer that counts. -/
def LowBits (bound : Nat) (l : List Int) (n : Nat) : Prop := lastInteger l % bound = n

/-- All integers are in range and a number is the one that counts. -/
def Exact (bound : Nat) (l : List Int) (n : Nat) : Prop := InRange bound l ∧ lastInteger l = n

@[simp] lemma lastInteger_nil : lastInteger [] = 0 := rfl

@[simp] lemma lastInteger_append (l : List Int) (i : Int) : lastInteger (l ++ [i]) = i := by
  simp [lastInteger]

lemma InRange.append {bound : Nat} {l : List Int} {i : Int} (h : InRange bound l) (h0 : 0 ≤ i)
    (hi : i < bound) : InRange bound (l ++ [i]) := by
  intro k hk
  rcases List.mem_append.1 hk with hk | hk
  · exact h k hk
  · rw [List.mem_singleton.1 hk]
    exact ⟨h0, hi⟩

lemma InRange.lastInteger {bound : Nat} (hbound : 0 < bound) {l : List Int} (h : InRange bound l) :
    0 ≤ lastInteger l ∧ lastInteger l < bound := by
  cases hl : l.getLast? with
  | none => simpa [StateBuffer.lastInteger, hl] using hbound
  | some i => simpa [StateBuffer.lastInteger, hl] using h i (List.mem_of_getLast? hl)

/-- **A number is what is written** exactly if it holds the low bits of integers in range. -/
lemma exact_iff {bound : Nat} (hbound : 0 < bound) (l : List Int) (n : Nat) :
    Exact bound l n ↔ InRange bound l ∧ LowBits bound l n := by
  refine and_congr_right fun hrange => ?_
  obtain ⟨h0, hlt⟩ := hrange.lastInteger hbound
  rw [LowBits, Int.emod_eq_of_lt h0 hlt]

lemma exact_nil (bound : Nat) : Exact bound [] 0 := ⟨by simp [InRange], rfl⟩

lemma lowBits_nil (bound : Nat) : LowBits bound [] 0 := by simp [LowBits]

section Gives

/-! The numbers of a program stand to the integers written for them as `N` says of each, which gets
the bound of the number, the integers and the number. -/

variable (N : Nat → List Int → Nat → Prop)

@[mk_iff]
structure WrittenField.Gives (w : WrittenField) (f : Field) : Prop where
  size : N UInt32.size w.sizes f.size.toNat
  offset : N UInt32.size w.offsets f.offset.toNat

/-- What is written for the fields, and the map put together from them in their order. -/
def GivesFields (l : List (Bytes × WrittenField)) (m : FieldMap) : Prop :=
  ∃ entries : List (Bytes × Field),
    List.Forall₂ (fun x e => x.1 = e.1 ∧ x.2.Gives N e.2) l entries ∧ m = FieldMap.ofList entries

@[mk_iff]
structure WrittenBuffer.Gives (w : WrittenBuffer) (b : Buffer) : Prop where
  size : N UInt32.size w.sizes b.size.toNat
  fields : GivesFields N w.fields b.fields

@[mk_iff]
structure WrittenEnvelope.Gives (w : WrittenEnvelope) (e : Envelope) : Prop where
  schema : N UInt16.size w.schemas e.schema.toNat
  program : Option.Rel (fun b p => b.Gives N p.buffer) w.buffer e.program

variable {N}

lemma givesFields_nil : GivesFields N [] FieldMap.empty := ⟨[], .nil, rfl⟩

lemma GivesFields.append {l : List (Bytes × WrittenField)} {m : FieldMap} (h : GivesFields N l m)
    (key : Bytes) {w : WrittenField} {f : Field} (hf : w.Gives N f) :
    GivesFields N (l ++ [(key, w)]) (m.insert key f) := by
  obtain ⟨entries, hentries, rfl⟩ := h
  refine ⟨entries ++ [(key, f)], ?_, (FieldMap.ofList_append entries (key, f)).symm⟩
  exact List.rel_append hentries (.cons ⟨rfl, hf⟩ .nil)

lemma WrittenField.gives_empty (h : ∀ bound, N bound [] 0) :
    WrittenField.empty.Gives N ⟨0, 0⟩ := ⟨h _, h _⟩

lemma WrittenBuffer.gives_empty (h : ∀ bound, N bound [] 0) :
    WrittenBuffer.empty.Gives N Buffer.empty := ⟨h _, givesFields_nil⟩

lemma WrittenBuffer.Gives.getD {w : Option WrittenBuffer} {p : Option Program}
    (h0 : ∀ bound, N bound [] 0) (h : Option.Rel (fun b p => b.Gives N p.buffer) w p) :
    (w.getD .empty).Gives N (p.getD Program.empty).buffer := by
  cases h with
  | none => exact gives_empty h0
  | some h => exact h

end Gives

/-- All integers written for a field are in range. -/
def WrittenField.Fits (w : WrittenField) : Prop :=
  InRange UInt32.size w.sizes ∧ InRange UInt32.size w.offsets

def WrittenBuffer.Fits (w : WrittenBuffer) : Prop :=
  InRange UInt32.size w.sizes ∧ ∀ x ∈ w.fields, x.2.Fits

def WrittenEnvelope.Fits (w : WrittenEnvelope) : Prop :=
  InRange UInt16.size w.schemas ∧ ∀ b ∈ w.buffer, b.Fits

lemma uint32Size_pos : 0 < UInt32.size := by decide

lemma WrittenField.gives_exact_iff (w : WrittenField) (f : Field) :
    w.Gives Exact f ↔ w.Fits ∧ w.Gives LowBits f := by
  rw [gives_iff, gives_iff, exact_iff uint32Size_pos, exact_iff uint32Size_pos,
    and_and_and_comm, Fits]

lemma givesFields_exact_iff (l : List (Bytes × WrittenField)) (m : FieldMap) :
    GivesFields Exact l m ↔ (∀ x ∈ l, x.2.Fits) ∧ GivesFields LowBits l m := by
  have hentry : ∀ (x : Bytes × WrittenField) (e : Bytes × Field),
      (x.1 = e.1 ∧ x.2.Gives Exact e.2) ↔ x.2.Fits ∧ x.1 = e.1 ∧ x.2.Gives LowBits e.2 := by
    intro x e
    rw [WrittenField.gives_exact_iff]
    exact and_left_comm
  simp only [GivesFields, hentry, List.forall₂_and_left, and_assoc, exists_and_left]

lemma WrittenBuffer.gives_exact_iff (w : WrittenBuffer) (b : Buffer) :
    w.Gives Exact b ↔ w.Fits ∧ w.Gives LowBits b := by
  rw [gives_iff, gives_iff, exact_iff uint32Size_pos, givesFields_exact_iff, and_and_and_comm, Fits]

/-- **The numbers are those written** exactly if they hold the low bits of integers in range. -/
lemma WrittenEnvelope.gives_exact_iff (w : WrittenEnvelope) (e : Envelope) :
    w.Gives Exact e ↔ w.Fits ∧ w.Gives LowBits e := by
  have hprogram : Option.Rel (fun b p => b.Gives Exact p.buffer) w.buffer e.program ↔
      (∀ b ∈ w.buffer, b.Fits) ∧
        Option.Rel (fun b p => b.Gives LowBits p.buffer) w.buffer e.program := by
    cases w.buffer <;> cases e.program <;> simp [WrittenBuffer.gives_exact_iff]
  rw [gives_iff, gives_iff, exact_iff (by decide : 0 < UInt16.size), hprogram, and_and_and_comm,
    Fits]

/-! ### Readers that go along -/

/-- Whatever the second reading gives, the first one gives something that stands to it as `R`. -/
def Follows {σ τ : Type} (R : σ → τ → Prop) (x : Option σ) (y : Option τ) : Prop :=
  ∀ b, y = some b → ∃ a, x = some a ∧ R a b

namespace Follows

variable {σ τ σ' τ' : Type} {R : σ → τ → Prop} {S : σ' → τ' → Prop} {x : Option σ} {y : Option τ}

lemma some {a : σ} {b : τ} (h : R a b) : Follows R (some a) (some b) := by
  rintro _ ⟨⟩
  exact ⟨a, rfl, h⟩

lemma none (x : Option σ) : Follows R x none := by
  rintro _ ⟨⟩

lemma refl (x : Option σ) : Follows Eq x x := fun b hb => ⟨b, hb, rfl⟩

lemma of_rel (h : Option.Rel R x y) : Follows R x y := by
  cases h with
  | none => exact none _
  | some h => exact some h

lemma bind {f : σ → Option σ'} {g : τ → Option τ'} (h : Follows R x y)
    (hfg : ∀ a b, R a b → Follows S (f a) (g b)) : Follows S (x >>= f) (y >>= g) := by
  intro c hc
  obtain ⟨b, hb, hgb⟩ := Option.bind_eq_some_iff.1 hc
  obtain ⟨a, ha, hab⟩ := h b hb
  obtain ⟨d, hd, hdc⟩ := hfg a b hab c hgb
  exact ⟨d, Option.bind_eq_some_iff.2 ⟨a, ha, hd⟩, hdc⟩

lemma map {f : σ → σ'} {g : τ → τ'} (h : Follows R x y) (hfg : ∀ a b, R a b → S (f a) (g b)) :
    Follows S (x.map f) (y.map g) := by
  intro c hc
  obtain ⟨b, hb, rfl⟩ := Option.map_eq_some_iff.1 hc
  obtain ⟨a, rfl, hab⟩ := h b hb
  exact ⟨f a, rfl, hfg a b hab⟩

lemma foldlM {α : Type} {f : σ → α → Option σ} {g : τ → α → Option τ}
    (hfg : ∀ a b x, R a b → Follows R (f a x) (g b x)) (l : List α) {a : σ} {b : τ} (h : R a b) :
    Follows R (l.foldlM f a) (l.foldlM g b) := by
  induction l generalizing a b with
  | nil => exact some h
  | cons x l ih => exact bind (hfg a b x h) fun _ _ h => ih h

end Follows

lemma rel_choice {α β : Type} {R : α → β → Prop} {c d : Prop} [Decidable c] [Decidable d]
    {x y : α} {x' y' : β} (hx : R x x') (hy : R y y') :
    Option.Rel R (if c then some x else if d then some y else none)
      (if c then some x' else if d then some y' else none) := by
  split_ifs
  · exact .some hx
  · exact .some hy
  · exact .none

namespace Json

section Structures

variable {σ τ : Type} {R : σ → τ → Prop} {field : Bytes → Option (σ → Json → Option σ)}
  {field' : Bytes → Option (τ → Json → Option τ)}

lemma intoStruct_follows
    (hfield : ∀ name, Option.Rel (fun read read' => ∀ a b j, R a b →
      Follows R (read a j) (read' b j)) (field name) (field' name))
    {a : σ} {b : τ} (h : R a b) (j : Json) :
    Follows R (intoStruct field a j) (intoStruct field' b j) := by
  cases j with
  | null => exact .some h
  | object members =>
    refine Follows.foldlM (fun a b m h => ?_) members h
    have hrel := hfield m.1
    generalize field m.1 = x, field' m.1 = y at hrel
    cases hrel with
    | none => exact .some h
    | some hread => exact hread a b m.2 h
  | _ => exact .none _

end Structures

lemma integer?_of_toNat? {literal : Bytes} {n : Nat} (h : Bytes.toNat? literal = some n) :
    integer? literal = some n := by
  have hdigits : literal.all Bytes.isDigit = true := by
    simp only [Bytes.toNat?] at h
    split at h
    · simp_all
    · simp at h
  unfold integer?
  split
  · simp [Bytes.isDigit] at hdigits
  · rw [h]
    rfl

lemma writtenInteger_follows {bound : Nat} {l : List Int} {n : Nat} (h : Exact bound l n)
    (j : Json) : Follows (Exact bound) (writtenInteger l j) (intoNat bound n j) := by
  cases j with
  | null => exact .some h
  | number literal =>
    intro m hm
    obtain ⟨m', hvalue, hif⟩ := Option.bind_eq_some_iff.1 hm
    split_ifs at hif with hlt
    obtain rfl := Option.some.inj hif
    refine ⟨l ++ [(m' : Int)], by rw [writtenInteger, integer?_of_toNat? hvalue]; rfl, ?_, by simp⟩
    exact h.1.append (by omega) (by exact_mod_cast hlt)
  | _ => exact .none _

lemma writtenUInt32_follows {l : List Int} {n : UInt32} (h : Exact UInt32.size l n.toNat)
    (j : Json) : Follows (fun l (n : UInt32) => Exact UInt32.size l n.toNat) (writtenInteger l j)
      (intoUInt32 n j) := by
  intro n' hn'
  obtain ⟨m, hm, rfl⟩ := Option.map_eq_some_iff.1 hn'
  obtain ⟨l', hl', hrange, hlast⟩ := writtenInteger_follows h j m hm
  have hlt := (hrange.lastInteger uint32Size_pos).2
  refine ⟨l', hl', hrange, ?_⟩
  rw [hlast, Nat.toUInt32, UInt32.toNat_ofNat_of_lt' (by omega)]

lemma writtenUInt16_follows {l : List Int} {n : UInt16} (h : Exact UInt16.size l n.toNat)
    (j : Json) : Follows (fun l m => Exact UInt16.size l m.toUInt16.toNat) (writtenInteger l j)
      (intoNat 65536 n.toNat j) := by
  intro m hm
  obtain ⟨l', hl', hrange, hlast⟩ := writtenInteger_follows h j m hm
  have hlt := (hrange.lastInteger (by decide : 0 < UInt16.size)).2
  refine ⟨l', hl', hrange, ?_⟩
  rw [hlast, Nat.toUInt16, UInt16.toNat_ofNat_of_lt' (by omega)]

lemma intoText_follows (s s' : Bytes) (j : Json) :
    Follows (fun _ _ => True) (intoText s j) (intoText s' j) := by
  cases j with
  | null => exact .some trivial
  | string s => exact .some trivial
  | _ => exact .none _

lemma writtenField_follows {w : WrittenField} {f : Field} (h : w.Gives Exact f) (j : Json) :
    Follows (WrittenField.Gives Exact) (writtenField w j) (intoField f j) := by
  refine intoStruct_follows (fun name => rel_choice ?_ ?_) h j
  · intro w f j h
    exact (writtenUInt32_follows h.size j).map fun _ _ hsize => { h with size := hsize }
  · intro w f j h
    exact (writtenUInt32_follows h.offset j).map fun _ _ hoffset => { h with offset := hoffset }

lemma writtenFields_follows {l : List (Bytes × WrittenField)} {m : FieldMap}
    (h : GivesFields Exact l m) (j : Json) :
    Follows (GivesFields Exact) (writtenFields l j) (intoFields m j) := by
  cases j with
  | null => exact .some givesFields_nil
  | object members =>
    refine Follows.foldlM (fun l m x h => ?_) members h
    have hempty : WrittenField.empty.Gives Exact ⟨0, 0⟩ :=
      WrittenField.gives_empty exact_nil
    exact (writtenField_follows hempty x.2).bind fun w f hf => .some (h.append x.1 hf)
  | _ => exact .none _

lemma writtenBuffer_follows {w : WrittenBuffer} {b : Buffer} (h : w.Gives Exact b) (j : Json) :
    Follows (WrittenBuffer.Gives Exact) (writtenBuffer w j) (intoBuffer b j) := by
  refine intoStruct_follows (fun name => rel_choice ?_ ?_) h j
  · intro w b j h
    exact (writtenUInt32_follows h.size j).map fun _ _ hsize => { h with size := hsize }
  · intro w b j h
    exact (writtenFields_follows h.fields j).map fun _ _ hfields => { h with fields := hfields }

lemma writtenProgram_follows {w : WrittenBuffer} {p : Program} (h : w.Gives Exact p.buffer)
    (j : Json) :
    Follows (fun w p => w.Gives Exact p.buffer) (writtenProgram w j) (intoProgram p j) := by
  refine intoStruct_follows (R := fun (w : WrittenBuffer) (p : Program) => w.Gives Exact p.buffer)
    (fun name => rel_choice ?_ ?_) h j
  · intro w p j h b' hb'
    obtain ⟨b, hb, rfl⟩ := Option.map_eq_some_iff.1 hb'
    exact writtenBuffer_follows h j b hb
  · intro w p j h
    exact (intoText_follows [] p.shader j).map fun _ _ _ => h

/-- **JSON**: all integers of an envelope that is read are in range and stand in it. -/
lemma writtenEnvelope_follows {w : WrittenEnvelope} {e : Envelope} (h : w.Gives Exact e)
    (j : Json) :
    Follows (WrittenEnvelope.Gives Exact) (writtenEnvelope w j) (intoEnvelope e j) := by
  refine intoStruct_follows (fun name => rel_choice ?_ ?_) h j
  · intro w e j h
    exact (writtenUInt16_follows h.schema j).map fun _ _ hschema => { h with schema := hschema }
  · intro w e j h
    have hread := writtenProgram_follows (WrittenBuffer.Gives.getD exact_nil h.program) j
    have hmap := hread.map (S := WrittenEnvelope.Gives Exact)
      (f := fun b => { w with buffer := some b }) (g := fun p => { e with program := some p })
      fun _ _ hp => { h with program := .some hp }
    cases j with
    | null => exact .some { h with program := .none }
    | _ => exact hmap

end Json

namespace Msgpack.Wire

variable (wire : Wire)

/-- Related results with the same rest. -/
def Along {σ τ : Type} (R : σ → τ → Prop) (x : σ × Bytes) (y : τ × Bytes) : Prop :=
  R x.1 y.1 ∧ x.2 = y.2

section Structures

variable {σ τ : Type} {R : σ → τ → Prop}
  {field : Bytes → σ → Option (Bytes → Option (σ × Bytes))}
  {field' : Bytes → τ → Option (Bytes → Option (τ × Bytes))}

/-- Do the readers of fields go along? -/
def FieldsFollow (R : σ → τ → Prop) (field : Bytes → σ → Option (Bytes → Option (σ × Bytes)))
    (field' : Bytes → τ → Option (Bytes → Option (τ × Bytes))) : Prop :=
  ∀ name a b, R a b → Option.Rel (fun read read' => ∀ s, Follows (Along R) (read s) (read' s))
    (field name a) (field' name b)

lemma named?_follows (hfield : FieldsFollow R field field') (count : Nat) {a : σ} {b : τ}
    (h : R a b) (s : Bytes) :
    Follows (Along R) (wire.named? field count a s) (wire.named? field' count b s) := by
  induction count generalizing a b s with
  | zero => exact .some ⟨h, rfl⟩
  | succ count ih =>
    refine Follows.bind (.refl (wire.text? s)) ?_
    rintro ⟨name, rest⟩ _ rfl
    have hrel := hfield name a b h
    dsimp only
    generalize field name a = x, field' name b = y at hrel
    cases hrel with
    | none =>
      refine Follows.bind (.refl (wire.skipValue? rest)) ?_
      rintro rest _ rfl
      exact ih h rest
    | some hread =>
      refine Follows.bind (hread rest) ?_
      rintro ⟨a, rest⟩ ⟨b, _⟩ ⟨h, rfl⟩
      exact ih h rest

lemma ordered?_follows (hfield : FieldsFollow R field field') (names : List Bytes) {a : σ} {b : τ}
    (h : R a b) (s : Bytes) :
    Follows (Along R) (ordered? field names a s) (ordered? field' names b s) := by
  induction names generalizing a b s with
  | nil => exact .some ⟨h, rfl⟩
  | cons name names ih =>
    refine (Follows.of_rel (hfield name a b h)).bind fun _ _ hread => (hread s).bind ?_
    rintro ⟨a, rest⟩ ⟨b, _⟩ ⟨h, rfl⟩
    exact ih h rest

/-- **Structures** go along when the readers of their fields do. -/
lemma struct?_follows (hfield : FieldsFollow R field field') (names : List Bytes) {zero a : σ}
    {zero' b : τ} (hzero : R zero zero') (h : R a b) (s : Bytes) :
    Follows (Along R) (wire.struct? names field zero a s)
      (wire.struct? names field' zero' b s) := by
  refine Follows.bind (.refl (wire.shape? s)) ?_
  rintro ⟨shape, rest⟩ _ rfl
  cases shape with
  | nil => exact .some ⟨hzero, rfl⟩
  | named count => exact wire.named?_follows hfield count h rest
  | ordered count =>
    dsimp only
    split_ifs
    · exact .some ⟨hzero, rfl⟩
    · exact ordered?_follows hfield names h rest
    · exact .none _

end Structures

lemma lowBits_emod {bound : Nat} (hbound : 0 < bound) (l : List Int) (i : Int) :
    LowBits bound (l ++ [i]) (i % bound).toNat := by
  rw [LowBits, lastInteger_append]
  exact (Int.toNat_of_nonneg (Int.emod_nonneg i (by omega))).symm

lemma writtenUInt32_follows (l : List Int) (s : Bytes) :
    Follows (Along fun l (n : UInt32) => LowBits UInt32.size l n.toNat) (wire.writtenInteger? l s)
      (wire.uint32? s) := by
  refine (Follows.refl (wire.integer? s)).map ?_
  rintro ⟨i, rest⟩ _ rfl
  refine ⟨?_, rfl⟩
  have hlt : (i % 4294967296).toNat < UInt32.size := by
    rw [UInt32.size]
    omega
  dsimp only
  rw [Nat.toUInt32, UInt32.toNat_ofNat_of_lt' hlt]
  exact lowBits_emod uint32Size_pos l i

lemma writtenUInt16_follows (l : List Int) (s : Bytes) :
    Follows (Along fun l (n : UInt16) => LowBits UInt16.size l n.toNat) (wire.writtenInteger? l s)
      (wire.uint16? s) := by
  refine (Follows.refl (wire.integer? s)).map ?_
  rintro ⟨i, rest⟩ _ rfl
  refine ⟨?_, rfl⟩
  have hlt : (i % 65536).toNat < UInt16.size := by
    rw [UInt16.size]
    omega
  dsimp only
  rw [Nat.toUInt16, UInt16.toNat_ofNat_of_lt' hlt]
  exact lowBits_emod (by decide) l i

lemma writtenField_follows {w : WrittenField} {f : Field} (h : w.Gives LowBits f) (s : Bytes) :
    Follows (Along (WrittenField.Gives LowBits)) (wire.writtenField? w s) (wire.field? f s) := by
  have hzero : WrittenField.empty.Gives LowBits ⟨0, 0⟩ := WrittenField.gives_empty lowBits_nil
  refine wire.struct?_follows (fun name w f h => ?_) _ hzero h s
  refine rel_choice ?_ ?_
  · intro s
    exact (wire.writtenUInt32_follows w.sizes s).map fun _ _ hx => ⟨{ h with size := hx.1 }, hx.2⟩
  · intro s
    exact (wire.writtenUInt32_follows w.offsets s).map
      fun _ _ hx => ⟨{ h with offset := hx.1 }, hx.2⟩

lemma writtenEntries?_follows (count : Nat) {l : List (Bytes × WrittenField)} {m : FieldMap}
    (h : GivesFields LowBits l m) (s : Bytes) :
    Follows (Along (GivesFields LowBits)) (wire.writtenEntries? count l s)
      (wire.entries? count m s) := by
  induction count generalizing l m s with
  | zero => exact .some ⟨h, rfl⟩
  | succ count ih =>
    refine Follows.bind (.refl (wire.text? s)) ?_
    rintro ⟨key, rest⟩ _ rfl
    have hempty : WrittenField.empty.Gives LowBits ⟨0, 0⟩ :=
      WrittenField.gives_empty lowBits_nil
    refine (wire.writtenField_follows hempty rest).bind ?_
    rintro ⟨w, rest⟩ ⟨f, _⟩ ⟨hf, rfl⟩
    exact ih (h.append key hf) rest

lemma writtenFields_follows {l : List (Bytes × WrittenField)} {m : FieldMap}
    (h : GivesFields LowBits l m) (s : Bytes) :
    Follows (Along (GivesFields LowBits)) (wire.writtenFields? l s) (wire.fields? m s) := by
  refine Follows.bind (.refl (wire.mapHeader? s)) ?_
  rintro ⟨count, rest⟩ _ rfl
  cases count with
  | none => exact .some ⟨givesFields_nil, rfl⟩
  | some count => exact wire.writtenEntries?_follows count h rest

lemma writtenBuffer_follows {w : WrittenBuffer} {b : Buffer} (h : w.Gives LowBits b) (s : Bytes) :
    Follows (Along (WrittenBuffer.Gives LowBits)) (wire.writtenBuffer? w s) (wire.buffer? b s) := by
  have hzero : WrittenBuffer.empty.Gives LowBits Buffer.empty :=
    WrittenBuffer.gives_empty lowBits_nil
  refine wire.struct?_follows (fun name w b h => ?_) _ hzero h s
  refine rel_choice ?_ ?_
  · intro s
    exact (wire.writtenUInt32_follows w.sizes s).map fun _ _ hx => ⟨{ h with size := hx.1 }, hx.2⟩
  · intro s
    exact (wire.writtenFields_follows h.fields s).map
      fun _ _ hx => ⟨{ h with fields := hx.1 }, hx.2⟩

lemma writtenProgram_follows {w : WrittenBuffer} {p : Program} (h : w.Gives LowBits p.buffer)
    (s : Bytes) :
    Follows (Along fun w p => w.Gives LowBits p.buffer) (wire.writtenProgram? w s)
      (wire.program? p s) := by
  have hzero : WrittenBuffer.empty.Gives LowBits Program.empty.buffer :=
    WrittenBuffer.gives_empty lowBits_nil
  refine wire.struct?_follows
    (R := fun (w : WrittenBuffer) (p : Program) => w.Gives LowBits p.buffer)
    (fun name w p h => ?_) _ hzero h s
  refine rel_choice ?_ ?_
  · intro s x hx
    obtain ⟨y, hy, rfl⟩ := Option.map_eq_some_iff.1 hx
    exact wire.writtenBuffer_follows h s y hy
  · intro s
    exact (Follows.refl (wire.text? s)).map fun _ _ hx => ⟨h, by rw [hx]⟩

lemma writtenOptional_follows {w : Option WrittenBuffer} {p : Option Program}
    (h : Option.Rel (fun b p => b.Gives LowBits p.buffer) w p) (s : Bytes) :
    Follows (Along (Option.Rel fun b p => b.Gives LowBits p.buffer)) (wire.writtenOptional? w s)
      (wire.optionalProgram? p s) := by
  have hread := wire.writtenProgram_follows (WrittenBuffer.Gives.getD lowBits_nil h) s
  rw [writtenOptional?, optionalProgram?]
  cases wire.nil? s with
  | some rest => exact .some ⟨.none, rfl⟩
  | none => exact hread.map fun _ _ hx => ⟨.some hx.1, hx.2⟩

/-- **MessagePack**: the numbers of an envelope that is read hold low bits of what is written. -/
lemma writtenEnvelope_follows (s : Bytes) :
    Follows (Along (WrittenEnvelope.Gives LowBits)) (wire.writtenEnvelope? s)
      (wire.envelope? s) := by
  have hzero : WrittenEnvelope.empty.Gives LowBits Envelope.empty := ⟨lowBits_nil _, .none⟩
  refine wire.struct?_follows (fun name w e h => ?_) _ hzero hzero s
  refine rel_choice ?_ ?_
  · intro s
    exact (wire.writtenUInt16_follows w.schemas s).map
      fun _ _ hx => ⟨{ h with schema := hx.1 }, hx.2⟩
  · intro s
    exact (wire.writtenOptional_follows h.program s).map
      fun _ _ hx => ⟨{ h with program := hx.1 }, hx.2⟩

end Msgpack.Wire

/-! ### Both formats -/

namespace Program

/-- The numbers of an envelope that is read hold low bits of what is written; those of JSON are what
is written. -/
lemma written?_follows (wire : Msgpack.Wire) (format : Format) (s : Bytes) :
    Follows (fun w e => w.Gives LowBits e ∧ (format = .json → w.Fits)) (written? wire format s)
      (envelope? wire format s) := by
  cases format with
  | json =>
    refine Follows.bind (.refl (Json.read? s)) ?_
    rintro ⟨j, rest⟩ _ rfl
    intro e he
    have hempty : WrittenEnvelope.empty.Gives Exact Envelope.empty := ⟨exact_nil _, .none⟩
    obtain ⟨w, hw, hgives⟩ := Json.writtenEnvelope_follows hempty j e he
    obtain ⟨hfits, hlow⟩ := (w.gives_exact_iff e).1 hgives
    exact ⟨w, hw, hlow, fun _ => hfits⟩
  | msgpack =>
    exact (wire.writtenEnvelope_follows s).map fun _ _ hx => ⟨hx.1, nofun⟩

lemma envelope?_of_decode {wire : Msgpack.Wire} {format : Format} {s : Bytes} {p : Program}
    (h : decode wire format s = .ok p) :
    envelope? wire format s = some ⟨Envelope.version, some p⟩ :=
  (decodeBy_eq_ok_iff.1 ((decodeBy_byKey wire format s).trans h)).1

lemma prefix_message (fault : ProgramFault) :
    ("unsupported program schema: " : Bytes) <+: fault.message ∨
      ("invalid compiled program: " : Bytes) <+: fault.message := by
  cases fault with
  | undecodable => exact .inr (by decide)
  | otherVersion version =>
    have hshort : ("unsupported program schema: " : Bytes) <+:
        "unsupported program schema: version " := by decide
    exact .inl (hshort.trans (List.prefix_append _ _))
  | noProgram => exact .inr (by decide)
  | layout fault => exact .inr (List.prefix_append _ _)

/-- **Numbers are read as they are written** exactly if all integers written are in range. Whatever
the bytes are, they are refused with one of two errors, or a program is read from them, and then the
version is `1` in its low bits and every number of the program holds the low bits of the integer
written last for it. These are the integers themselves exactly if each integer that is written fits
its number, and in JSON each does. -/
theorem decode_numbers (wire : Msgpack.Wire) (format : Format) (s : Bytes) :
    (∃ p w, decode wire format s = .ok p ∧ written? wire format s = some w ∧
        w.Gives LowBits ⟨Envelope.version, some p⟩ ∧
        (w.Gives Exact ⟨Envelope.version, some p⟩ ↔ w.Fits) ∧
        (format = .json → w.Gives Exact ⟨Envelope.version, some p⟩)) ∨
      ∃ fault, decode wire format s = .error fault ∧
        (("unsupported program schema: " : Bytes) <+: fault.message ∨
          ("invalid compiled program: " : Bytes) <+: fault.message) := by
  cases h : decode wire format s with
  | error fault => exact .inr ⟨fault, rfl, prefix_message fault⟩
  | ok p =>
    obtain ⟨w, hw, hlow, hjson⟩ := written?_follows wire format s _ (envelope?_of_decode h)
    have hexact : w.Gives Exact ⟨Envelope.version, some p⟩ ↔ w.Fits := by
      rw [w.gives_exact_iff]
      exact and_iff_left hlow
    exact .inl ⟨p, w, rfl, hw, hlow, hexact, fun hf => hexact.2 (hjson hf)⟩

-- of two sizes of the buffer the last one counts
example : written? .standard .json
    "\x7b\"schema\":1,\"Program\":\x7b\"buffer\":\x7b\"size\":-8,\"size\":4\x7d\x7d\x7d" =
      some ⟨[1], some ⟨[-8, 4], []⟩⟩ := by
  decide +kernel

/-- Integers out of range for the version, the size of the buffer and the size of a field. -/
def wide : WrittenEnvelope :=
  ⟨[2 ^ 16 + 1], some ⟨[2 ^ 32 + 4], [("a:x", ⟨[4 - 2 ^ 32], [0]⟩)]⟩⟩

def narrowed : Program := ⟨⟨4, FieldMap.ofList [("a:x", ⟨4, 0⟩)]⟩, []⟩

/-- An envelope that writes those integers, the last in two's complement. -/
def wideBytes : Bytes :=
  Msgpack.writeMapHeader 2 ++ Msgpack.writeText "schema" ++ 0xCE :: Msgpack.bigEndian 4 (2 ^ 16 + 1)
    ++ Msgpack.writeText "program" ++ Msgpack.writeMapHeader 1
    ++ Msgpack.writeText "buffer" ++ Msgpack.writeMapHeader 2
    ++ Msgpack.writeText "size" ++ 0xCF :: Msgpack.bigEndian 8 (2 ^ 32 + 4)
    ++ Msgpack.writeText "fields" ++ Msgpack.writeMapHeader 1 ++ Msgpack.writeText "a:x"
    ++ Msgpack.writeMapHeader 2
    ++ Msgpack.writeText "size" ++ 0xD3 :: Msgpack.bigEndian 8 (2 ^ 64 + 4 - 2 ^ 32)
    ++ Msgpack.writeText "offset" ++ [0x00]

/-- The version is another one and the sizes do not fit, but a program is read. -/
theorem decode_wideBytes :
    decode .standard .msgpack wideBytes = .ok narrowed ∧
      written? .standard .msgpack wideBytes = some wide ∧
      ¬ wide.Gives Exact ⟨Envelope.version, some narrowed⟩ := by
  have hread : envelope? .standard .msgpack wideBytes = some ⟨Envelope.version, some narrowed⟩ := by
    decide +kernel
  refine ⟨?_, by decide +kernel, fun h => absurd h.schema.2 (by decide)⟩
  rw [decode, hread]
  cbv

end Program

end StateBuffer
