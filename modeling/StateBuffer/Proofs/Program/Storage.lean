import Mathlib
import StateBuffer.Proofs.Data.Json
import StateBuffer.Proofs.Data.Msgpack
import StateBuffer.Proofs.Program.Decoding

/-!
Stored programs are read back. Both formats give the program that was written and leave whatever
follows it alone, MessagePack by any implementation that keeps the laws of the format. The fields of
a map can be written in any order: the map is put together from them one by one, and a map is told
by its fields.
-/

namespace StateBuffer

namespace FieldMap

lemma ofList_of_perm {m : FieldMap} {entries : List (Bytes × Field)}
    (h : entries.Perm m.entries) : ofList entries = m := by
  have hkeys : (entries.map Prod.fst).Nodup := (h.map Prod.fst).nodup_iff.2 m.nodup_keys
  have hnodup : ∀ m' : FieldMap, m'.entries.Nodup := fun m' => m'.nodup_keys.of_map Prod.fst
  have hperm : (ofList entries).entries.Perm m.entries := by
    refine (List.perm_ext_iff_of_nodup (hnodup _) (hnodup m)).2 fun e => ?_
    rw [mem_ofList_iff hkeys, h.mem_iff]
  have hentries : (ofList entries).entries = m.entries := by
    refine hperm.eq_of_pairwise (fun a b _ _ hab hba => ?_) (ofList entries).sorted m.sorted
    exact absurd (List.lt_trans hab hba) (List.lt_irrefl _)
  cases m
  cases hentries
  rfl

end FieldMap

/-! ### JSON -/

namespace Json

lemma intoNat_ofNat {bound n : Nat} (h : n < bound) (state : Nat) :
    intoNat bound state (ofNat n) = some n := by
  have hempty : (Bytes.ofNat n).isEmpty = false := by simpa using Bytes.ofNat_ne_nil n
  have hdigits : (Bytes.ofNat n).all Bytes.isDigit = true :=
    List.all_eq_true.2 fun b hb => Bytes.isDigit_of_mem_ofNat hb
  have hvalue : Bytes.toNat? (Bytes.ofNat n) = some n := by
    simp [Bytes.toNat?, hempty, hdigits, Bytes.digitsValue_ofNat]
  simp [ofNat, intoNat, hvalue, h]

lemma intoUInt32_ofNat (state n : UInt32) : intoUInt32 state (ofNat n.toNat) = some n := by
  rw [intoUInt32, intoNat_ofNat n.toNat_lt]
  simp

lemma equalFold_refl (name : Bytes) : Bytes.equalFold name name = true := by
  simp [Bytes.equalFold]

lemma intoField_ofField (f : Field) : intoField ⟨0, 0⟩ (ofField f) = some f := by
  have hother : Bytes.equalFold "offset" "size" = false := by cbv
  simp [intoField, ofField, intoStruct, entry, equalFold_refl, hother, intoUInt32_ofNat]

lemma intoFields_ofFields (m : FieldMap) : intoFields FieldMap.empty (ofFields m) = some m := by
  have hfold : ∀ (entries : List (Bytes × Field)) (state : FieldMap),
      (entries.map fun e => (e.1, ofField e.2)).foldlM (fun state m => do
        let f ← intoField ⟨0, 0⟩ m.2
        return state.insert m.1 f) state = some (entries.foldl (fun m e => m.insert e.1 e.2) state) := by
    intro entries
    induction entries with
    | nil => intro state; rfl
    | cons e entries ih =>
      intro state
      simp only [List.map_cons, List.foldlM_cons, intoField_ofField, bind, Option.bind_some, pure]
      exact ih _
  have hall := hfold m.entries FieldMap.empty
  rw [show m.entries.foldl (fun m e => m.insert e.1 e.2) FieldMap.empty = m from
    FieldMap.ofList_of_perm (List.Perm.refl _)] at hall
  exact hall

lemma intoBuffer_pair {b : Buffer} {fields : Json}
    (h : intoFields FieldMap.empty fields = some b.fields) :
    intoBuffer Buffer.empty
      (.object [entry "size" (ofNat b.size.toNat), entry "fields" fields]) = some b := by
  have hother : Bytes.equalFold "fields" "size" = false := by cbv
  simp [intoBuffer, intoStruct, entry, equalFold_refl, hother, intoUInt32_ofNat, Buffer.empty, h]

lemma intoEnvelope_envelopeWith {p : Program} {fields : Json}
    (h : intoFields FieldMap.empty fields = some p.buffer.fields) :
    intoEnvelope Envelope.empty (envelopeWith p fields) = some ⟨Envelope.version, some p⟩ := by
  have hprogram : intoProgram Program.empty (.object
      [entry "buffer" (.object [entry "size" (ofNat p.buffer.size.toNat), entry "fields" fields]),
        entry "init_shader" (.string p.shader)]) = some p := by
    have hother : Bytes.equalFold "init_shader" "buffer" = false := by cbv
    have hbuffer := intoBuffer_pair h
    simp only [entry] at hbuffer
    simp [intoProgram, intoStruct, entry, equalFold_refl, hother, Program.empty, hbuffer, intoText]
  have hother : Bytes.equalFold "program" "schema" = false := by cbv
  have hschema : ∀ state, intoNat 65536 state (ofNat Envelope.version.toNat) =
      some Envelope.version.toNat := intoNat_ofNat (by decide)
  simp only [entry] at hprogram
  simp [intoEnvelope, envelopeWith, intoStruct, entry, equalFold_refl, hother, hschema,
    Envelope.empty, hprogram]

lemma readable_ofNat (depth n : Nat) : Readable depth (ofNat n) := by
  rw [ofNat, Readable]
  exact numeral_ofNat n

lemma readable_pair {depth : Nat} {first second : String} {a b : Json} (hdepth : depth < maxDepth)
    (hfirst : Utf8.isValid first = true) (hsecond : Utf8.isValid second = true)
    (ha : Readable (depth + 1) a) (hb : Readable (depth + 1) b) :
    Readable depth (.object [entry first a, entry second b]) := by
  simp only [entry, Readable, ReadableMembers]
  exact ⟨hdepth, hfirst, ha, hsecond, hb, trivial⟩

lemma readable_ofField {depth : Nat} (h : depth < maxDepth) (f : Field) :
    Readable depth (ofField f) :=
  readable_pair h (by cbv) (by cbv) (readable_ofNat _ _) (readable_ofNat _ _)

lemma readable_ofFields {m : FieldMap} (h : ∀ e ∈ m.entries, Utf8.isValid e.1 = true) :
    Readable 3 (ofFields m) := by
  have hmembers : ∀ entries : List (Bytes × Field), (∀ e ∈ entries, Utf8.isValid e.1 = true) →
      ReadableMembers 4 (entries.map fun e => (e.1, ofField e.2)) := by
    intro entries
    induction entries with
    | nil => simp [ReadableMembers]
    | cons e entries ih =>
      intro hall
      rw [List.map_cons, ReadableMembers]
      exact ⟨hall e List.mem_cons_self, readable_ofField (by decide) e.2,
        ih fun e' he' => hall e' (List.mem_cons_of_mem e he')⟩
  rw [ofFields, Readable]
  exact ⟨by decide, hmembers m.entries h⟩

lemma readable_envelopeWith {p : Program} {fields : Json} (hfields : Readable 3 fields)
    (hshader : Utf8.isValid p.shader = true) : Readable 0 (envelopeWith p fields) := by
  have hbuffer : Readable 2 (.object
      [entry "size" (ofNat p.buffer.size.toNat), entry "fields" fields]) :=
    readable_pair (by decide) (by cbv) (by cbv) (readable_ofNat _ _) hfields
  have htext : Readable 2 (.string p.shader) := by
    rw [Readable]
    exact hshader
  have hprogram : Readable 1 (.object
      [entry "buffer" (.object [entry "size" (ofNat p.buffer.size.toNat), entry "fields" fields]),
        entry "init_shader" (.string p.shader)]) :=
    readable_pair (by decide) (by cbv) (by cbv) hbuffer htext
  exact readable_pair (by decide) (by cbv) (by cbv) (readable_ofNat _ _) hprogram

end Json

/-! ### MessagePack -/

namespace Msgpack.Wire

variable {w : Wire} (hw : w.Lawful)

include hw

lemma uint32?_writeUInt32 (n : UInt32) (rest : Bytes) :
    w.uint32? (w.writeUInt32 n ++ rest) = some (n, rest) := by
  have hlt := n.toNat_lt
  have hlow : ((n.toNat : Int) % 4294967296).toNat = n.toNat := by omega
  rw [uint32?, hw.uint32]
  simp [hlow]

lemma uint16?_writeUInt16 (n : UInt16) (rest : Bytes) :
    w.uint16? (w.writeUInt16 n ++ rest) = some (n, rest) := by
  have hlt := n.toNat_lt
  have hlow : ((n.toNat : Int) % 65536).toNat = n.toNat := by omega
  rw [uint16?, hw.uint16]
  simp [hlow]

lemma field?_writeField (f : Field) (rest : Bytes) :
    w.field? ⟨0, 0⟩ (w.writeField f ++ rest) = some (f, rest) := by
  have hother : ¬ ("offset" : Bytes) = "size" := by decide
  simp only [writeField, List.append_assoc]
  refine struct?_pair hw ⟨f.size, 0⟩ (by decide) (by decide) (if_pos rfl)
    ((if_neg hother).trans (if_pos rfl)) (fun rest => ?_) fun rest => ?_
  · rw [uint32?_writeUInt32 hw]
    rfl
  · rw [uint32?_writeUInt32 hw]
    rfl

lemma entries?_write {entries : List (Bytes × Field)} (h : ∀ e ∈ entries, e.1.length < 2 ^ 32)
    (m : FieldMap) (rest : Bytes) :
    w.entries? entries.length m
        ((entries.flatMap fun e => w.writeText e.1 ++ w.writeField e.2) ++ rest) =
      some (entries.foldl (fun m e => m.insert e.1 e.2) m, rest) := by
  induction entries generalizing m with
  | nil => rfl
  | cons e entries ih =>
    have hrest := ih (fun e' he' => h e' (List.mem_cons_of_mem e he')) (m.insert e.1 e.2)
    simp only [List.length_cons, List.flatMap_cons, List.append_assoc, entries?, List.foldl_cons,
      hw.text (h e List.mem_cons_self), field?_writeField hw, bind, Option.bind_some]
    exact hrest

/-- **The fields**, written in any order, are read back. -/
lemma fields?_writeFields {m : FieldMap} {entries : List (Bytes × Field)}
    (hperm : entries.Perm m.entries) (hkeys : ∀ e ∈ m.entries, e.1.length < 2 ^ 32)
    (hsize : m.size < 2 ^ 32) (rest : Bytes) :
    w.fields? FieldMap.empty (w.writeFields entries ++ rest) = some (m, rest) := by
  have hlength : entries.length < 2 ^ 32 := by
    rw [hperm.length_eq]
    exact hsize
  have hentries :=
    entries?_write hw (fun e he => hkeys e (hperm.mem_iff.1 he)) FieldMap.empty rest
  have hmap : entries.foldl (fun m e => m.insert e.1 e.2) FieldMap.empty = m :=
    FieldMap.ofList_of_perm hperm
  rw [hmap] at hentries
  simp only [fields?, writeFields, List.append_assoc, hw.map hlength, bind, Option.bind_some]
  exact hentries

lemma fields?_writeNil (rest : Bytes) :
    w.fields? FieldMap.empty (w.writeNil ++ rest) = some (FieldMap.empty, rest) := by
  simp only [fields?, hw.absent, bind, Option.bind_some, pure]

lemma buffer?_write {b : Buffer} {fields : Bytes}
    (h : ∀ rest, w.fields? FieldMap.empty (fields ++ rest) = some (b.fields, rest)) (rest : Bytes) :
    w.buffer? Buffer.empty (w.writeMapHeader 2 ++ (w.writeText "size" ++ (w.writeUInt32 b.size ++
      (w.writeText "fields" ++ (fields ++ rest))))) = some (b, rest) := by
  have hother : ¬ ("fields" : Bytes) = "size" := by decide
  refine struct?_pair hw ⟨b.size, FieldMap.empty⟩ (by decide) (by decide) (if_pos rfl)
    ((if_neg hother).trans (if_pos rfl)) (fun rest => ?_) fun rest => ?_
  · rw [uint32?_writeUInt32 hw]
    rfl
  · rw [h]
    rfl

lemma program?_write {p : Program} {buffer : Bytes}
    (h : ∀ rest, w.buffer? Buffer.empty (buffer ++ rest) = some (p.buffer, rest))
    (hshader : p.shader.length < 2 ^ 32) (rest : Bytes) :
    w.program? Program.empty (w.writeMapHeader 2 ++ (w.writeText "buffer" ++ (buffer ++
      (w.writeText "init_shader" ++ (w.writeText p.shader ++ rest))))) = some (p, rest) := by
  have hother : ¬ ("init_shader" : Bytes) = "buffer" := by decide
  refine struct?_pair hw ⟨p.buffer, []⟩ (by decide) (by decide) (if_pos rfl)
    ((if_neg hother).trans (if_pos rfl)) (fun rest => ?_) fun rest => ?_
  · rw [show Program.empty.buffer = Buffer.empty from rfl, h]
    rfl
  · rw [hw.text hshader]
    rfl

/-- **A program in its envelope** is read back when its fields are. -/
lemma envelope?_writeEnvelope {p : Program} {fields : Bytes}
    (h : ∀ rest, w.fields? FieldMap.empty (fields ++ rest) = some (p.buffer.fields, rest))
    (hshader : p.shader.length < 2 ^ 32) (rest : Bytes) :
    w.envelope? (w.writeEnvelope p fields ++ rest) = some (⟨Envelope.version, some p⟩, rest) := by
  -- the envelope around the program, and the program around the buffer
  obtain ⟨buffer, hbuffer⟩ : ∃ buffer, buffer = w.writeMapHeader 2 ++ (w.writeText "size" ++
      (w.writeUInt32 p.buffer.size ++ (w.writeText "fields" ++ fields))) := ⟨_, rfl⟩
  obtain ⟨shader, hprogram⟩ : ∃ shader, shader = w.writeText "buffer" ++ (buffer ++
      (w.writeText "init_shader" ++ w.writeText p.shader)) := ⟨_, rfl⟩
  have hwrite : w.writeEnvelope p fields ++ rest = w.writeMapHeader 2 ++ (w.writeText "schema" ++
      (w.writeUInt16 Envelope.version ++ (w.writeText "program" ++
        ((w.writeMapHeader 2 ++ shader) ++ rest)))) := by
    simp only [writeEnvelope, hprogram, hbuffer, List.append_assoc]
  have hread : ∀ rest, w.optionalProgram? none ((w.writeMapHeader 2 ++ shader) ++ rest) =
      some (some p, rest) := by
    intro rest
    have hpart : ∀ rest, w.buffer? Buffer.empty (buffer ++ rest) = some (p.buffer, rest) := by
      intro rest
      simp only [hbuffer, List.append_assoc]
      exact buffer?_write hw h rest
    have hwhole : w.program? Program.empty (w.writeMapHeader 2 ++ (shader ++ rest)) =
        some (p, rest) := by
      simp only [hprogram, List.append_assoc]
      exact program?_write hw hpart hshader rest
    rw [List.append_assoc, optionalProgram?, hw.present (by decide)]
    simp only [Option.getD_none, hwhole, Option.map_some]
  have hother : ¬ ("program" : Bytes) = "schema" := by decide
  rw [hwrite]
  refine struct?_pair hw ⟨Envelope.version, none⟩ (by decide) (by decide) (if_pos rfl)
    ((if_neg hother).trans (if_pos rfl)) (fun rest => ?_) fun rest => ?_
  · rw [uint16?_writeUInt16 hw]
    rfl
  · rw [hread]
    rfl

end Msgpack.Wire

/-! ### Both formats -/

namespace Program

/-- **Stored programs are read back.** Take an implementation of MessagePack that keeps the laws of
the format. Let the fields of a program pass the check in whatever order they are taken, and let its
keys, their number and its shader be shorter than `2 ^ 32`. Then what is written for it is read as
that program, whatever follows it and in whatever order the check takes the fields: as MessagePack
with its fields in any order, and as JSON if its keys and its shader are well-formed. So both
formats are read as the same program. What is written when there is no map of fields is read as a
program with none. -/
theorem decode_encode (w : Msgpack.Wire) (hw : w.Lawful) (p : Program)
    (hcheck : ∀ order, order.Perm p.buffer.fields.entries →
      Buffer.checkEntries p.buffer.size order = .ok ())
    (hkeys : ∀ e ∈ p.buffer.fields.entries, e.1.length < 2 ^ 32)
    (hsize : p.buffer.fields.size < 2 ^ 32) (hshader : p.shader.length < 2 ^ 32) :
    (∀ o order rest, order.Perm p.buffer.fields.entries →
        decodeBy w o .msgpack (w.writeProgram p order ++ rest) = .ok p) ∧
      ((∀ e ∈ p.buffer.fields.entries, Utf8.isValid e.1 = true) → Utf8.isValid p.shader = true →
        (∀ o rest, decodeBy w o .json (p.encode w .json ++ rest) = .ok p) ∧
        ∀ o o', decodeBy w o .json (p.encode w .json) =
          decodeBy w o' .msgpack (p.encode w .msgpack)) ∧
      (p.buffer.fields = FieldMap.empty →
        (∀ o rest, decodeBy w o .msgpack (p.encodeUnset w .msgpack ++ rest) = .ok p) ∧
        (Utf8.isValid p.shader = true →
          ∀ o rest, decodeBy w o .json (p.encodeUnset w .json ++ rest) = .ok p)) := by
  have hdecode : ∀ {format s} (o : Enumeration),
      envelope? w format s = some ⟨Envelope.version, some p⟩ → decodeBy w o format s = .ok p :=
    fun o h => decodeBy_eq_ok_iff.2 ⟨h, hcheck _ (o.perm _)⟩
  have hmsgpack : ∀ o order rest, order.Perm p.buffer.fields.entries →
      decodeBy w o .msgpack (w.writeProgram p order ++ rest) = .ok p := by
    intro o order rest hperm
    refine hdecode o ?_
    have hfields := Msgpack.Wire.fields?_writeFields hw hperm hkeys hsize
    rw [envelope?, Msgpack.Wire.writeProgram,
      Msgpack.Wire.envelope?_writeEnvelope hw hfields hshader]
    rfl
  have hjson : ∀ {fields : Json} (o : Enumeration) (rest : Bytes), Json.Readable 3 fields →
      Json.intoFields FieldMap.empty fields = some p.buffer.fields →
      Utf8.isValid p.shader = true →
      decodeBy w o .json ((Json.envelopeWith p fields).document ++ rest) = .ok p := by
    intro fields o rest hreadable hfields hvalid
    refine hdecode o ?_
    have hread := Json.read?_document (Json.readable_envelopeWith hreadable hvalid) rest
    simp only [envelope?, hread, bind, Option.bind_some]
    exact Json.intoEnvelope_envelopeWith hfields
  refine ⟨hmsgpack, fun hvalid hshader' => ?_, fun hempty =>
    ⟨fun o rest => ?_, fun hshader' o rest => ?_⟩⟩
  · have hread : ∀ o rest, decodeBy w o .json (p.encode w .json ++ rest) = .ok p := fun o rest =>
      hjson o rest (Json.readable_ofFields hvalid) (Json.intoFields_ofFields _) hshader'
    refine ⟨hread, fun o o' => ?_⟩
    have h1 := hread o []
    have h2 := hmsgpack o' p.buffer.fields.entries [] (List.Perm.refl _)
    rw [List.append_nil] at h1 h2
    exact h1.trans h2.symm
  · refine hdecode o ?_
    have hfields : ∀ rest, w.fields? FieldMap.empty (w.writeNil ++ rest) =
        some (p.buffer.fields, rest) := by
      rw [hempty]
      exact Msgpack.Wire.fields?_writeNil hw
    rw [envelope?, encodeUnset, Msgpack.Wire.envelope?_writeEnvelope hw hfields hshader]
    rfl
  · have hreadable : Json.Readable 3 .null := by simp [Json.Readable]
    exact hjson o rest hreadable (by rw [hempty]; rfl) hshader'

/-- Two fields that fill the largest buffer, one key and the shader full of characters that are
escaped. -/
def brimful : Program where
  buffer := ⟨0xFFFFFFFF, ⟨[("<\"\\\u2028\n😀", ⟨0xFFFFFFFB, 4⟩), ("b:y", ⟨4, 0⟩)], by decide +kernel⟩⟩
  shader := "&\u0001é\r\t"

/-- The fields in reverse order, and bytes that begin no value after the program. -/
theorem decode_encode_brimful :
    decodeBy .standard .byKeyDown .msgpack
        (Msgpack.Wire.standard.writeProgram brimful brimful.buffer.fields.entries.reverse
          ++ [0xC1]) =
        .ok brimful ∧
      decodeBy .standard .byKey .json (brimful.encode .standard .json ++ [0xFF]) = .ok brimful := by
  have hcheck : ∀ order, order.Perm brimful.buffer.fields.entries →
      Buffer.checkEntries brimful.buffer.size order = .ok () := by
    intro order hperm
    obtain ⟨x, y, rfl⟩ := List.length_eq_two.1 (hperm.length_eq.trans rfl)
    have hne : x ≠ y := by
      have hnodup := hperm.nodup_iff.2 (brimful.buffer.fields.nodup_keys.of_map Prod.fst)
      simpa using hnodup
    have hx := hperm.mem_iff.1 (List.mem_cons_self (a := x))
    have hy := hperm.mem_iff.1 (List.mem_cons_of_mem x (List.mem_cons_self (a := y)))
    simp only [brimful, List.mem_cons, List.not_mem_nil, or_false] at hx hy
    rcases hx with rfl | rfl
    · rcases hy with rfl | rfl
      · exact absurd rfl hne
      · cbv
    · rcases hy with rfl | rfl
      · cbv
      · exact absurd rfl hne
  obtain ⟨hmsgpack, hjson, -⟩ := decode_encode .standard Msgpack.Wire.standard_lawful brimful hcheck
    (by decide +kernel) (by decide +kernel) (by decide +kernel)
  refine ⟨hmsgpack _ _ _ (List.reverse_perm _), (hjson ?_ ?_).1 _ _⟩
  · intro e he
    have hall : brimful.buffer.fields.entries.all (fun e => Utf8.isValid e.1) = true := by cbv
    exact List.all_eq_true.1 hall e he
  · cbv

end Program

end StateBuffer
