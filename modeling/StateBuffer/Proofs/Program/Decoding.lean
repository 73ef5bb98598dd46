import StateBuffer.Proofs.Program.Layout

/-!
Decoding with the fields taken in any order. A stored program is read the same way every time, but
the order in which the check takes its fields is not part of what is stored. The verdict is always
the same unless the layout is open; then the program is accepted in one order and refused in
another.
-/

namespace StateBuffer

/-- An order in which the fields of each map are taken. -/
structure Enumeration where
  order : FieldMap → List (Bytes × Field)
  perm : ∀ m, (order m).Perm m.entries

namespace Enumeration

/-- Fields in ascending order of their keys. -/
def byKey : Enumeration := ⟨FieldMap.entries, fun _ => .refl _⟩

/-- Fields in descending order of their keys. -/
def byKeyDown : Enumeration := ⟨fun m => m.entries.reverse, fun m => List.reverse_perm m.entries⟩

/-- The fields of one map in a given order. -/
def taking (m : FieldMap) {order : List (Bytes × Field)} (h : order.Perm m.entries) :
    Enumeration where
  order m' := if m' = m then order else m'.entries
  perm m' := by
    split_ifs with hm
    · rw [hm]
      exact h
    · exact .refl _

@[simp] lemma order_taking (m : FieldMap) {order : List (Bytes × Field)}
    (h : order.Perm m.entries) : (taking m h).order m = order :=
  if_pos rfl

end Enumeration

/-- The program of an envelope that is as it should be, its fields being taken in some order. -/
def Envelope.contentsBy (o : Enumeration) (e : Envelope) : Except ProgramFault Program :=
  if e.schema ≠ version then .error (.otherVersion e.schema)
  else match e.program with
    | none => .error .noProgram
    | some p => match Buffer.checkEntries p.buffer.size (o.order p.buffer.fields) with
      | .ok _ => .ok p
      | .error fault => .error (.layout fault)

namespace Program

/-- The program at the start of a text, its fields being taken in some order. -/
def decodeBy (w : Msgpack.Wire) (o : Enumeration) (format : Format) (s : Bytes) :
    Except ProgramFault Program :=
  match envelope? w format s with
  | none => .error .undecodable
  | some e => e.contentsBy o

lemma decodeBy_byKey (w : Msgpack.Wire) (format : Format) (s : Bytes) :
    decodeBy w .byKey format s = decode w format s :=
  rfl

/-- **A program is decoded** if it is read with the right version and its layout is accepted. -/
lemma decodeBy_eq_ok_iff {w : Msgpack.Wire} {o : Enumeration} {format : Format} {s : Bytes}
    {p : Program} : decodeBy w o format s = .ok p ↔
      envelope? w format s = some ⟨Envelope.version, some p⟩ ∧
      Buffer.checkEntries p.buffer.size (o.order p.buffer.fields) = .ok () := by
  constructor
  · intro h
    unfold decodeBy at h
    split at h
    · exact absurd h nofun
    · rename_i e he
      obtain ⟨schema, program⟩ := e
      simp only [Envelope.contentsBy] at h
      split_ifs at h with hschema
      cases program with
      | none => exact absurd h nofun
      | some q =>
        cases hcheck : Buffer.checkEntries q.buffer.size (o.order q.buffer.fields) with
        | error fault => simp [hcheck] at h
        | ok _ =>
          simp only [hcheck, Except.ok.injEq] at h
          subst h
          exact ⟨by rw [he, not_not.1 hschema], hcheck⟩
  · rintro ⟨hread, hcheck⟩
    simp [decodeBy, hread, Envelope.contentsBy, hcheck]

/-- **Verdicts are reproducible** unless a layout is open, and only then. The layout check gives a
buffer the same verdict in any two orders of its fields exactly if the buffer is not open: its
fields do not fit, or two of them are not apart, or no empty field begins where one that is not
empty does. And decoding a text twice, whatever orders the fields are taken in, gives the same
verdict exactly if the buffer that is read from it is not open. -/
theorem decodeBy_agree_iff (w : Msgpack.Wire) (b : Buffer) (format : Format) (s : Bytes) :
    ((∀ order order', order.Perm b.fields.entries → order'.Perm b.fields.entries →
        (Buffer.checkEntries b.size order = .ok () ↔
          Buffer.checkEntries b.size order' = .ok ())) ↔ ¬ b.IsOpen) ∧
      ((∀ o o', (∃ p, decodeBy w o format s = .ok p) ↔ ∃ p, decodeBy w o' format s = .ok p) ↔
        ∀ p, envelope? w format s = some ⟨Envelope.version, some p⟩ → ¬ p.buffer.IsOpen) := by
  refine ⟨b.agree_iff_not_isOpen, fun hagree p hread => ?_, fun hopen => ?_⟩
  · have hchecked : ∀ o, (∃ q, decodeBy w o format s = .ok q) ↔
        Buffer.checkEntries p.buffer.size (o.order p.buffer.fields) = .ok () := by
      intro o
      simp only [decodeBy_eq_ok_iff, hread, Option.some.injEq, Envelope.mk.injEq, true_and]
      exact ⟨fun ⟨q, hq, hcheck⟩ => hq ▸ hcheck, fun hcheck => ⟨p, rfl, hcheck⟩⟩
    refine (Buffer.agree_iff_not_isOpen p.buffer).1 fun order order' h h' => ?_
    have hpair := hagree (.taking p.buffer.fields h) (.taking p.buffer.fields h')
    rw [hchecked, hchecked, Enumeration.order_taking, Enumeration.order_taking] at hpair
    exact hpair
  · have hsame : ∀ {o} o', (∃ p, decodeBy w o format s = .ok p) →
        ∃ p, decodeBy w o' format s = .ok p := by
      rintro o o' ⟨p, hp⟩
      obtain ⟨hread, hcheck⟩ := decodeBy_eq_ok_iff.1 hp
      exact ⟨p, decodeBy_eq_ok_iff.2 ⟨hread,
        Buffer.accepts_of_not_isOpen (hopen p hread) (o.perm _) (o'.perm _) hcheck⟩⟩
    exact fun o o' => ⟨hsame o', hsame o⟩

/-- An empty field that begins where another one does. -/
def pinched : Program := ⟨⟨8, ⟨[("m:a", ⟨4, 4⟩), ("m:b", ⟨0, 4⟩)], by decide +kernel⟩⟩, []⟩

/-- It is refused when its fields are taken by their keys, and accepted in the other order. -/
theorem decodeBy_pinched :
    decodeBy .standard .byKey .msgpack (pinched.encode .standard .msgpack) =
        .error (.layout (.overlap "m:b")) ∧
      decodeBy .standard .byKeyDown .msgpack (pinched.encode .standard .msgpack) = .ok pinched ∧
      Buffer.checkEntries pinched.buffer.size pinched.buffer.fields.entries ≠ .ok () ∧
      Buffer.checkEntries pinched.buffer.size pinched.buffer.fields.entries.reverse = .ok () := by
  have hread : envelope? .standard .msgpack (pinched.encode .standard .msgpack) =
      some ⟨Envelope.version, some pinched⟩ := by
    decide +kernel
  have hrefused : Buffer.checkEntries pinched.buffer.size pinched.buffer.fields.entries =
      .error (.overlap "m:b") := by cbv
  have haccepted : Buffer.checkEntries pinched.buffer.size pinched.buffer.fields.entries.reverse =
      .ok () := by cbv
  refine ⟨?_, decodeBy_eq_ok_iff.2 ⟨hread, haccepted⟩, ?_, haccepted⟩
  · simp only [decodeBy, hread, Envelope.contentsBy, Enumeration.byKey, hrefused]
    rfl
  · simp [hrefused]

end Program

end StateBuffer
