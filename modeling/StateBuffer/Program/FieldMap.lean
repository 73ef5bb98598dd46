import StateBuffer.Text.Bytes

/-!
The fields of a state buffer by key. Entries are kept in ascending order of their keys, so two maps
with the same fields are the same.
-/

namespace StateBuffer

/-- The place of a field in the buffer, in bytes. -/
structure Field where
  size : UInt32
  offset : UInt32
  deriving DecidableEq, Repr, Inhabited

/-- Fields by key, in ascending order of the keys. -/
structure FieldMap where
  entries : List (Bytes × Field)
  sorted : entries.Pairwise fun a b => a.1 < b.1

namespace FieldMap

instance : DecidableEq FieldMap := fun a b =>
  decidable_of_iff (a.entries = b.entries)
    ⟨fun h => by cases a; cases b; cases h; rfl, fun h => h ▸ rfl⟩

def empty : FieldMap := ⟨[], .nil⟩

instance : Inhabited FieldMap := ⟨empty⟩

/-- Puts a field in its place among entries, or replaces the one with its key. -/
def insertEntry (key : Bytes) (field : Field) : List (Bytes × Field) → List (Bytes × Field)
  | [] => [(key, field)]
  | entry :: rest =>
    if key < entry.1 then (key, field) :: entry :: rest
    else if key = entry.1 then (key, field) :: rest
    else entry :: insertEntry key field rest

theorem mem_insertEntry {key : Bytes} {field : Field} {entries : List (Bytes × Field)}
    {e : Bytes × Field} (h : e ∈ insertEntry key field entries) :
    e = (key, field) ∨ e ∈ entries := by
  induction entries with
  | nil => simpa [insertEntry] using h
  | cons entry rest ih =>
    simp only [insertEntry] at h
    split at h
    · simpa using h
    · split at h
      · rcases List.mem_cons.1 h with h | h
        · exact .inl h
        · exact .inr (List.mem_cons_of_mem _ h)
      · rcases List.mem_cons.1 h with h | h
        · exact .inr (h ▸ List.mem_cons_self)
        · rcases ih h with h | h
          · exact .inl h
          · exact .inr (List.mem_cons_of_mem _ h)

theorem sorted_insertEntry (key : Bytes) (field : Field) {entries : List (Bytes × Field)}
    (h : entries.Pairwise fun a b => a.1 < b.1) :
    (insertEntry key field entries).Pairwise fun a b => a.1 < b.1 := by
  induction entries with
  | nil => simp [insertEntry]
  | cons entry rest ih =>
    obtain ⟨first, tail⟩ := List.pairwise_cons.1 h
    simp only [insertEntry]
    split
    · rename_i less
      refine List.pairwise_cons.2 ⟨fun e he => ?_, h⟩
      rcases List.mem_cons.1 he with rfl | he
      · exact less
      · exact List.lt_trans less (first e he)
    · rename_i notLess
      split
      · rename_i same
        exact List.pairwise_cons.2 ⟨fun e he => same ▸ first e he, tail⟩
      · rename_i different
        refine List.pairwise_cons.2 ⟨fun e he => ?_, ih tail⟩
        rcases mem_insertEntry he with rfl | he
        · rcases List.le_iff_lt_or_eq.1 (List.not_lt.1 notLess) with less | same
          · exact less
          · exact absurd same.symm different
        · exact first e he

/-- The map with one more field; a field with the same key is replaced. -/
def insert (m : FieldMap) (key : Bytes) (field : Field) : FieldMap :=
  ⟨insertEntry key field m.entries, sorted_insertEntry key field m.sorted⟩

def get? (m : FieldMap) (key : Bytes) : Option Field :=
  (m.entries.find? fun e => e.1 = key).map Prod.snd

def size (m : FieldMap) : Nat := m.entries.length

def ofList (entries : List (Bytes × Field)) : FieldMap :=
  entries.foldl (fun m e => m.insert e.1 e.2) empty

end FieldMap

end StateBuffer
