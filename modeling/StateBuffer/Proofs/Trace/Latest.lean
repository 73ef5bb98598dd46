import Mathlib.Data.List.DropRight
import Mathlib.Tactic.Common
import StateBuffer.Trace.Tracer

/-!
What the ring of a tracer holds. A ring of any size holds the latest values that were pushed,
however often it has gone round. A tracer pushes the events that its level wants and no others, each
under a number above all numbers given before, whatever takes numbers beside the ring.
-/

namespace StateBuffer

namespace Ring

variable {α : Type}

lemma toList_of_filling {r : Ring α} (h : r.full = false) :
    r.toList = r.slots.toList.take r.head := by
  rw [toList, if_neg (by simp [h])]

lemma toList_of_full {r : Ring α} (h : r.full = true) :
    r.toList = r.slots.toList.drop r.head ++ r.slots.toList.take r.head := by
  rw [toList, if_pos h]

@[simp] lemma toList_blank (capacity : Nat) (b : α) (h : 0 < capacity) :
    (blank capacity b h).toList = [] := rfl

@[simp] lemma size_slots_push (r : Ring α) (a : α) : (r.push a).slots.size = r.slots.size := by
  simp [push]

lemma exists_slots_eq (r : Ring α) : ∃ before x after,
    r.slots.toList = before ++ x :: after ∧ before.length = r.head ∧
      r.slots.size = before.length + after.length + 1 ∧
      ∀ a, (r.push a).slots.toList = before ++ a :: after := by
  obtain ⟨⟨slots⟩, head, full, inside⟩ := r
  have hinside : head < slots.length := inside
  have hsplit : slots = slots.take head ++ slots[head] :: slots.drop (head + 1) := by
    rw [← List.drop_eq_getElem_cons hinside, List.take_append_drop]
  refine ⟨slots.take head, slots[head], slots.drop (head + 1), hsplit, ?_, ?_, fun a => ?_⟩
  · exact List.length_take_of_le hinside.le
  · simp only [List.size_toArray, List.length_take, List.length_drop]
    omega
  · simp only [push, List.set_toArray]
    rw [List.set_eq_take_append_cons_drop, if_pos hinside]

lemma head_push (r : Ring α) (a : α) :
    (r.head + 1 < r.slots.size ∧ (r.push a).head = r.head + 1 ∧ (r.push a).full = r.full) ∨
      (r.head + 1 = r.slots.size ∧ (r.push a).head = 0 ∧ (r.push a).full = true) := by
  have hinside := r.inside
  rcases Nat.lt_or_ge (r.head + 1) r.slots.size with hlt | hge
  · exact .inl ⟨hlt, by simp [push, Nat.mod_eq_of_lt hlt], by simp [push, Nat.mod_eq_of_lt hlt]⟩
  · have hend : r.head + 1 = r.slots.size := by omega
    exact .inr ⟨hend, by simp [push, hend], by simp [push, hend]⟩

lemma toList_push_of_filling {r : Ring α} (h : r.full = false) (a : α) :
    (r.push a).toList = r.toList ++ [a] := by
  obtain ⟨before, x, after, hslots, hhead, hsize, hpush⟩ := r.exists_slots_eq
  rw [toList_of_filling h, hslots, ← hhead, List.take_left]
  rcases r.head_push a with ⟨-, hnext, hsame⟩ | ⟨hend, hnext, hfull⟩
  · rw [toList_of_filling (hsame.trans h), hnext, hpush, ← hhead, List.take_length_add_append]
    rfl
  · have hlast : after = [] := List.length_eq_zero_iff.1 (by omega)
    rw [toList_of_full hfull, hnext, hpush, hlast, List.drop_zero, List.take_zero, List.append_nil]

/-- In a full ring the new value takes the place of the oldest. -/
lemma toList_push_of_full {r : Ring α} (h : r.full = true) (a : α) :
    (r.push a).toList = (r.toList ++ [a]).drop 1 := by
  obtain ⟨before, x, after, hslots, hhead, hsize, hpush⟩ := r.exists_slots_eq
  rw [toList_of_full h, hslots, ← hhead, List.drop_left, List.take_left]
  rcases r.head_push a with ⟨-, hnext, hsame⟩ | ⟨hend, hnext, hfull⟩
  · rw [toList_of_full (hsame.trans h), hnext, hpush, ← hhead, List.take_length_add_append,
      List.drop_length_add_append]
    simp
  · have hlast : after = [] := List.length_eq_zero_iff.1 (by omega)
    rw [toList_of_full hfull, hnext, hpush, hlast, List.drop_zero, List.take_zero, List.append_nil]
    rfl

lemma length_toList_of_full {r : Ring α} (h : r.full = true) :
    r.toList.length = r.slots.size := by
  have hinside := r.inside
  rw [toList_of_full h, List.length_append, List.length_drop, List.length_take,
    Array.length_toList]
  omega

/-- **One value more**: the ring holds the latest values, as many as it has slots. -/
lemma toList_push (r : Ring α) (a : α) :
    (r.push a).toList = (r.toList ++ [a]).rtake r.slots.size := by
  have hinside := r.inside
  cases h : r.full with
  | false =>
    have hall : (r.toList ++ [a]).length - r.slots.size = 0 := by
      rw [toList_of_filling h, List.length_append, List.length_take, List.length_singleton]
      omega
    rw [toList_push_of_filling h, List.rtake, hall, List.drop_zero]
  | true =>
    have hone : (r.toList ++ [a]).length - r.slots.size = 1 := by
      rw [List.length_append, length_toList_of_full h, List.length_singleton]
      omega
    rw [toList_push_of_full h, List.rtake, hone]

/-- The latest values after some more do not depend on those that were given up before. -/
lemma rtake_rtake_append (n : Nat) (l m : List α) :
    (l.rtake n ++ m).rtake n = (l ++ m).rtake n := by
  simp only [List.rtake, List.drop_append, List.drop_drop, List.length_append, List.length_drop]
  congr 2
  · omega
  · omega

end Ring

namespace Trace

lemma Config.size_slots_ring (size : Int) :
    (Config.ring size).slots.size = if size ≤ 0 then 4096 else size.toNat := by
  by_cases h : size ≤ 0
  · simp [Config.ring, h, Ring.blank, Config.defaultRingSize]
  · simp [Config.ring, h, Ring.blank]

@[simp] lemma Config.toList_ring (size : Int) : (Config.ring size).toList = [] := by
  by_cases h : size ≤ 0
  · simp [Config.ring, h]
  · simp [Config.ring, h]

def Event.numbered (n : Nat) (e : Event) : Event := { e with number := n }

/-- An event that is emitted after `taken` numbers were given to other sinks than the ring. -/
structure Emission where
  taken : Nat
  event : Event

namespace Tracer

def receive (t : Tracer) (m : Emission) : Tracer :=
  { t with numbers := t.numbers + m.taken }.emit m.event

/-- The ring of a tracer holds the latest of the events `past`, under the numbers `given` to all of
them, which ascend from the count `first` to the count of the tracer. -/
structure Holds (capacity first : Nat) (past : List Event) (given : List Nat) (t : Tracer) :
    Prop where
  ring : ∃ r, t.ring = some r ∧ r.slots.size = capacity ∧
    r.toList = (List.zipWith (fun n e => ⟨e.numbered n, Option.none⟩) given past).rtake capacity
  length : given.length = past.length
  ascending : (first :: given).Pairwise (· < ·)
  below : ∀ n ∈ first :: given, n ≤ t.numbers

lemma emit_of_unwanted {t : Tracer} {e : Event} (h : t.admits e = false) : t.emit e = t := by
  simp [emit, emitOwned, h]

/-- A wanted event is pushed under a number above the count so far: the next one, or the one behind
it if the stream took the next one. -/
lemma emit_of_wanted {t : Tracer} {e : Event} {r : Ring Kept} (h : t.admits e = true)
    (hr : t.ring = some r) :
    ∃ n, t.numbers < n ∧ (t.emit e).numbers = n ∧ (t.emit e).level = t.level ∧
      (t.emit e).ring = some (r.push ⟨e.numbered n, Option.none⟩) := by
  rcases hs : t.stream with _ | ⟨format, outlet⟩
  · have he : t.emit e = { t with
        ring := some (r.push ⟨e.numbered (t.numbers + 1), Option.none⟩)
        numbers := t.numbers + 1 } := by
      simp [emit, emitOwned, h, emitStream, hs, emitRing, hr, Event.numbered]
    exact ⟨t.numbers + 1, by omega, by rw [he], by rw [he], by rw [he]⟩
  · have he : t.emit e = { t with
        stream := some (format, outlet.write ((e.numbered (t.numbers + 1)).render format))
        ring := some (r.push ⟨e.numbered (t.numbers + 1 + 1), Option.none⟩)
        numbers := t.numbers + 1 + 1 } := by
      simp [emit, emitOwned, h, emitStream, hs, emitRing, hr, Event.numbered]
    exact ⟨t.numbers + 1 + 1, by omega, by rw [he], by rw [he], by rw [he]⟩

/-- **One emission**: a wanted event is held with the others, under a number above theirs. -/
lemma Holds.receive {capacity first : Nat} {past : List Event} {given : List Nat} {t : Tracer}
    (h : t.Holds capacity first past given) (m : Emission) :
    (t.receive m).level = t.level ∧
      ∃ given', (t.receive m).Holds capacity first (past ++ [m.event].filter t.admits) given' := by
  obtain ⟨⟨r, hr, rfl, hlist⟩, hlength, hascending, hbelow⟩ := h
  have hbelow' : ∀ n ∈ first :: given, n ≤ t.numbers + m.taken :=
    fun n hn => Nat.le_add_right_of_le (hbelow n hn)
  cases hw : t.admits m.event with
  | false =>
    have he : t.receive m = { t with numbers := t.numbers + m.taken } := emit_of_unwanted hw
    rw [he]
    refine ⟨rfl, given, ⟨r, hr, rfl, ?_⟩, ?_, hascending, hbelow'⟩
    · simpa [hw] using hlist
    · simpa [hw] using hlength
  | true =>
    obtain ⟨n, hlt, hnumbers, hlevel, hring⟩ :=
      emit_of_wanted (t := { t with numbers := t.numbers + m.taken }) hw hr
    refine ⟨hlevel, given ++ [n], ⟨_, hring, Ring.size_slots_push _ _, ?_⟩, ?_, ?_, ?_⟩
    · rw [Ring.toList_push, hlist, Ring.rtake_rtake_append, List.filter_cons_of_pos hw,
        List.filter_nil, List.zipWith_append hlength]
      rfl
    · simp [hw, hlength]
    · rw [← List.cons_append, List.pairwise_append]
      refine ⟨hascending, List.pairwise_singleton _ _, fun k hk k' hk' => ?_⟩
      obtain rfl := List.mem_singleton.1 hk'
      exact Nat.lt_of_le_of_lt (hbelow' k hk) hlt
    · rw [← List.cons_append]
      intro k hk
      rw [Tracer.receive, hnumbers]
      rcases List.mem_append.1 hk with hk | hk
      · exact Nat.le_of_lt (Nat.lt_of_le_of_lt (hbelow' k hk) hlt)
      · exact Nat.le_of_eq (List.mem_singleton.1 hk)

/-- **A run**: after any emissions the ring holds the latest of the wanted events. -/
lemma Holds.foldl_receive {capacity first : Nat} (ms : List Emission) {past : List Event}
    {given : List Nat} {t : Tracer} (h : t.Holds capacity first past given) :
    (ms.foldl Tracer.receive t).level = t.level ∧
      ∃ given', (ms.foldl Tracer.receive t).Holds capacity first
        (past ++ (ms.map Emission.event).filter t.admits) given' := by
  induction ms generalizing past given t with
  | nil => exact ⟨rfl, given, by simpa using h⟩
  | cons m ms ih =>
    obtain ⟨hlevel, given', hheld⟩ := h.receive m
    have hsame : (t.receive m).admits = t.admits := by
      funext e
      rw [admits, admits, hlevel]
    obtain ⟨hrest, given'', hrun⟩ := ih hheld
    refine ⟨hrest.trans hlevel, given'', ?_⟩
    rw [hsame, List.append_assoc, ← List.filter_append] at hrun
    exact hrun

lemma Holds.snapshot {capacity first : Nat} {past : List Event} {given : List Nat} {t : Tracer}
    (h : t.Holds capacity first past given) :
    t.snapshot = some ((List.zipWith Event.numbered given past).rtake capacity) := by
  obtain ⟨r, hr, -, hlist⟩ := h.ring
  rw [Tracer.snapshot, hr, Option.map_some, hlist, List.rtake, List.rtake, List.map_drop,
    List.map_zipWith, List.length_zipWith, List.length_zipWith]

/-- **The ring keeps the latest events.** Take a tracer whose ring was just made, of any size (4096
if the size is not positive) and at any level, with or without a stream beside it, and any sequence
of emissions, between which any numbers are given elsewhere. An event is wanted if its depth passes
the level or it is a heartbeat. A snapshot shows the latest wanted events, the oldest first, as many
as there were or as fit in, each as it was emitted and under a number of its own; these numbers
ascend strictly. An event that is not wanted changes nothing. -/
theorem snapshot_latest (capacity : Int) (level : Level) (stream : Option (Format × Outlet))
    (numbers spans : Nat) (now : Instant) (ms : List Emission) :
    let t := ms.foldl receive ⟨level, stream, some (Config.ring capacity), numbers, spans, now⟩
    let wanted (e : Event) : Bool := level.admits e.scope || e.kind = .heartbeat
    let events := (ms.map Emission.event).filter wanted
    let shown := min (if capacity ≤ 0 then 4096 else capacity.toNat) events.length
    (∃ given : List Nat, given.length = shown ∧ (numbers :: given).Pairwise (· < ·) ∧
      t.snapshot = some (List.zipWith Event.numbered given
        (events.drop (events.length - shown)))) ∧
    ∀ e, wanted e = false → t.emit e = t := by
  intro t wanted events shown
  let size := if capacity ≤ 0 then 4096 else capacity.toNat
  have hstart : (⟨level, stream, some (Config.ring capacity), numbers, spans, now⟩ : Tracer).Holds
      size numbers [] [] :=
    ⟨⟨_, rfl, Config.size_slots_ring capacity, by simp⟩, rfl, List.pairwise_singleton _ _, by simp⟩
  obtain ⟨hlevel, given, hheld⟩ := hstart.foldl_receive ms
  have hlevel : t.level = level := hlevel
  have hheld : t.Holds size numbers events given := hheld
  have hshown : events.length - size = events.length - shown := by omega
  refine ⟨⟨given.drop (events.length - shown), ?_, ?_, ?_⟩, fun e he => ?_⟩
  · rw [List.length_drop, hheld.length]
    omega
  · exact hheld.ascending.sublist ((List.drop_sublist _ _).cons_cons _)
  · rw [hheld.snapshot, List.rtake, List.length_zipWith, hheld.length, Nat.min_self, hshown,
      List.drop_zipWith]
  · exact emit_of_unwanted (by rw [admits, hlevel]; exact he)

def beat (span : SpanId) : Event := { (default : Event) with kind := .heartbeat, span }

/-- A ring of two at a level that wants heartbeats only, with a stream beside it, after three of
them and an event of the build. -/
def gone : Tracer :=
  [⟨0, beat 1⟩, ⟨0, { beat 2 with kind := .point }⟩, ⟨5, beat 3⟩, ⟨0, beat 4⟩].foldl receive
    ⟨.off, some (.text, .empty), some (Config.ring 2), 7, 0, 0⟩

/-- The first heartbeat is gone, the other two are there. -/
theorem snapshot_latest_gone :
    (∃ m n, 7 < m ∧ m < n ∧ gone.snapshot = some [(beat 3).numbered m, (beat 4).numbered n]) ∧
      (Level.off.admits Scope.build || Kind.point = .heartbeat) = false ∧
      gone.emit { beat 5 with kind := .point, scope := .build } = gone := by
  obtain ⟨⟨given, hlength, hascending, hshown⟩, hunwanted⟩ :=
    snapshot_latest 2 .off (some (.text, .empty)) 7 0 0
      [⟨0, beat 1⟩, ⟨0, { beat 2 with kind := .point }⟩, ⟨5, beat 3⟩, ⟨0, beat 4⟩]
  obtain ⟨m, n, rfl⟩ : ∃ m n, given = [m, n] := List.length_eq_two.1 hlength
  simp only [List.pairwise_cons, List.mem_cons, List.not_mem_nil, or_false, forall_eq_or_imp,
    forall_eq] at hascending
  exact ⟨⟨m, n, hascending.1.1, hascending.2.1, hshown⟩, rfl, hunwanted _ rfl⟩

end Tracer

end Trace

end StateBuffer
