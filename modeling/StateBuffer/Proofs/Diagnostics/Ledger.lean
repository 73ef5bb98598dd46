import Mathlib.Data.List.Induction
import Mathlib.Logic.Function.Basic
import StateBuffer.Proofs.Diagnostics
import StateBuffer.Proofs.Source.Order

/-!
What several bags of diagnostics account for. Bags are given diagnostics, merged into one another
and sorted, in any order. A ledger beside them lists what each bag was ever given. Whatever the
limits, a bag counts every diagnostic of its ledger, kept or not, and those that it keeps and that
sorting does not tell apart stand in the order of the ledger.
-/

namespace StateBuffer

namespace Bag

/-! ### The order of diagnostics -/

/-- May `d` stand in front of `e`: an earlier place, or the same place and no less severe? -/
def Precedes (d e : Diagnostic) : Prop :=
  d.span.before e.span = true ∨ d.span = e.span ∧ e.severity.level ≤ d.severity.level

lemma ordered_iff (d e : Diagnostic) : ordered d e = true ↔ Precedes d e := by
  rw [ordered, Precedes, Span.before, decide_eq_true_iff]
  cases ho : d.span.order e.span with
  | lt => simp
  | eq => simp [Span.eq_of_order ho]
  | gt =>
    have hne : d.span ≠ e.span := by
      intro he
      have hself := Span.order_swap d.span e.span
      rw [he] at ho hself
      rw [ho] at hself
      exact absurd hself (by decide)
    simp [hne]

lemma precedes_trans {d e f : Diagnostic} (h : Precedes d e) (h' : Precedes e f) :
    Precedes d f := by
  rcases h with h | ⟨hspan, hlevel⟩
  · rcases h' with h' | ⟨hspan', -⟩
    · exact .inl (Span.before_trans h h')
    · exact .inl (hspan' ▸ h)
  · rcases h' with h' | ⟨hspan', hlevel'⟩
    · exact .inl (hspan ▸ h')
    · exact .inr ⟨hspan.trans hspan', Nat.le_trans hlevel' hlevel⟩

lemma precedes_total (d e : Diagnostic) : Precedes d e ∨ Precedes e d := by
  by_cases hspan : d.span = e.span
  · rcases Nat.le_total e.severity.level d.severity.level with h | h
    · exact .inl (.inr ⟨hspan, h⟩)
    · exact .inr (.inr ⟨hspan.symm, h⟩)
  · cases hbefore : e.span.before d.span with
    | true => exact .inr (.inl hbefore)
    | false => exact .inl (.inl (Span.before_of_not hbefore hspan))

/-- Are two diagnostics at one place and of one severity? -/
def tied (d e : Diagnostic) : Bool := e.span = d.span && e.severity = d.severity

/-- **Sorting** permutes what is kept into the order of diagnostics, and ties stay in place. -/
lemma sort_spec (b : Bag) :
    b.sort.items.Perm b.items ∧ b.sort.items.Pairwise Precedes ∧
      ∀ d, b.sort.items.filter (tied d) = b.items.filter (tied d) := by
  have htrans : ∀ d e f, ordered d e = true → ordered e f = true → ordered d f = true := by
    intro d e f h h'
    rw [ordered_iff] at h h' ⊢
    exact precedes_trans h h'
  have htotal : ∀ d e, (ordered d e || ordered e d) = true := by
    intro d e
    rw [Bool.or_eq_true, ordered_iff, ordered_iff]
    exact precedes_total d e
  have hperm : b.sort.items.Perm b.items := List.mergeSort_perm _ _
  refine ⟨hperm, ?_, fun d => ?_⟩
  · exact (List.pairwise_mergeSort htrans htotal b.items).imp fun h => (ordered_iff _ _).1 h
  · have hties : (b.items.filter (tied d)).Pairwise fun e f => ordered e f = true := by
      refine List.pairwise_of_forall_mem_list fun e he f hf => (ordered_iff e f).2 ?_
      have he := (List.mem_filter.1 he).2
      have hf := (List.mem_filter.1 hf).2
      simp only [tied, Bool.and_eq_true, decide_eq_true_eq] at he hf
      exact .inr ⟨he.1.trans hf.1.symm, by rw [he.2, hf.2]⟩
    have hsub : ((b.items.filter (tied d)).filter (tied d)).Sublist (b.sort.items.filter (tied d)) :=
      (List.sublist_mergeSort htrans htotal hties List.filter_sublist).filter _
    rw [List.filter_filter] at hsub
    simp only [Bool.and_self] at hsub
    exact (hsub.eq_of_length (hperm.filter _).length_eq.symm).symm

/-! ### Bags and their ledger -/

/-- What is done to bags, which are told apart by numbers. -/
inductive Act where
  | add (i : Nat) (d : Diagnostic)
  | merge (i j : Nat)
  | sort (i : Nat)

def act (bags : Nat → Bag) : Act → Nat → Bag
  | .add i d => Function.update bags i ((bags i).add d)
  | .merge i j => Function.update bags i ((bags i).merge (bags j))
  | .sort i => Function.update bags i (bags i).sort

/-- What each bag was ever given, after an act: a diagnostic, or all that the other bag was given up
to then. -/
def record (given : Nat → List Diagnostic) : Act → Nat → List Diagnostic
  | .add i d => Function.update given i (given i ++ [d])
  | .merge i j => Function.update given i (given i ++ given j)
  | .sort _ => given

/-- The bag `b` accounts for all of `given`: they are counted by severity, kept or left out, and
what is kept of those tied with one another stands in the order in which it was given. -/
structure Accounts (b : Bag) (given : List Diagnostic) : Prop where
  count : ∀ s, b.count s = given.countP fun d => d.severity = s
  total : b.size + b.dropped = given.length
  ties : ∀ d, (b.items.filter (tied d)).Sublist (given.filter (tied d))

/-- Is this one of the severities that have a name? -/
def Named (s : Severity) : Prop := s = .info ∨ s = .warning ∨ s = .error

lemma accounts_empty (limit : Int) : Accounts (empty limit) [] where
  count s := by cases s <;> rfl
  total := rfl
  ties _ := List.Sublist.refl _

lemma droppedOf_items (b : Bag) (items : List Diagnostic) (s : Severity) :
    { b with items }.droppedOf s = b.droppedOf s := by
  cases s <;> rfl

lemma add_of_room {b : Bag} (h : b.isFull = false) (d : Diagnostic) :
    b.add d = { b with items := b.items ++ [d] } := by
  simp [add, h]

lemma add_of_full {b : Bag} (h : b.isFull = true) {d : Diagnostic} (hd : Named d.severity) :
    (b.add d).items = b.items ∧ (b.add d).dropped = b.dropped + 1 ∧
      ∀ s, (b.add d).droppedOf s = b.droppedOf s + if d.severity = s then 1 else 0 := by
  refine ⟨(isFull_add h d).2, ?_, fun s => ?_⟩
  · rcases hd with hd | hd | hd <;> simp [add, h, hd, dropped] <;> omega
  · rcases hd with hd | hd | hd <;> cases s <;> simp [add, h, hd, droppedOf]

lemma Accounts.add {b : Bag} {given : List Diagnostic} (h : Accounts b given) {d : Diagnostic}
    (hd : Named d.severity) : Accounts (b.add d) (given ++ [d]) := by
  cases hfull : b.isFull with
  | true =>
    obtain ⟨hitems, hdropped, hdroppedOf⟩ := add_of_full hfull hd
    constructor
    · intro s
      rw [Bag.count, hitems, hdroppedOf, ← Nat.add_assoc, ← Bag.count, h.count,
        List.countP_append, List.countP_singleton]
      simp
    · rw [size, hitems, ← size, hdropped, ← Nat.add_assoc, h.total, List.length_append,
        List.length_singleton]
    · intro e
      rw [hitems, List.filter_append]
      exact (h.ties e).trans (List.sublist_append_left _ _)
  | false =>
    rw [add_of_room hfull]
    constructor
    · intro s
      rw [List.countP_append, List.countP_singleton, ← h.count, Bag.count, Bag.count,
        List.filter_append, List.length_append, droppedOf_items, Nat.add_right_comm,
        ← List.countP_eq_length_filter (l := [d]), List.countP_singleton]
    · have htotal := h.total
      simp only [size, dropped, List.length_append, List.length_singleton] at htotal ⊢
      omega
    · intro e
      rw [List.filter_append, List.filter_append]
      exact (h.ties e).append (List.Sublist.refl _)

lemma Accounts.merge {b other : Bag} {given given' : List Diagnostic} (h : Accounts b given)
    (h' : Accounts other given') : Accounts (b.merge other) (given ++ given') where
  count s := by
    rw [List.countP_append, ← h.count, ← h'.count]
    cases s <;> simp only [Bag.merge, Bag.count, droppedOf, List.filter_append, List.length_append] <;>
      omega
  total := by
    rw [List.length_append, ← h.total, ← h'.total]
    simp only [Bag.merge, size, dropped, List.length_append]
    omega
  ties d := by
    rw [Bag.merge, List.filter_append, List.filter_append]
    exact (h.ties d).append (h'.ties d)

lemma Accounts.sort {b : Bag} {given : List Diagnostic} (h : Accounts b given) :
    Accounts b.sort given := by
  obtain ⟨hperm, -, hties⟩ := sort_spec b
  constructor
  · intro s
    rw [← h.count s, Bag.count, Bag.count, (hperm.filter _).length_eq]
    rfl
  · rw [← h.total, size, size, hperm.length_eq]
    rfl
  · intro d
    rw [hties]
    exact h.ties d

/-! ### Any sequence of acts -/

/-- The bags after some acts, made empty with the limits of each. -/
def after (limits : Nat → Int) (acts : List Act) : Nat → Bag :=
  acts.foldl act fun i => empty (limits i)

def givenBy (acts : List Act) : Nat → List Diagnostic := acts.foldl record fun _ => []

/-- **One act**: bags that account for what they were given still do. -/
lemma accounts_act {bags : Nat → Bag} {given : Nat → List Diagnostic}
    (h : ∀ i, Accounts (bags i) (given i)) {a : Act} (ha : ∀ i d, a = .add i d → Named d.severity)
    (i : Nat) : Accounts (act bags a i) (record given a i) := by
  cases a with
  | add j d =>
    rcases eq_or_ne i j with rfl | hne
    · simpa [act, record] using (h i).add (ha i d rfl)
    · simpa [act, record, hne] using h i
  | merge j k =>
    rcases eq_or_ne i j with rfl | hne
    · simpa [act, record] using (h i).merge (h k)
    · simpa [act, record, hne] using h i
  | sort j =>
    rcases eq_or_ne i j with rfl | hne
    · simpa [act, record] using (h i).sort
    · simpa [act, record, hne] using h i

/-- **A run**: after any acts every bag accounts for what it was given. -/
lemma accounts_after (limits : Nat → Int) {acts : List Act}
    (h : ∀ i d, Act.add i d ∈ acts → Named d.severity) (i : Nat) :
    Accounts (after limits acts i) (givenBy acts i) := by
  induction acts using List.reverseRecOn generalizing i with
  | nil => exact accounts_empty (limits i)
  | append_singleton acts a ih =>
    rw [after, givenBy, List.foldl_append, List.foldl_append, List.foldl_cons, List.foldl_cons,
      List.foldl_nil, List.foldl_nil]
    refine accounts_act (fun j => ih (fun k d hk => h k d (List.mem_append_left _ hk)) j) ?_ i
    rintro k d rfl
    exact h k d (by simp)

/-- **No diagnostic is lost.** Take any number of bags, empty and with any limits, and any sequence
of diagnostics added, of severity info, warning or error, of bags merged into others or into
themselves and of bags sorted. Then each bag counts under a severity as many diagnostics as it was
ever given, where merging gives what the other bag was given up to then; those it keeps and those it
left out are as many as it was given, and it fails a compilation exactly if an error, or with
warnings as errors a warning, was among them. Sorting it permutes what it keeps into the order of
places and, at one place, of severities, errors first; of the diagnostics with one place and
severity those that are kept stand, before and after, in the order in which they were given. -/
theorem after_accounts (limits : Nat → Int) (acts : List Act)
    (h : ∀ i d, Act.add i d ∈ acts →
      d.severity = .info ∨ d.severity = .warning ∨ d.severity = .error) (i : Nat) :
    let b := after limits acts i
    let given := givenBy acts i
    (∀ s, b.count s = given.countP fun d => d.severity = s) ∧
    b.size + b.dropped = given.length ∧
    (∀ warningsAsErrors, b.failed warningsAsErrors = true ↔
      (∃ d ∈ given, d.severity = .error) ∨
        warningsAsErrors = true ∧ ∃ d ∈ given, d.severity = .warning) ∧
    b.sort.items.Perm b.items ∧
    b.sort.items.Pairwise (fun d e => d.span.before e.span = true ∨
      d.span = e.span ∧ e.severity.level ≤ d.severity.level) ∧
    ∀ d, b.sort.items.filter (tied d) = b.items.filter (tied d) ∧
      (b.items.filter (tied d)).Sublist (given.filter (tied d)) := by
  intro b given
  have haccounts : Accounts b given := accounts_after limits h i
  obtain ⟨hperm, hsorted, hties⟩ := sort_spec b
  have hpos : ∀ s, 0 < b.count s ↔ ∃ d ∈ given, d.severity = s := by
    intro s
    rw [haccounts.count, List.countP_pos_iff]
    simp
  refine ⟨haccounts.count, haccounts.total, fun w => ?_, hperm, hsorted,
    fun d => ⟨hties d, haccounts.ties d⟩⟩
  rw [failed, hasErrors, hasWarnings, Bool.or_eq_true, Bool.and_eq_true, decide_eq_true_iff,
    decide_eq_true_iff, hpos, hpos]

/-- Two bags with room for one diagnostic each drop an error, then one takes over the other, is
sorted and drops a warning. -/
def crowded : List Act :=
  [.add 0 (.warning .unusedValue ⟨1, 5, 6⟩ "a"), .add 0 (.error .unresolvedName ⟨1, 2, 3⟩ "b"),
    .add 1 (.of .info .unusedImport ⟨1, 2, 3⟩ "c"), .add 1 (.error .unresolvedName ⟨1, 2, 3⟩ "d"),
    .merge 0 1, .sort 0, .add 0 (.warning .unusedValue ⟨1, 2, 3⟩ "e")]

/-- It accounts for five diagnostics, two of them errors, none of which is kept. -/
theorem after_accounts_crowded :
    (∀ i d, Act.add i d ∈ crowded →
      d.severity = .info ∨ d.severity = .warning ∨ d.severity = .error) ∧
    (after (fun _ => 1) crowded 0).size + (after (fun _ => 1) crowded 0).dropped = 5 ∧
    (after (fun _ => 1) crowded 0).count .error = 2 ∧
    (after (fun _ => 1) crowded 0).failed false = true := by
  have hnamed : ∀ i d, Act.add i d ∈ crowded →
      d.severity = .info ∨ d.severity = .warning ∨ d.severity = .error := by
    intro i d h
    simp only [crowded, List.mem_cons, List.not_mem_nil, or_false, Act.add.injEq, reduceCtorEq,
      false_or] at h
    rcases h with ⟨-, rfl⟩ | ⟨-, rfl⟩ | ⟨-, rfl⟩ | ⟨-, rfl⟩ | ⟨-, rfl⟩
    · exact .inr (.inl rfl)
    · exact .inr (.inr rfl)
    · exact .inl rfl
    · exact .inr (.inr rfl)
    · exact .inr (.inl rfl)
  obtain ⟨hcount, htotal, hfailed, -⟩ := after_accounts (fun _ => 1) crowded hnamed 0
  refine ⟨hnamed, htotal, hcount .error, (hfailed false).2 (.inl ?_)⟩
  exact ⟨.error .unresolvedName ⟨1, 2, 3⟩ "b", by decide, rfl⟩

end Bag

end StateBuffer
