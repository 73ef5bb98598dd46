import Mathlib.Data.List.Nodup
import Mathlib.Data.List.Perm.Subperm
import Mathlib.Data.List.Shortlex
import StateBuffer.Proofs.Resolution.Registered

/-!
Import paths and the list of visible files. A path begins with any import of a file and goes on with
public ones; paths are compared by their length, and where they first differ the later import comes
first. The list of visible files is a queue whose entries carry the least paths to their files in
ascending order.
-/

namespace StateBuffer

/-- The import `id` of `file` is found and leads to `target`. -/
def Tree.Imports (t : Tree) (s : SourceSet) (root : Bytes) (file : FileId) (id : ItemId)
    (isPublic : Bool) (target : FileId) : Prop :=
  ∃ it i tried, t.item? id = some it ∧ it.file = file ∧ it.body = .imports i ∧
    i.isPublic = isPublic ∧ ImportIndex.resolve s root file i = .ok (some target, tried)

/-- A path of imports from a file: first any import of the file, then public imports of the file
that was reached. -/
inductive ImportPath (leads : FileId → ItemId → Bool → FileId → Prop) (start : FileId) :
    List ItemId → FileId → Prop where
  | first {id : ItemId} {isPublic : Bool} {file : FileId} (h : leads start id isPublic file) :
      ImportPath leads start [id] file
  | next {path : List ItemId} {id : ItemId} {middle file : FileId}
      (hp : ImportPath leads start path middle) (h : leads middle id true file) :
      ImportPath leads start (path ++ [id]) file

lemma ImportPath.ne_nil {leads : FileId → ItemId → Bool → FileId → Prop} {start file : FileId}
    {path : List ItemId} (h : ImportPath leads start path file) : path ≠ [] := by
  cases h <;> simp

lemma ImportPath.enters {leads : FileId → ItemId → Bool → FileId → Prop} {start file : FileId}
    {path : List ItemId} (h : ImportPath leads start path file) :
    ∃ middle id isPublic, leads middle id isPublic file := by
  cases h with
  | first h => exact ⟨_, _, _, h⟩
  | next _ h => exact ⟨_, _, _, h⟩

/-- Shorter paths come first; of two equally long ones the one with the later import where they
first differ. -/
def Before : List ItemId → List ItemId → Prop := List.Shortlex fun a b => b < a

/-- The path comes no later than another. -/
def AtMost (p q : List ItemId) : Prop := p = q ∨ Before p q

/-! ### The order of paths -/

lemma Before.trans {p q r : List ItemId} (h : Before p q) (h' : Before q r) : Before p r := by
  rcases List.shortlex_def.1 h with h | ⟨h, hl⟩
  · rcases List.shortlex_def.1 h' with h' | ⟨h', -⟩
    · exact .of_length_lt (h.trans h')
    · exact .of_length_lt (h' ▸ h)
  · rcases List.shortlex_def.1 h' with h' | ⟨h', hl'⟩
    · exact .of_length_lt (h ▸ h')
    · exact .of_lex (h.trans h') (List.lex_trans (fun h1 h2 => Nat.lt_trans h2 h1) hl hl')

lemma Before.length_le {p q : List ItemId} (h : Before p q) : p.length ≤ q.length := by
  rcases List.shortlex_def.1 h with h | ⟨h, -⟩
  · exact Nat.le_of_lt h
  · exact Nat.le_of_eq h

lemma AtMost.trans {p q r : List ItemId} (h : AtMost p q) (h' : AtMost q r) : AtMost p r := by
  rcases h with rfl | h
  · exact h'
  · rcases h' with rfl | h'
    · exact .inr h
    · exact .inr (h.trans h')

lemma AtMost.antisymm {p q : List ItemId} (h : AtMost p q) (h' : AtMost q p) : p = q := by
  rcases h with rfl | h
  · rfl
  · rcases h' with rfl | h'
    · rfl
    · have : Std.Asymm fun a b : ItemId => b < a := ⟨fun _ _ h h' => Nat.lt_asymm h h'⟩
      exact absurd h' (List.Shortlex.asymm.asymm p q h)

lemma Before.append {p q : List ItemId} (h : Before p q) (a b : ItemId) :
    Before (p ++ [a]) (q ++ [b]) := by
  rcases List.shortlex_def.1 h with h | ⟨h, hl⟩
  · exact .of_length_lt (by simpa using h)
  · refine .of_lex (by simpa using h) ?_
    clear * - h hl
    induction hl with
    | nil => simp at h
    | rel hr => exact .rel hr
    | cons _ ih => exact .cons (ih (by simpa using h))

lemma before_append_of_lt (p : List ItemId) {a b : ItemId} (h : b < a) :
    Before (p ++ [a]) (p ++ [b]) :=
  List.Shortlex.append_left ((List.shortlex_singleton_iff a b).2 h) p

lemma before_append_self {p q : List ItemId} (h : p.length ≤ q.length) (a : ItemId) :
    Before p (q ++ [a]) :=
  .of_length_lt (by simpa using Nat.lt_succ_of_le h)

lemma AtMost.append {p q : List ItemId} (h : AtMost p q) (a : ItemId) :
    AtMost (p ++ [a]) (q ++ [a]) := by
  rcases h with rfl | h
  · exact .inl rfl
  · exact .inr (h.append a a)

/-! ### The queue of visible files -/

namespace ImportIndex

/-- An entry of the queue, with the path on which it was reached. -/
abbrev Entry := Reach × List ItemId

def filesOf (entries : List Entry) : List FileId := entries.map fun a => a.1.file

lemma map_file_fst (entries : List Entry) :
    (entries.map Prod.fst).map Reach.file = filesOf entries := by
  rw [List.map_map]
  rfl

/-- The edge `id` of `file` leads to `target`. -/
def Leads (x : ImportIndex) (file : FileId) (id : ItemId) (isPublic : Bool)
    (target : FileId) : Prop :=
  ∃ e ∈ x.edgesOf file, e.item = id ∧ e.isPublic = isPublic ∧ e.target = some target

section AddTargets

variable {via : ImportEdge → Option ItemId}

lemma any_file (reached : List Reach) (file : FileId) :
    (reached.any fun r => decide (r.file = file)) = decide (file ∈ reached.map Reach.file) := by
  rw [Bool.eq_iff_iff, List.any_eq_true, decide_eq_true_iff, List.mem_map]
  simp

lemma addTargets_fresh {e : ImportEdge} {reached : List Reach} {file : FileId}
    (h : e.target = some file) (hn : file ∉ reached.map Reach.file) (edges : List ImportEdge) :
    addTargets via (e :: edges) reached = addTargets via edges (reached ++ [⟨file, via e⟩]) := by
  have hany := (any_file reached file).trans (decide_eq_false hn)
  rw [addTargets, List.foldl_cons]
  simp only [h, hany]
  rfl

lemma addTargets_known {e : ImportEdge} {reached : List Reach}
    (h : ∀ file, e.target = some file → file ∈ reached.map Reach.file) (edges : List ImportEdge) :
    addTargets via (e :: edges) reached = addTargets via edges reached := by
  rw [addTargets, List.foldl_cons]
  cases ht : e.target with
  | none => rfl
  | some file =>
    have hany := (any_file reached file).trans (decide_eq_true (h file ht))
    simp only [hany]
    rfl

/-- The targets of some edges from the end of `path` were added to entries: the `new` ones stand
behind them, and every target is at a path no later than its edge. -/
structure Added (via : ImportEdge → Option ItemId) (path : List ItemId) (edges : List ImportEdge)
    (all new : List Entry) : Prop where
  result : addTargets via edges (all.map Prod.fst) = (all ++ new).map Prod.fst
  distinct : (filesOf (all ++ new)).Nodup
  sorted : (all ++ new).Pairwise fun a b => Before a.2 b.2
  origin : ∀ a ∈ new, ∃ e ∈ edges, e.target = some a.1.file ∧ a.1.via = via e ∧
    a.2 = path ++ [e.item]
  reached : ∀ e ∈ edges, ∀ file, e.target = some file →
    ∃ a ∈ all ++ new, a.1.file = file ∧ AtMost a.2 (path ++ [e.item])

section Added

variable {path : List ItemId} {e : ImportEdge} {edges : List ImportEdge} {all new : List Entry}

lemma Added.fresh {file : FileId} (htarget : e.target = some file) (hfile : file ∉ filesOf all)
    (h : Added via path edges (all ++ [(⟨file, via e⟩, path ++ [e.item])]) new) :
    Added via path (e :: edges) all ((⟨file, via e⟩, path ++ [e.item]) :: new) := by
  have hstep : addTargets via (e :: edges) (all.map Prod.fst) = _ :=
    addTargets_fresh htarget (by rwa [map_file_fst]) edges
  have hall : all ++ (⟨file, via e⟩, path ++ [e.item]) :: new =
      all ++ [(⟨file, via e⟩, path ++ [e.item])] ++ new := by simp
  constructor
  case result =>
    rw [hstep, hall, ← h.result, List.map_append]
    rfl
  case distinct => exact hall ▸ h.distinct
  case sorted => exact hall ▸ h.sorted
  case origin =>
    intro a ha
    rcases List.mem_cons.1 ha with rfl | ha
    · exact ⟨e, List.mem_cons_self, htarget, rfl, rfl⟩
    · obtain ⟨e', he', h⟩ := h.origin a ha
      exact ⟨e', List.mem_cons_of_mem _ he', h⟩
  case reached =>
    intro e' he' file' htarget'
    rcases List.mem_cons.1 he' with rfl | he'
    · rw [htarget] at htarget'
      obtain rfl := Option.some.inj htarget'
      exact ⟨(⟨file, via e'⟩, path ++ [e'.item]), by simp, rfl, .inl rfl⟩
    · exact hall ▸ h.reached e' he' file' htarget'

lemma Added.known (hknown : ∀ file, e.target = some file → file ∈ filesOf all)
    (hahead : ∀ a ∈ all, Before a.2 (path ++ [e.item])) (h : Added via path edges all new) :
    Added via path (e :: edges) all new := by
  have hstep : addTargets via (e :: edges) (all.map Prod.fst) = _ :=
    addTargets_known (fun file htarget => (map_file_fst all).symm ▸ hknown file htarget) edges
  constructor
  case result => exact hstep.trans h.result
  case distinct => exact h.distinct
  case sorted => exact h.sorted
  case origin =>
    intro a ha
    obtain ⟨e', he', h⟩ := h.origin a ha
    exact ⟨e', List.mem_cons_of_mem _ he', h⟩
  case reached =>
    intro e' he' file htarget
    rcases List.mem_cons.1 he' with rfl | he'
    · obtain ⟨a, ha, hf⟩ := List.mem_map.1 (hknown file htarget)
      exact ⟨a, List.mem_append_left _ ha, hf, .inr (hahead a ha)⟩
    · exact h.reached e' he' file htarget

/-- **Adding targets** of edges that come after all entries, the latest first. -/
lemma exists_added (via : ImportEdge → Option ItemId)
    (hedges : edges.Pairwise fun a b => b.item < a.item) (hnodup : (filesOf all).Nodup)
    (hsorted : all.Pairwise fun a b => Before a.2 b.2)
    (hahead : ∀ a ∈ all, ∀ e ∈ edges, Before a.2 (path ++ [e.item])) :
    ∃ new, Added via path edges all new := by
  induction edges generalizing all with
  | nil =>
    exact ⟨[], by simp [addTargets], by simpa using hnodup, by simpa using hsorted, by simp,
      by simp⟩
  | cons e edges ih =>
    obtain ⟨hfirst, hrest⟩ := List.pairwise_cons.1 hedges
    have hhead : ∀ a ∈ all, Before a.2 (path ++ [e.item]) :=
      fun a ha => hahead a ha e List.mem_cons_self
    have hahead' : ∀ a ∈ all, ∀ e' ∈ edges, Before a.2 (path ++ [e'.item]) :=
      fun a ha e' he' => hahead a ha e' (List.mem_cons_of_mem _ he')
    by_cases hnew : ∃ file, e.target = some file ∧ file ∉ filesOf all
    · obtain ⟨file, htarget, hfile⟩ := hnew
      have hnodup' : (filesOf (all ++ [(⟨file, via e⟩, path ++ [e.item])])).Nodup := by
        rw [filesOf, List.map_append, List.map_singleton,
          (List.perm_append_singleton _ _).nodup_iff]
        exact List.nodup_cons.2 ⟨hfile, hnodup⟩
      have hsorted' : (all ++ [((⟨file, via e⟩ : Reach), path ++ [e.item])]).Pairwise
          fun a b => Before a.2 b.2 := by
        rw [List.pairwise_append]
        refine ⟨hsorted, by simp, fun a ha b hb => ?_⟩
        obtain rfl := List.mem_singleton.1 hb
        exact hhead a ha
      obtain ⟨new, hadded⟩ := ih hrest hnodup' hsorted' (by
        intro a ha e' he'
        rcases List.mem_append.1 ha with ha | ha
        · exact hahead' a ha e' he'
        · obtain rfl := List.mem_singleton.1 ha
          exact before_append_of_lt path (hfirst e' he'))
      exact ⟨_, hadded.fresh htarget hfile⟩
    · obtain ⟨new, hadded⟩ := ih hrest hnodup hsorted hahead'
      refine ⟨new, hadded.known (fun file htarget => ?_) hhead⟩
      by_contra hfile
      exact hnew ⟨file, htarget, hfile⟩

end Added

end AddTargets

/-- The entry was reached on its path: it is the start itself, or came through the first import of
the path. -/
def Reached (x : ImportIndex) (start : FileId) (a : Entry) : Prop :=
  a.1.via = a.2.head? ∧
    (a.2 = [] ∧ a.1.file = start ∨ ImportPath x.Leads start a.2 a.1.file)

/-- The entries whose imports were followed, and those that are still to come. All entries are
sorted by their paths, a further step from an entry to come is later than all of them, and what the
followed entries lead to is there. -/
structure Queue (x : ImportIndex) (start : FileId) (done queue : List Entry) : Prop where
  distinct : (filesOf (done ++ queue)).Nodup
  sorted : (done ++ queue).Pairwise fun a b => Before a.2 b.2
  sound : ∀ a ∈ done ++ queue, x.Reached start a
  ahead : ∀ a ∈ done ++ queue, ∀ b ∈ queue, ∀ id, Before a.2 (b.2 ++ [id])
  closed : ∀ a ∈ done, ∀ {id isPublic file}, x.Leads a.1.file id isPublic file →
    (a.2 ≠ [] → isPublic = true) →
    ∃ b ∈ done ++ queue, b.1.file = file ∧ AtMost b.2 (a.2 ++ [id])

section Queue

variable {x : ImportIndex} {start : FileId} {done queue : List Entry}

/-- **One entry**: following its imports moves it to the followed ones. -/
lemma Queue.step {a : Entry} (h : Queue x start done (a :: queue)) (edges : List ImportEdge)
    (via : ImportEdge → Option ItemId) (hdesc : edges.Pairwise fun e e' => e'.item < e.item)
    (hvia : ∀ e, via e = (a.2 ++ [e.item]).head?)
    (hmem : ∀ e, e ∈ edges ↔ e ∈ x.edgesOf a.1.file ∧ (a.2 ≠ [] → e.isPublic = true)) :
    ∃ new, addTargets via edges ((done ++ a :: queue).map Prod.fst) =
        ((done ++ [a]) ++ (queue ++ new)).map Prod.fst ∧
      Queue x start (done ++ [a]) (queue ++ new) := by
  obtain ⟨new, h1, h2, h3, h4, h5⟩ := exists_added via hdesc h.distinct
    h.sorted fun b hb e _ => h.ahead b hb a List.mem_cons_self e.item
  have hall : done ++ [a] ++ (queue ++ new) = done ++ a :: queue ++ new := by simp
  have hcur := h.sound a (by simp)
  refine ⟨new, by rw [hall, h1], ?_⟩
  constructor
  case distinct => rwa [hall]
  case sorted => rwa [hall]
  case sound =>
    rw [hall]
    intro b hb
    rcases List.mem_append.1 hb with hb | hb
    · exact h.sound b hb
    · obtain ⟨e, he, htarget, hv, hpath⟩ := h4 b hb
      obtain ⟨he, hpub⟩ := (hmem e).1 he
      refine ⟨by rw [hv, hvia, hpath], .inr ?_⟩
      rw [hpath]
      by_cases hnil : a.2 = []
      · obtain ⟨-, ⟨-, hf⟩ | hp⟩ := hcur
        · rw [hnil]
          exact .first ⟨e, hf ▸ he, rfl, rfl, htarget⟩
        · exact absurd hnil hp.ne_nil
      · obtain ⟨-, ⟨hn, -⟩ | hp⟩ := hcur
        · exact absurd hn hnil
        · exact .next hp ⟨e, he, rfl, hpub hnil, htarget⟩
  case ahead =>
    rw [hall]
    intro b hb c hc id
    -- an entry that was there is no longer than one that was added
    have hlen : ∀ c ∈ new, b.2.length ≤ c.2.length := by
      intro c hc
      obtain ⟨e, he, -, -, hpath⟩ := h4 c hc
      rcases List.mem_append.1 hb with hb | hb
      · rw [hpath]
        exact (h.ahead b hb a List.mem_cons_self e.item).length_le
      · obtain ⟨e', -, -, -, hpath'⟩ := h4 b hb
        simp [hpath, hpath']
    rcases List.mem_append.1 hc with hc | hc
    · rcases List.mem_append.1 hb with hb | hb
      · exact h.ahead b hb c (List.mem_cons_of_mem _ hc) id
      · obtain ⟨e, -, -, -, hpath⟩ := h4 b hb
        have hac : Before a.2 c.2 :=
          (List.pairwise_cons.1 (List.pairwise_append.1 h.sorted).2.1).1 c hc
        rw [hpath]
        exact hac.append e.item id
    · exact before_append_self (hlen c hc) id
  case closed =>
    rw [hall]
    intro b hb id isPublic file hleads hpub
    rcases List.mem_append.1 hb with hb | hb
    · obtain ⟨c, hc, hf⟩ := h.closed b hb hleads hpub
      exact ⟨c, List.mem_append_left _ hc, hf⟩
    · obtain rfl := List.mem_singleton.1 hb
      obtain ⟨e, he, rfl, rfl, htarget⟩ := hleads
      exact h5 e ((hmem e).2 ⟨he, hpub⟩) file htarget

lemma Queue.length_le (h : Queue x start done queue) :
    (done ++ queue).length ≤ x.edges.length + 1 := by
  have hsub : filesOf (done ++ queue) ⊆ start :: x.edges.filterMap ImportEdge.target := by
    intro file hfile
    obtain ⟨a, ha, rfl⟩ := List.mem_map.1 hfile
    obtain ⟨-, ⟨-, hf⟩ | hp⟩ := h.sound a ha
    · exact List.mem_cons.2 (.inl hf)
    · obtain ⟨middle, id, isPublic, e, he, -, -, ht⟩ := hp.enters
      obtain ⟨d, -, hd⟩ := List.mem_filterMap.1 he
      exact List.mem_cons_of_mem _ (List.mem_filterMap.2 ⟨e, List.mem_of_find?_eq_some hd, ht⟩)
  have hle := (List.subperm_of_subset h.distinct hsub).length_le
  rw [filesOf, List.length_map] at hle
  exact hle.trans (Nat.succ_le_succ (List.length_filterMap_le _ _))

variable (hasc : ∀ file, (x.edgesOf file).Pairwise fun e e' => e.item < e'.item)

include hasc

lemma pairwise_publicEdges (file : FileId) :
    (x.publicEdges file).Pairwise fun e e' => e'.item < e.item := by
  rw [publicEdges, List.pairwise_reverse]
  exact (hasc file).filter _

/-- **Growing**: with as many steps as there are edges, all entries are followed. -/
lemma Queue.grow (h : Queue x start done queue) (fuel : Nat) (hne : done ≠ [])
    (hfuel : x.edges.length + 1 ≤ done.length + fuel) :
    ∃ all, x.grow fuel done.length ((done ++ queue).map Prod.fst) = all.map Prod.fst ∧
      Queue x start all [] ∧ done <+: all := by
  induction fuel generalizing done queue with
  | zero =>
    have hlen := h.length_le
    rw [List.length_append] at hlen
    obtain rfl : queue = [] := List.length_eq_zero_iff.1 (by omega)
    exact ⟨done, by simp [ImportIndex.grow], h, List.prefix_rfl⟩
  | succ fuel ih =>
    cases queue with
    | nil => exact ⟨done, by simp [ImportIndex.grow], h, List.prefix_rfl⟩
    | cons a queue =>
      have hget : ((done ++ a :: queue).map Prod.fst)[done.length]? = some a.1 := by simp
      have hcur := h.sound a (by simp)
      have hpath : a.2 ≠ [] := by
        obtain ⟨b, hb⟩ := List.exists_mem_of_ne_nil done hne
        have hba := (List.pairwise_append.1 h.sorted).2.2 b hb a List.mem_cons_self
        intro hnil
        rw [hnil] at hba
        exact List.not_shortlex_nil_right hba
      obtain ⟨new, hadd, hq⟩ := h.step (x.publicEdges a.1.file) (fun _ => a.1.via)
        (pairwise_publicEdges hasc a.1.file)
        (fun e => by rw [hcur.1, List.head?_append_of_ne_nil _ hpath])
        (fun e => by simp [publicEdges, hpath])
      obtain ⟨all, hg, hall, hpre⟩ := ih hq (by simp) (by
        rw [List.length_append, List.length_singleton]
        omega)
      refine ⟨all, ?_, hall, (List.prefix_append _ _).trans hpre⟩
      rw [ImportIndex.grow, hget]
      simp only
      rw [hadd, ← hg, List.length_append, List.length_singleton]

/-- **The visible files** of a file, as a queue with nothing left to follow. -/
lemma queue_visibleFrom (start : FileId) :
    ∃ all, x.visibleFrom start = all.map Prod.fst ∧ Queue x start all [] ∧
      [((⟨start, none⟩ : Reach), [])] <+: all := by
  have h0 : Queue x start [] [((⟨start, none⟩ : Reach), [])] := by
    constructor
    case distinct => simp [filesOf]
    case sorted => simp
    case sound =>
      intro a ha
      obtain rfl := List.mem_singleton.1 ha
      exact ⟨rfl, .inl ⟨rfl, rfl⟩⟩
    case ahead =>
      intro a ha b hb id
      obtain rfl := List.mem_singleton.1 ha
      exact before_append_self (Nat.zero_le _) id
    case closed => simp
  obtain ⟨new, hadd, hq⟩ := h0.step (x.edgesOf start).reverse (fun e => some e.item)
    (List.pairwise_reverse.2 (hasc start)) (fun e => rfl)
    (fun e => by simp)
  obtain ⟨all, hg, hall, hpre⟩ := hq.grow hasc (x.edges.length + 1) (by simp) (by simp)
  refine ⟨all, ?_, hall, hpre⟩
  rw [visibleFrom, ← hg, ← hadd]
  rfl

end Queue

/-- Where nothing is left to follow, every path ends in a file that is there, at a path no later
than it. -/
lemma Queue.least {x : ImportIndex} {start : FileId} {all : List Entry} (h : Queue x start all [])
    (hstart : ((⟨start, none⟩ : Reach), []) ∈ all) {path : List ItemId} {file : FileId}
    (hp : ImportPath x.Leads start path file) :
    ∃ a ∈ all, a.1.file = file ∧ AtMost a.2 path := by
  induction hp with
  | first hl =>
    obtain ⟨b, hb, hf, hle⟩ := h.closed _ hstart hl (by simp)
    exact ⟨b, by simpa using hb, hf, hle⟩
  | @next path id middle file hp hl ih =>
    obtain ⟨a, ha, rfl, hle⟩ := ih
    obtain ⟨b, hb, hf, hle'⟩ := h.closed a ha hl (by simp)
    exact ⟨b, by simpa using hb, hf, hle'.trans (hle.append id)⟩

lemma Queue.start_mem {x : ImportIndex} {start : FileId} {l l' : List Entry} {a : Entry}
    (h : Queue x start (l ++ a :: l') []) (hstart : ((⟨start, none⟩ : Reach), []) ∈ l ++ a :: l')
    (ha : a.2 ≠ []) : ((⟨start, none⟩ : Reach), []) ∈ l := by
  rcases List.mem_append.1 hstart with hs | hs
  · exact hs
  · have hsorted := h.sorted
    rw [List.append_nil] at hsorted
    rcases List.mem_cons.1 hs with rfl | hs
    · exact absurd rfl ha
    · have := (List.pairwise_cons.1 (List.pairwise_append.1 hsorted).2.1).1 _ hs
      exact absurd this List.not_shortlex_nil_right

/-- An entry with a path is another file than the start. -/
lemma Queue.file_ne {x : ImportIndex} {start : FileId} {all : List Entry} {a : Entry}
    (h : Queue x start all []) (hstart : ((⟨start, none⟩ : Reach), []) ∈ all) (ha : a ∈ all)
    (hpath : a.2 ≠ []) : a.1.file ≠ start := by
  intro hf
  have hdistinct := h.distinct
  rw [List.append_nil] at hdistinct
  have := List.inj_on_of_nodup_map hdistinct ha hstart hf
  rw [this] at hpath
  exact hpath rfl

end ImportIndex

end StateBuffer
