import Mathlib.Data.List.Nodup
import StateBuffer.Proofs.Syntax.Numbering

/-!
What the indexes of a compilation hold. Taking up all items of a tree never fails, and leaves the
definitions and the imports of the tree in source order, each import with its target.
-/

namespace StateBuffer

/-- A fold either fails at one element, or keeps an invariant on what is done to the end. -/
lemma foldlM_cases {α β : Type} {f : β → α → Except Fault β} (Keeps : List α → β → Prop)
    (Fails : Fault → Prop) {l : List α}
    (step : ∀ done a rest b, l = done ++ a :: rest → Keeps done b →
      (∃ e, f b a = .error e ∧ Fails e) ∨ ∃ b', f b a = .ok b' ∧ Keeps (done ++ [a]) b')
    {b : β} (start : Keeps [] b) :
    (∃ e, l.foldlM f b = .error e ∧ Fails e) ∨ ∃ b', l.foldlM f b = .ok b' ∧ Keeps l b' := by
  have hgo : ∀ rest done b, l = done ++ rest → Keeps done b →
      (∃ e, rest.foldlM f b = .error e ∧ Fails e) ∨
        ∃ b', rest.foldlM f b = .ok b' ∧ Keeps l b' := by
    intro rest
    induction rest with
    | nil =>
      intro done b hl hb
      rw [List.append_nil] at hl
      exact .inr ⟨b, rfl, hl ▸ hb⟩
    | cons a rest ih =>
      intro done b hl hb
      rw [List.foldlM_cons]
      rcases step done a rest b hl hb with ⟨e, hf, he⟩ | ⟨b', hf, hb'⟩
      · exact .inl ⟨e, by rw [hf]; rfl, he⟩
      · rw [hf]
        exact ih (done ++ [a]) b' (by simpa using hl) hb'
  exact hgo l [] b rfl start

lemma foldlM_keeps {α β : Type} {f : β → α → Except Fault β} (Keeps : List α → β → Prop)
    {l : List α}
    (step : ∀ done a rest b, l = done ++ a :: rest → Keeps done b →
      ∃ b', f b a = .ok b' ∧ Keeps (done ++ [a]) b')
    {b : β} (start : Keeps [] b) : ∃ b', l.foldlM f b = .ok b' ∧ Keeps l b' := by
  have h := foldlM_cases Keeps (fun _ => False)
    (fun done a rest b hl hb => .inr (step done a rest b hl hb)) start
  simpa using h

namespace SourceSet

variable {s : SourceSet}

lemma get?_of_mem (file : FileId) (h : file ∈ s.ids) : ∃ f, s.get? file = some f := by
  obtain ⟨i, hi, rfl⟩ := List.mem_map.1 h
  have hlt : i < s.files.size := List.mem_range.1 hi
  exact ⟨s.files[i], by simp [get?, hlt]⟩

lemma get_of_mem (file : FileId) (h : file ∈ s.ids) : ∃ f, s.get file = .ok f := by
  obtain ⟨f, hf⟩ := get?_of_mem file h
  exact ⟨f, by simp [get, hf]⟩

end SourceSet

namespace ImportIndex

lemma resolve_ok {s : SourceSet} {file : FileId} (h : file ∈ s.ids) (root : Bytes) (i : Import) :
    ∃ target tried, resolve s root file i = .ok (target, tried) := by
  obtain ⟨f, hf⟩ := SourceSet.get_of_mem file h
  unfold resolve
  rcases splitPath i.segments with ⟨up, names⟩
  by_cases hup : up = 0
  · simp only [hup, if_true]
    exact ⟨_, _, rfl⟩
  · simp only [if_neg hup, hf]
    exact ⟨_, _, rfl⟩

/-- The edge of an import item in a file. -/
def edgeOf? (s : SourceSet) (t : Tree) (root : Bytes) (file : FileId) (item : ItemId) :
    Option ImportEdge :=
  match t.importOf? item with
  | none => none
  | some i => match resolve s root file i with
    | .ok (target, tried) => some ⟨item, file, i.isPublic, target, i.dotPath, tried, false⟩
    | .error _ => none

lemma edgeOf?_item {s : SourceSet} {t : Tree} {root : Bytes} {file : FileId} {item : ItemId}
    {e : ImportEdge} (h : edgeOf? s t root file item = some e) : e.item = item ∧ e.file = file := by
  unfold edgeOf? at h
  split at h
  · simp at h
  · split at h
    · obtain rfl := Option.some.inj h
      exact ⟨rfl, rfl⟩
    · simp at h

end ImportIndex

/-! ### Taking up items -/

namespace Resolution

open ImportIndex

/-- The resolution `r` holds what the listed items, each with its file, declare. -/
structure Holds (s : SourceSet) (t : Tree) (root : Bytes) (done : List (FileId × ItemId))
    (r : Resolution) : Prop where
  tree : r.tree = t
  definitions : r.definitions.definitions = done.filterMap fun x => t.definition? x.2
  edges : r.imports.edges = done.filterMap fun x => edgeOf? s t root x.1 x.2
  direct : r.imports.direct = r.imports.edges.map fun e => (e.file, e.item)
  reach : r.imports.reach = none
  bindings : r.bindings = []
  firstUses : r.firstUses = []

lemma item?_of_importOf? {t : Tree} {id : ItemId} {i : Import} (h : t.importOf? id = some i) :
    ∃ file span, t.item? id = some ⟨file, span, .imports i⟩ := by
  unfold Tree.importOf? at h
  split at h
  · rename_i hid
    obtain rfl := Option.some.inj h
    exact ⟨_, _, hid⟩
  · simp at h

/-- **One item**: it is taken up behind the others. -/
lemma Holds.step {s : SourceSet} {t : Tree} {root : Bytes} {done : List (FileId × ItemId)}
    {r : Resolution} (h : Holds s t root done r) {file : FileId} {item : ItemId} {it : Item}
    (hfile : file ∈ s.ids) (hi : t.item? item = some it) (hnew : ∀ x ∈ done, x.2 ≠ item) :
    ∃ r', registerItem s root file r item = .ok r' ∧
      Holds s t root (done ++ [(file, item)]) r' := by
  obtain ⟨ofile, span, i | d⟩ := it
  · have himp : t.importOf? item = some i := by simp [Tree.importOf?, hi]
    have hdef : t.definition? item = none := by simp [Tree.definition?, hi]
    obtain ⟨target, tried, hres⟩ := resolve_ok hfile root i
    have hedge : edgeOf? s t root file item =
        some ⟨item, file, i.isPublic, target, i.dotPath, tried, false⟩ := by
      simp [edgeOf?, himp, hres]
    have hothers : r.imports.edges.filter (fun e => e.item ≠ item) = r.imports.edges := by
      rw [List.filter_eq_self, h.edges]
      intro e he
      obtain ⟨x, hx, hxe⟩ := List.mem_filterMap.1 he
      simpa [(edgeOf?_item hxe).1] using hnew x hx
    refine ⟨{ r with imports := { r.imports with
      edges := r.imports.edges ++ [⟨item, file, i.isPublic, target, i.dotPath, tried, false⟩]
      direct := r.imports.direct ++ [(file, item)] } }, ?_, ?_⟩
    · simp only [registerItem, h.tree, hi, Option.map_some, register, h.reach, Option.isSome_none,
        himp, hres]
      simp only [hothers]
      rfl
    · refine ⟨h.tree, ?_, ?_, ?_, h.reach, h.bindings, h.firstUses⟩
      · simp [h.definitions, List.filterMap_append, hdef]
      · simp [h.edges, List.filterMap_append, hedge]
      · simp [h.direct]
  · have himp : edgeOf? s t root file item = none := by simp [edgeOf?, Tree.importOf?, hi]
    have hdef : t.definition? item = some ⟨item, ofile, d⟩ := by simp [Tree.definition?, hi]
    refine ⟨{ r with definitions := ⟨r.definitions.definitions ++ [⟨item, ofile, d⟩]⟩ }, ?_, ?_⟩
    · simp only [registerItem, h.tree, hi, Option.map_some, DefinitionIndex.register, hdef]
      rfl
    · refine ⟨h.tree, ?_, ?_, ?_, h.reach, h.bindings, h.firstUses⟩
      · simp [h.definitions, List.filterMap_append, hdef]
      · simp [h.edges, List.filterMap_append, himp]
      · simp [h.direct]

end Resolution

/-! ### Whole trees -/

/-- All items of a tree with their files, in source order. -/
def Tree.places (t : Tree) : List (FileId × ItemId) :=
  t.modules.toList.flatMap fun m => m.items.map fun id => (m.file, id)

def Tree.declared (t : Tree) : List Declared := t.places.filterMap fun x => t.definition? x.2

/-- The imports of a tree in source order, before anything is known of what files can see. -/
def ImportIndex.ofTree (s : SourceSet) (t : Tree) (root : Bytes) : ImportIndex :=
  let edges := t.places.filterMap fun x => edgeOf? s t root x.1 x.2
  ⟨edges, edges.map fun e => (e.file, e.item), none⟩

namespace Tree.Numbered

variable {t : Tree} {files : Nat} {next : NodeId} (h : t.Numbered files next)

include h

lemma places_snd : t.places.map Prod.snd = (List.range t.items.size).map (· + 1) := by
  rw [← h.listed, places, List.map_flatMap]
  simp only [List.map_map]
  congr 1
  funext m
  exact (List.map_congr_left fun _ _ => rfl).trans (List.map_id _)

lemma pairwise_places : t.places.Pairwise fun x y => x.2 < y.2 := by
  rw [← List.pairwise_map (f := Prod.snd), h.places_snd, List.pairwise_map]
  exact List.pairwise_lt_range.imp Nat.succ_lt_succ

lemma file_mem {m : Module} (hm : m ∈ t.modules.toList) : ∃ i < files, m.file = i + 1 := by
  have := List.mem_map_of_mem (f := Module.file) hm
  rw [h.files] at this
  obtain ⟨i, hi, he⟩ := List.mem_map.1 this
  exact ⟨i, List.mem_range.1 hi, he.symm⟩

lemma place_file {x : FileId × ItemId} (hx : x ∈ t.places) :
    (∃ i < files, x.1 = i + 1) ∧ ∃ it, t.item? x.2 = some it ∧ it.file = x.1 := by
  obtain ⟨m, hm, hx⟩ := List.mem_flatMap.1 hx
  obtain ⟨id, hid, rfl⟩ := List.mem_map.1 hx
  exact ⟨h.file_mem hm, h.placed m hm id hid⟩

lemma mem_places_iff {file : FileId} {id : ItemId} :
    (file, id) ∈ t.places ↔ ∃ it, t.item? id = some it ∧ it.file = file := by
  refine ⟨fun hx => (h.place_file hx).2, ?_⟩
  rintro ⟨it, hit, rfl⟩
  obtain ⟨hpos, hle⟩ := item?_le hit
  have hmem : id ∈ t.places.map Prod.snd := by
    rw [h.places_snd]
    exact List.mem_map.2 ⟨id - 1, List.mem_range.2 (Nat.sub_one_lt_of_le hpos hle),
      Nat.sub_add_cancel hpos⟩
  obtain ⟨⟨file, id'⟩, hx, rfl⟩ := List.mem_map.1 hmem
  obtain ⟨-, it', hit', hf⟩ := h.place_file hx
  rw [hit] at hit'
  obtain rfl := Option.some.inj hit'
  rw [hf]
  exact hx

lemma module_inj {m m' : Module} (hm : m ∈ t.modules.toList) (hm' : m' ∈ t.modules.toList)
    (he : m.file = m'.file) : m = m' := by
  have hnodup : (t.modules.toList.map Module.file).Nodup := by
    rw [h.files]
    exact List.Pairwise.map _ (fun _ _ hne he => hne (Nat.succ.inj he)) List.nodup_range
  exact List.inj_on_of_nodup_map hnodup hm hm' he

lemma mem_items_iff {m : Module} (hm : m ∈ t.modules.toList) {id : ItemId} :
    id ∈ m.items ↔ ∃ it, t.item? id = some it ∧ it.file = m.file := by
  refine ⟨h.placed m hm id, fun hit => ?_⟩
  obtain ⟨m', hm', hx⟩ := List.mem_flatMap.1 (h.mem_places_iff.2 hit)
  obtain ⟨id', hid', he⟩ := List.mem_map.1 hx
  obtain ⟨hfile, rfl⟩ := Prod.mk.inj he
  rwa [← h.module_inj hm' hm hfile]

lemma exists_module {id : ItemId} {it : Item} (hi : t.item? id = some it) :
    ∃ m ∈ t.modules.toList, m.file = it.file := by
  obtain ⟨m, hm, hx⟩ := List.mem_flatMap.1 (h.mem_places_iff.2 ⟨it, hi, rfl⟩)
  obtain ⟨id', -, he⟩ := List.mem_map.1 hx
  exact ⟨m, hm, (Prod.mk.inj he).1⟩

lemma pairwise_items {m : Module} (hm : m ∈ t.modules.toList) : m.items.Pairwise (· < ·) := by
  have hp := (List.pairwise_flatMap.1 h.pairwise_places).1 m hm
  rwa [List.pairwise_map] at hp

end Tree.Numbered

lemma Resolution.Holds.eq {s : SourceSet} {t : Tree} {root : Bytes} {r : Resolution}
    (h : Holds s t root t.places r) :
    r = ⟨t, ImportIndex.ofTree s t root, ⟨t.declared⟩, [], []⟩ := by
  obtain ⟨tree, ⟨edges, direct, reach⟩, ⟨definitions⟩, bindings, firstUses⟩ := r
  obtain ⟨h1, h2, h3, h4, h5, h6, h7⟩ := h
  simp only at h1 h2 h3 h4 h5 h6 h7
  subst h1 h2 h3 h4 h5 h6 h7
  rfl

lemma foldlM_modules {β : Type} (f : FileId → β → ItemId → Except Fault β) (ms : List Module)
    (b : β) : ms.foldlM (fun b m => m.items.foldlM (f m.file) b) b =
      (ms.flatMap fun m => m.items.map fun id => (m.file, id)).foldlM
        (fun b x => f x.1 b x.2) b := by
  induction ms generalizing b with
  | nil => rfl
  | cons m ms ih =>
    rw [List.foldlM_cons, List.flatMap_cons, List.foldlM_append, List.foldlM_map]
    exact bind_congr fun b' => ih b'

/-- **Indexing** never fails on the tree of a set, and this is what it gives. -/
theorem Resolution.index_eq {s : SourceSet} {t : Tree} {next : NodeId} (h : t.Numbered s.size next)
    (root : Bytes) : Resolution.index s t root =
      .ok ⟨t, (ImportIndex.ofTree s t root).consolidate s, ⟨t.declared⟩, [], []⟩ := by
  obtain ⟨r, hr, hh⟩ := foldlM_keeps (Holds s t root) (l := t.places)
    (f := fun r x => registerItem s root x.1 r x.2)
    (fun done x rest r hl hr => by
      have hx : x ∈ t.places := by rw [hl]; simp
      obtain ⟨⟨i, hi, hfile⟩, it, hit, -⟩ := h.place_file hx
      refine hr.step ?_ hit fun y hy he => ?_
      · exact List.mem_map.2 ⟨i, List.mem_range.2 hi, hfile.symm⟩
      · have hp := h.pairwise_places
        rw [hl, List.pairwise_append] at hp
        exact Nat.ne_of_lt (hp.2.2 y hy x List.mem_cons_self) he)
    (b := ⟨t, ImportIndex.empty, DefinitionIndex.empty, [], []⟩)
    ⟨rfl, rfl, rfl, rfl, rfl, rfl, rfl⟩
  simp only [index]
  rw [foldlM_modules, show (t.modules.toList.flatMap _).foldlM _ _ = _ from hr]
  rw [show r = ⟨t, ImportIndex.ofTree s t root, ⟨t.declared⟩, [], []⟩ from hh.eq]
  rfl

end StateBuffer
