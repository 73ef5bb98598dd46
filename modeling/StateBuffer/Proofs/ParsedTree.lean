import StateBuffer.Proofs.Syntax.Spans

/-!
The tree of all files of a set, with or without syntax errors. Every module passes the check of its
places. The nodes of all items, by file and then by place, are the numbers from zero on: nothing
that was read and dropped again has left a gap. Every stored initializer is the value of one
definition, and stands in the scope of it.
-/

namespace StateBuffer

open Grammar

/-- The nodes an item takes: a definition is followed by its value. -/
def ItemBody.nodes : ItemBody → List NodeId
  | .imports i => [i.node]
  | .definition d => [d.node, d.node + 1]

def ItemBody.value? : ItemBody → Option ExprId
  | .imports _ => none
  | .definition d => some d.value

namespace Tree

/-- The nodes of a stored item and of its value. -/
def nodesOf (t : Tree) (id : ItemId) : List NodeId :=
  match t.item? id with
  | some { body := .imports i, .. } => [i.node]
  | some { body := .definition d, .. } => d.node :: ((t.expr? d.value).map Expr.node).toList
  | none => []

/-- The nodes of all items in order are the numbers below `next`, and their values are all stored
initializers in order. -/
structure Dense (t : Tree) (next : NodeId) : Prop where
  nodes : t.items.toList.flatMap (fun it => it.body.nodes) = List.range next
  values : t.items.toList.filterMap (fun it => it.body.value?) =
    (List.range t.exprs.size).map (· + 1)

/-! ### Storing items -/

lemma listed_arenas (t : Tree) (file : FileId) (it : ParsedItem) :
    (t.listed file it).items = (t.store file it).2.items ∧
      (t.listed file it).exprs = (t.store file it).2.exprs := by
  unfold listed push
  split_ifs
  · exact ⟨rfl, rfl⟩
  · exact ⟨rfl, rfl⟩

lemma nodes_bodyOf {it : ParsedItem} {node next : NodeId} (h : it.Spans node next)
    (value : ExprId) : List.range node ++ (bodyOf value it).2.nodes = List.range next := by
  cases it with
  | imports span i =>
    obtain ⟨rfl, rfl⟩ := h
    exact List.range_succ.symm
  | definition span d e =>
    obtain ⟨hnode, -, -, rfl⟩ := h
    have hnodes : (bodyOf value (.definition span d e)).2.nodes = [node, node + 1] := by
      rw [← hnode]
      rfl
    rw [hnodes, List.range_succ, List.range_succ, List.append_assoc]
    rfl

/-- **One item** takes the next nodes, and its value the next number. -/
lemma Dense.step {t : Tree} {file : FileId} {node next : NodeId} (h : t.Dense node)
    {it : ParsedItem} (hs : it.Spans node next) : (t.listed file it).Dense next := by
  obtain ⟨hitems, hexprs⟩ := listed_arenas t file it
  rw [store_items] at hitems
  constructor
  case nodes =>
    rw [hitems, Array.toList_push, List.flatMap_append, h.nodes, ← nodes_bodyOf hs (t.exprs.size + 1)]
    simp
  case values =>
    rw [hitems, hexprs, Array.toList_push, List.filterMap_append, h.values]
    cases it with
    | imports span i =>
      have hsame : (t.store file (.imports span i)).2.exprs = t.exprs := rfl
      rw [hsame]
      simp [bodyOf, ItemBody.value?]
    | definition span d e =>
      have hpush : (t.store file (.definition span d e)).2.exprs = t.exprs.push e := rfl
      rw [hpush, Array.size_push, List.range_succ, List.map_append]
      simp [bodyOf, ItemBody.value?]

lemma Dense.storeAll {t : Tree} {file : FileId} {node last : NodeId} {ts : List Lexeme}
    {items : List ParsedItem} (h : t.Dense node) (hm : ModuleOf file node ts items last) :
    (t.storeAll file items).2.Dense last := by
  induction hm generalizing t with
  | nil => exact h
  | cons hi _ ih =>
    rw [storeAll_cons]
    exact ih (h.step (spans_of_itemOf hi))

/-- **One file** takes the next nodes, also if it ends in an error. -/
lemma Dense.addFile {t : Tree} {node : NodeId} (h : t.Dense node) (id : FileId)
    (content : Bytes) :
    (t.addFile id content node).2.Dense (t.addFile id content node).1.nextId := by
  obtain ⟨⟨ts, n, hm, hmoved⟩, -, -⟩ := items_sound 0 (c := Cursor.start id content node) rfl rfl
  have hnext : (t.addFile id content node).1.nextId = node + n := hmoved.nextId
  have hstart : ({ t.withModule id with
      names := t.names.internAll (file id content node).names } : Tree).Dense node :=
    ⟨h.nodes, h.values⟩
  rw [hnext]
  exact hstart.storeAll hm

lemma checkItems_addFile (t : Tree) (id : FileId) {content : Bytes}
    (hsize : content.length < 2 ^ 32) (node : NodeId) :
    (t.addFile id content node).2.checkItems id content.length 0 (-1)
      (t.addFile id content node).1.items = .ok () := by
  obtain ⟨⟨ts, n, hm, hmoved⟩, -, -⟩ := items_sound 0 (c := Cursor.start id content node) rfl rfl
  obtain ⟨-, -, hstored⟩ := addFile_eq t id content node
  have hlexed : Lexed content.length content ts _ := size_start id content node ▸ hmoved.lexed
  have hplaced := (hlexed.placed (Nat.le_refl _)).mono (Nat.sub_le _ _)
  refine checkItems_moduleOf hsize hm hstored hplaced (Nat.zero_le _) ?_
  show (-1 : Int) < (node : Int)
  omega

lemma checkSpans_of_module {t : Tree} {file : FileId} {size : Nat} {m : Module}
    (hm : t.modules.toList[file - 1]? = some m) :
    t.checkSpans file size = t.checkItems file size 0 (-1) m.items := by
  rw [Array.getElem?_toList] at hm
  simp [checkSpans, hm]

end Tree

/-! ### All files -/

namespace ParsedSources

/-- What was read from some files: their numbers and nodes are in order, and their places pass. -/
structure Sound (p : ParsedSources) (fs : List SourceFile) : Prop where
  numbered : p.tree.Numbered fs.length p.nextId
  dense : p.tree.Dense p.nextId
  checked : ∀ (j : Nat) f, fs[j]? = some f → f.content.length < 2 ^ 32 →
    p.tree.checkSpans (j + 1) f.content.length = .ok ()

lemma sound_empty : empty.Sound [] :=
  ⟨Tree.numbered_empty, ⟨rfl, rfl⟩, by simp⟩

/-- **One more file** keeps what was read sound. -/
lemma Sound.add {p : ParsedSources} {fs : List SourceFile} (h : p.Sound fs) {f : SourceFile}
    (hid : f.id = fs.length + 1) : (p.add f).Sound (fs ++ [f]) := by
  have hnumbered := h.numbered.addFile f.content
  have hmodules := h.numbered.addFile_modules f.content
  have hlen : p.tree.modules.toList.length = fs.length := by
    simpa using congrArg List.length h.numbered.files
  have hext := Tree.extends_addFile p.tree (fs.length + 1) f.content p.nextId
  constructor
  case numbered =>
    simp only [ParsedSources.add, hid, List.length_append, List.length_singleton]
    exact hnumbered
  case dense => exact h.dense.addFile f.id f.content
  case checked =>
    intro j g hg hsize
    simp only [ParsedSources.add, hid]
    by_cases hj : j < fs.length
    · -- an earlier file: its module is still there, and more was stored
      rw [List.getElem?_append_left hj] at hg
      have hpassed := h.checked j g hg hsize
      obtain ⟨m, hm⟩ : ∃ m, p.tree.modules.toList[j]? = some m :=
        ⟨_, List.getElem?_eq_getElem (by omega)⟩
      have hm' : (p.tree.addFile (fs.length + 1) f.content p.nextId).2.modules.toList[j]? =
          some m := by
        rw [hmodules, List.getElem?_append_left (by omega), hm]
      rw [Tree.checkSpans_of_module hm] at hpassed
      rw [Tree.checkSpans_of_module hm']
      exact Tree.checkItems_of_extends hext hpassed
    · obtain rfl : j = fs.length := by
        have := (List.getElem?_eq_some_iff.1 hg).1
        simp only [List.length_append, List.length_singleton] at this
        omega
      obtain rfl : f = g := by simpa using hg
      have hm : (p.tree.addFile (fs.length + 1) f.content p.nextId).2.modules.toList[fs.length]? =
          some ⟨fs.length + 1, (p.tree.addFile (fs.length + 1) f.content p.nextId).1.items⟩ := by
        rw [hmodules, ← hlen]
        simp
      rw [Tree.checkSpans_of_module hm]
      exact Tree.checkItems_addFile p.tree (fs.length + 1) hsize p.nextId

lemma Sound.foldl {p : ParsedSources} {done fs : List SourceFile} (h : p.Sound done)
    (hids : ∀ j f, fs[j]? = some f → f.id = done.length + j + 1) :
    (fs.foldl ParsedSources.add p).Sound (done ++ fs) := by
  induction fs generalizing p done with
  | nil => simpa using h
  | cons f fs ih =>
    have hadd := h.add (hids 0 f rfl)
    have hrest := ih hadd fun j g hg => by
      rw [hids (j + 1) g hg, List.length_append, List.length_singleton]
      omega
    simpa using hrest

end ParsedSources

lemma SourceSet.Ordered.id_eq {s : SourceSet} (h : s.Ordered) {j : Nat} {f : SourceFile}
    (hf : s.files.toList[j]? = some f) : f.id = j + 1 := by
  have hlt : j < s.files.size := by simpa using (List.getElem?_eq_some_iff.1 hf).1
  have hj := congrArg (fun l : List FileId => l[j]?) h
  simpa [hf, List.getElem?_range hlt] using hj

lemma SourceSet.Ordered.get?_id {s : SourceSet} (h : s.Ordered) {f : SourceFile}
    (hf : f ∈ s.files.toList) : s.get? f.id = some f := by
  obtain ⟨j, hj⟩ := List.getElem?_of_mem hf
  rw [h.id_eq hj, get?, if_neg (Nat.succ_ne_zero j), Nat.add_sub_cancel]
  simpa using hj

lemma SourceSet.sound_parse {s : SourceSet} (h : s.Ordered) : s.parse.Sound s.files.toList := by
  have hids : ∀ j f, s.files.toList[j]? = some f → f.id = ([] : List SourceFile).length + j + 1 := by
    intro j f hf
    rw [h.id_eq hf, List.length_nil, Nat.zero_add]
  exact ParsedSources.sound_empty.foldl hids

/-! ### The nodes in order -/

namespace Tree.Numbered

variable {t : Tree} {files : Nat} {next : NodeId} (h : t.Numbered files next)

include h

lemma nodesOf_eq {id : ItemId} {it : Item} (hi : t.item? id = some it) :
    t.nodesOf id = it.body.nodes := by
  obtain ⟨file, span, i | d⟩ := it
  · simp [nodesOf, hi, ItemBody.nodes]
  · obtain ⟨-, e, he, hvalue⟩ := h.valued hi rfl
    simp [nodesOf, hi, he, ItemBody.nodes, hvalue.node]

lemma flatMap_nodesOf :
    (t.modules.toList.flatMap fun m => m.items.flatMap t.nodesOf) =
      t.items.toList.flatMap fun it => it.body.nodes := by
  have hitems : ((List.range t.items.size).map fun i => t.nodesOf (i + 1)) =
      t.items.toList.map fun it => it.body.nodes := by
    refine List.ext_getElem? fun i => ?_
    by_cases hi : i < t.items.size
    · have hitem : t.item? (i + 1) = some t.items[i] := by simp [item?, hi]
      simp [hi, h.nodesOf_eq hitem]
    · simp [hi]
  calc (t.modules.toList.flatMap fun m => m.items.flatMap t.nodesOf)
      = (t.modules.toList.flatMap Module.items).flatMap t.nodesOf := by
        rw [List.flatMap_assoc]
    _ = (List.range t.items.size).flatMap fun i => t.nodesOf (i + 1) := by
        rw [h.listed, List.flatMap_map]
    _ = t.items.toList.flatMap fun it => it.body.nodes := by
        rw [List.flatMap_def, hitems, ← List.flatMap_def]

end Tree.Numbered

/-- **The tree of all files**, each shorter than `2 ^ 32` bytes and with or without a syntax error.
Every file has a module, in order, and its places pass the check. The nodes of all items and their
values, by file and then by place, are the numbers from zero up to the next free one. Nothing else
is stored: all items are listed in order, and all initializers are values of definitions in order. A
definition is its own scope, and the scope of its value. -/
theorem SourceSet.parse_places {s : SourceSet} (hs : s.Ordered)
    (hsize : ∀ f ∈ s.files.toList, f.content.length < 2 ^ 32) :
    s.parse.tree.modules.toList.map Module.file = s.files.toList.map SourceFile.id ∧
      (∀ f ∈ s.files.toList, s.parse.tree.checkSpans f.id f.content.length = .ok ()) ∧
      (s.parse.tree.modules.toList.flatMap fun m => m.items.flatMap s.parse.tree.nodesOf) =
        List.range s.parse.nextId ∧
      s.parse.tree.modules.toList.flatMap Module.items =
        (List.range s.parse.tree.items.size).map (· + 1) ∧
      s.parse.tree.items.toList.filterMap (fun it => it.body.value?) =
        (List.range s.parse.tree.exprs.size).map (· + 1) ∧
      ∀ id file span d, s.parse.tree.item? id = some ⟨file, span, .definition d⟩ →
        d.scope = [d.node] ∧
          ∃ e, s.parse.tree.expr? d.value = some e ∧ e.scope = d.scope := by
  have hsound := sound_parse hs
  have hnumbered := hsound.numbered
  refine ⟨?_, ?_, ?_, hnumbered.listed, hsound.dense.values, ?_⟩
  · rw [hnumbered.files, Array.length_toList]
    exact (show _ = _ from hs).symm
  · intro f hf
    obtain ⟨j, hj⟩ := List.getElem?_of_mem hf
    rw [hs.id_eq hj]
    exact hsound.checked j f hj (hsize f hf)
  · rw [hnumbered.flatMap_nodesOf]
    exact hsound.dense.nodes
  · intro id file span d hi
    obtain ⟨hscope, e, he, hvalue⟩ := hnumbered.valued hi rfl
    exact ⟨hscope, e, he, by rw [hvalue.scope, hscope]⟩

/-- A file that stops at a syntax error after an import and a definition, and another one. -/
def brokenOff : List SourceText :=
  [⟨"a.gpex", "a", "pub import ~.b; var x = -1;\nconst Y = ;", false⟩,
    ⟨"b.gpex", "b", "import a;pub var y=x;", false⟩]

/-- The import and the definition before the error are kept, and the nodes of the next file follow
theirs. -/
theorem SourceSet.parse_places_brokenOff :
    (Project.sourcesOf brokenOff).parse.failures = 1 ∧
      (∀ f ∈ (Project.sourcesOf brokenOff).files.toList,
        (Project.sourcesOf brokenOff).parse.tree.checkSpans f.id f.content.length = .ok ()) ∧
      ((Project.sourcesOf brokenOff).parse.tree.modules.toList.flatMap fun m =>
        m.items.flatMap (Project.sourcesOf brokenOff).parse.tree.nodesOf) = [0, 1, 2, 3, 4, 5] := by
  have hnext : (Project.sourcesOf brokenOff).parse.nextId = 6 := by decide +kernel
  obtain ⟨-, hchecked, hnodes, -⟩ := SourceSet.parse_places (Project.ordered_sourcesOf brokenOff)
    (by decide +kernel)
  refine ⟨by decide +kernel, hchecked, ?_⟩
  rw [hnodes, hnext]
  rfl

end StateBuffer
