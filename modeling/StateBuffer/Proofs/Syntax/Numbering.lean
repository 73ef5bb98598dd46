import StateBuffer.Analysis
import StateBuffer.Project.Sources
import StateBuffer.Proofs.Syntax.Acceptance

/-!
The numbers of files, items and nodes after all files of a set were read, with or without syntax
errors. The items of all modules in order are numbered from one without a gap, each stands in the
module of its file, node numbers ascend along them, and a definition is followed by its value.
-/

namespace StateBuffer

def ItemBody.node : ItemBody → NodeId
  | .imports i => i.node
  | .definition d => d.node

/-- The first node after those of an item: a definition is followed by its value. -/
def ItemBody.nextNode : ItemBody → NodeId
  | .imports i => i.node + 1
  | .definition d => d.node + 2

/-- The value of the definition with node `owner`, which comes right before it. -/
structure Expr.Initializes (e : Expr) (owner : NodeId) : Prop where
  node : e.node = owner + 1
  scope : e.scope = [owner]
  readable : ∀ digits, e.body = .literal digits → ∃ i, Literal.integer? digits = some i

/-- A tree of files `1` to `files`, with nodes below `next`. -/
structure Tree.Numbered (t : Tree) (files : Nat) (next : NodeId) : Prop where
  files : t.modules.toList.map Module.file = (List.range files).map (· + 1)
  listed : t.modules.toList.flatMap Module.items = (List.range t.items.size).map (· + 1)
  placed : ∀ m ∈ t.modules.toList, ∀ id ∈ m.items, ∃ it, t.item? id = some it ∧ it.file = m.file
  valued : ∀ {id it d}, t.item? id = some it → it.body = .definition d →
    d.scope = [d.node] ∧ ∃ e, t.expr? d.value = some e ∧ e.Initializes d.node
  ascending : ∀ {id id' it it'}, t.item? id = some it → t.item? id' = some it' → id < id' →
    it.body.nextNode ≤ it'.body.node
  bounded : ∀ {id it}, t.item? id = some it → it.body.nextNode ≤ next

/-! ### The numbers of one item -/

namespace Grammar

/-- The item takes the nodes from `node` up to but not including `next`. -/
def ParsedItem.Spans (node next : NodeId) : ParsedItem → Prop
  | .imports _ i => i.node = node ∧ next = node + 1
  | .definition _ d value =>
    d.node = node ∧ d.scope = [node] ∧ value.Initializes node ∧ next = node + 2

lemma toNat?_digits {s : Bytes} (hne : s ≠ []) (h : ∀ b ∈ s, Bytes.isDigit b = true) :
    ∃ n, Bytes.toNat? s = some n := by
  have hall : s.all Bytes.isDigit = true := List.all_eq_true.2 h
  have hempty : s.isEmpty = false := by cases s <;> simp_all
  simp [Bytes.toNat?, hall, hempty]

lemma integer?_of_digits {s : Bytes} (hne : s ≠ []) (h : ∀ b ∈ s, Bytes.isDigit b = true) :
    ∃ i, Literal.integer? s = some i := by
  obtain ⟨n, hn⟩ := toNat?_digits hne h
  obtain ⟨b, r, rfl⟩ := List.exists_cons_of_ne_nil hne
  have hb := h b List.mem_cons_self
  have h1 : b ≠ 0x2D := by rintro rfl; simp [Bytes.isDigit] at hb
  have h2 : b ≠ 0x2B := by rintro rfl; simp [Bytes.isDigit] at hb
  refine ⟨n, ?_⟩
  unfold Literal.integer?
  split
  · simp_all
  · simp_all
  · simp [hn]

lemma integer?_of_literal {text : Bytes} (h : IsLiteral text) :
    ∃ i, Literal.integer? (text.filter (· ≠ 0x5F)) = some i := by
  obtain ⟨sign, d, r, rfl, hsign, hd, hr⟩ := h
  have hd' : d ≠ 0x5F := by rintro rfl; simp [Bytes.isDigit] at hd
  have hdigits : ∀ b ∈ d :: r.filter (· ≠ 0x5F), Bytes.isDigit b = true := by
    intro b hb
    rcases List.mem_cons.1 hb with rfl | hb
    · exact hd
    · obtain ⟨hb, hne⟩ := List.mem_filter.1 hb
      simpa [isDigitByte, show b ≠ 0x5F by simpa using hne] using hr b hb
  have he : (d :: r).filter (· ≠ 0x5F) = d :: r.filter (· ≠ 0x5F) := by simp [hd']
  rcases hsign with rfl | rfl
  · rw [List.nil_append, he]
    exact integer?_of_digits (by simp) hdigits
  · obtain ⟨n, hn⟩ := toNat?_digits (by simp) hdigits
    have hminus : ([0x2D] ++ d :: r : Bytes).filter (· ≠ 0x5F) =
        0x2D :: (d :: r).filter (· ≠ 0x5F) := by simp
    rw [hminus, he]
    refine ⟨-n, ?_⟩
    simp only [Literal.integer?, hn]
    rfl

lemma initializes_of_exprOf {file : FileId} {owner : NodeId} {t : Lexeme} {value : Expr}
    (h : ExprOf file (owner + 1) [owner] t value) : value.Initializes owner := by
  cases h with
  | literal h =>
    refine ⟨rfl, rfl, fun digits hd => ?_⟩
    obtain rfl := ExprBody.literal.inj hd
    exact integer?_of_literal h
  | name h => exact ⟨rfl, rfl, fun _ hd => ExprBody.noConfusion hd⟩

lemma spans_of_itemOf {file : FileId} {node next : NodeId} {ts : List Lexeme} {it : ParsedItem}
    (h : ItemOf file node ts it next) : it.Spans node next := by
  cases h with
  | imports => exact ⟨rfl, rfl⟩
  | var _ _ hb =>
    obtain ⟨-, -, hv, -⟩ := hb
    exact ⟨rfl, rfl, initializes_of_exprOf hv, rfl⟩
  | const _ hb =>
    obtain ⟨-, -, hv, -⟩ := hb
    exact ⟨rfl, rfl, initializes_of_exprOf hv, rfl⟩

end Grammar

/-! ### Storing an item -/

namespace Tree

open Grammar

/-- What an item is stored as when the next initializer has the number `value`. -/
def bodyOf (value : ExprId) : ParsedItem → Span × ItemBody
  | .imports span i => (span, .imports i)
  | .definition span d _ => (span, .definition { d with value })

lemma store_fst (t : Tree) (file : FileId) (it : ParsedItem) :
    (t.store file it).1 = t.items.size + 1 := by
  cases it <;> rfl

lemma store_items (t : Tree) (file : FileId) (it : ParsedItem) :
    (t.store file it).2.items =
      t.items.push ⟨file, (bodyOf (t.exprs.size + 1) it).1, (bodyOf (t.exprs.size + 1) it).2⟩ := by
  cases it <;> rfl

lemma store_modules (t : Tree) (file : FileId) (it : ParsedItem) :
    (t.store file it).2.modules = t.modules := by
  cases it <;> rfl

lemma withModule_of_le {t : Tree} {file : FileId} (h : file ≤ t.modules.size) :
    t.withModule file = t := by
  simp [withModule, Nat.sub_eq_zero_of_le h]

lemma modify_last {α : Type} (f : α → α) (l : List α) (a : α) :
    (l ++ [a]).modify l.length f = l ++ [f a] :=
  List.modifyTailIdx_add (List.modifyHead f) 0 l [a]

lemma listed_eq {t : Tree} {ms : List Module} {ids : List ItemId}
    (h : t.modules.toList = ms ++ [⟨ms.length + 1, ids⟩]) (it : ParsedItem) :
    (t.listed (ms.length + 1) it).items = (t.store (ms.length + 1) it).2.items ∧
      (t.listed (ms.length + 1) it).modules.toList =
        ms ++ [⟨ms.length + 1, ids ++ [t.items.size + 1]⟩] := by
  have hsize : t.modules.size = ms.length + 1 := by
    rw [← Array.length_toList, h]
    simp
  have hmod : (t.store (ms.length + 1) it).2.withModule (ms.length + 1) =
      (t.store (ms.length + 1) it).2 :=
    withModule_of_le (Nat.le_of_eq (by rw [store_modules, hsize]))
  simp only [listed, push, if_neg (Nat.succ_ne_zero _), hmod, store_modules, store_fst]
  refine ⟨trivial, ?_⟩
  rw [Array.toList_modify, h, Nat.add_sub_cancel, modify_last]

lemma storeAll_modules {t : Tree} {ms : List Module} {ids : List ItemId}
    (h : t.modules.toList = ms ++ [⟨ms.length + 1, ids⟩]) (items : List ParsedItem) :
    (t.storeAll (ms.length + 1) items).2.modules.toList =
      ms ++ [⟨ms.length + 1, ids ++ (t.storeAll (ms.length + 1) items).1⟩] := by
  induction items generalizing t ids with
  | nil => simpa [storeAll_nil] using h
  | cons it items ih =>
    rw [storeAll_cons, ih (listed_eq h it).2, store_fst, List.append_assoc]
    rfl

lemma item?_push {t t' : Tree} {new it : Item} (h : t'.items = t.items.push new) {id : Nat}
    (hi : t'.item? id = some it) :
    t.item? id = some it ∨ id = t.items.size + 1 ∧ it = new := by
  unfold item? at hi ⊢
  split_ifs at hi ⊢ with h0
  rw [h, Array.getElem?_push] at hi
  split_ifs at hi with h1
  · have hid : id = t.items.size + 1 := by
      rw [← h1]
      exact (Nat.succ_pred_eq_of_ne_zero h0).symm
    exact .inr ⟨hid, (Option.some.inj hi).symm⟩
  · exact .inl hi

lemma item?_le {t : Tree} {id : Nat} {it : Item} (h : t.item? id = some it) :
    0 < id ∧ id ≤ t.items.size := by
  unfold item? at h
  split_ifs at h with h0
  have hlt : id - 1 < t.items.size := (Array.getElem?_eq_some_iff.1 h).1
  exact ⟨Nat.pos_of_ne_zero h0, Nat.le_of_pred_lt hlt⟩

lemma expr?_store (t : Tree) (file : FileId) (span : Span) (d : Definition) (value : Expr) :
    (t.store file (.definition span d value)).2.expr? (t.exprs.size + 1) = some value :=
  (extends_addItem (t.addExpr value).2 file span _).expr (expr?_addExpr t value)

lemma numbers_bodyOf {it : ParsedItem} {node next : NodeId} (h : it.Spans node next)
    (value : ExprId) :
    (bodyOf value it).2.node = node ∧ (bodyOf value it).2.nextNode = next := by
  cases it with
  | imports span i => exact ⟨h.1, by rw [h.2, ← h.1]; rfl⟩
  | definition span d e => exact ⟨h.1, by rw [h.2.2.2, ← h.1]; rfl⟩

lemma Numbered.last {t : Tree} {files : Nat} {next : NodeId} (h : t.Numbered (files + 1) next) :
    ∃ ms ids, t.modules.toList = ms ++ [⟨files + 1, ids⟩] ∧ ms.length = files := by
  have hlen : t.modules.toList.length = files + 1 := by
    simpa using congrArg List.length h.files
  obtain ⟨ms, m, hm⟩ := List.eq_nil_or_concat t.modules.toList |>.resolve_left
    (by intro he; simp [he] at hlen)
  rw [List.concat_eq_append] at hm
  have hms : ms.length = files := by
    rw [hm, List.length_append] at hlen
    simpa using hlen
  have hfile := h.files
  rw [hm, List.range_succ, List.map_append, List.map_append] at hfile
  have hlast := (List.append_inj' hfile rfl).2
  refine ⟨ms, m.items, ?_, hms⟩
  rw [hm, ← show m.file = files + 1 by simpa using hlast]

/-- **One item** stored and listed keeps the numbers in order. -/
lemma Numbered.step {t : Tree} {files : Nat} {node next : NodeId}
    (h : t.Numbered (files + 1) node) {it : ParsedItem} (hs : it.Spans node next) :
    (t.listed (files + 1) it).Numbered (files + 1) next := by
  obtain ⟨ms, ids, hms, rfl⟩ := h.last
  obtain ⟨hitems, hmodules⟩ := listed_eq hms it
  have hitems' := hitems.trans (store_items t _ it)
  have hext := (extends_store t (ms.length + 1) it).trans (extends_listed t (ms.length + 1) it)
  obtain ⟨hnode, hnext⟩ := numbers_bodyOf hs (t.exprs.size + 1)
  have hnew : (t.listed (ms.length + 1) it).item? (t.items.size + 1) =
      some ⟨ms.length + 1, (bodyOf (t.exprs.size + 1) it).1, (bodyOf (t.exprs.size + 1) it).2⟩ := by
    simp [item?, hitems']
  have hle : node ≤ next := by
    cases it with
    | imports span i => rw [hs.2]; exact Nat.le_succ node
    | definition span d e => rw [hs.2.2.2]; exact Nat.le_add_right node 2
  constructor
  case files =>
    have := h.files
    rw [hms] at this
    rw [hmodules, ← this]
    simp
  case listed =>
    have := h.listed
    rw [hms] at this
    rw [hmodules, hitems', Array.size_push, List.range_succ, List.map_append, ← this]
    simp
  case placed =>
    intro m hm id hid
    rw [hmodules] at hm
    have hold : ∀ m ∈ t.modules.toList, ∀ id ∈ m.items,
        ∃ x, (t.listed (ms.length + 1) it).item? id = some x ∧ x.file = m.file := by
      intro m hm id hid
      obtain ⟨x, hx, hf⟩ := h.placed m hm id hid
      exact ⟨x, hext.item hx, hf⟩
    rw [hms] at hold
    rcases List.mem_append.1 hm with hm | hm
    · exact hold m (List.mem_append_left _ hm) id hid
    · obtain rfl := List.mem_singleton.1 hm
      rcases List.mem_append.1 hid with hid | hid
      · exact hold ⟨ms.length + 1, ids⟩ (by simp) id hid
      · obtain rfl := List.mem_singleton.1 hid
        exact ⟨_, hnew, rfl⟩
  case valued =>
    intro id x d hx hd
    rcases item?_push hitems' hx with hx | ⟨-, rfl⟩
    · obtain ⟨h1, e, h2, h3⟩ := h.valued hx hd
      exact ⟨h1, e, hext.expr h2, h3⟩
    · cases it with
      | imports span i => exact ItemBody.noConfusion hd
      | definition span d' e =>
        obtain rfl := ItemBody.definition.inj hd
        obtain ⟨h1, h2, h3, -⟩ := hs
        rw [← h1] at h2 h3
        refine ⟨h2, e, ?_, h3⟩
        exact (extends_listed t _ _).expr (expr?_store t _ span d' e)
  case ascending =>
    intro id id' x x' hx hx' hlt
    rcases item?_push hitems' hx' with hx' | ⟨rfl, rfl⟩
    · rcases item?_push hitems' hx with hx | ⟨rfl, rfl⟩
      · exact h.ascending hx hx' hlt
      · have h1 := (item?_le hx').2
        exact absurd (Nat.lt_of_lt_of_le hlt h1) (by simp)
    · rcases item?_push hitems' hx with hx | ⟨rfl, rfl⟩
      · rw [hnode]
        exact h.bounded hx
      · exact absurd hlt (Nat.lt_irrefl _)
  case bounded =>
    intro id x hx
    rcases item?_push hitems' hx with hx | ⟨-, rfl⟩
    · exact Nat.le_trans (h.bounded hx) hle
    · exact Nat.le_of_eq hnext

/-! ### Whole files -/

lemma Numbered.storeAll {t : Tree} {files : Nat} {node last : NodeId} {file : FileId}
    {ts : List Lexeme} {items : List ParsedItem} (h : t.Numbered (files + 1) node)
    (hm : ModuleOf file node ts items last) :
    (t.storeAll (files + 1) items).2.Numbered (files + 1) last := by
  induction hm generalizing t with
  | nil => exact h
  | cons hi _ ih =>
    rw [storeAll_cons]
    exact ih (h.step (spans_of_itemOf hi))

lemma Numbered.withModule {t : Tree} {files : Nat} {node : NodeId} (h : t.Numbered files node)
    (names : Interner) :
    ({ t.withModule (files + 1) with names } : Tree).Numbered (files + 1) node := by
  have hsize : t.modules.size = files := by
    simpa using congrArg List.length h.files
  have hmodules : (t.withModule (files + 1)).modules.toList =
      t.modules.toList ++ [⟨files + 1, []⟩] := by
    simp [Tree.withModule, hsize]
  constructor
  case files =>
    show (t.withModule (files + 1)).modules.toList.map Module.file = _
    rw [hmodules, List.map_append, h.files, List.range_succ, List.map_append]
    rfl
  case listed =>
    show (t.withModule (files + 1)).modules.toList.flatMap Module.items = _
    rw [hmodules, List.flatMap_append, h.listed]
    simp [Tree.withModule]
  case placed =>
    intro m hm id hid
    change m ∈ (t.withModule (files + 1)).modules.toList at hm
    rw [hmodules] at hm
    rcases List.mem_append.1 hm with hm | hm
    · exact h.placed m hm id hid
    · obtain rfl := List.mem_singleton.1 hm
      simp at hid
  case valued => exact h.valued
  case ascending => exact h.ascending
  case bounded => exact h.bounded

/-- **One file** read into the tree keeps the numbers in order, also if it ends in an error. -/
lemma Numbered.addFile {t : Tree} {files : Nat} {node : NodeId} (h : t.Numbered files node)
    (content : Bytes) :
    (t.addFile (files + 1) content node).2.Numbered (files + 1)
      (t.addFile (files + 1) content node).1.nextId := by
  obtain ⟨⟨ts, n, hm, hmoved⟩, -, -⟩ :=
    items_sound 0 (c := Cursor.start (files + 1) content node) rfl rfl
  have hnext : (t.addFile (files + 1) content node).1.nextId = node + n := hmoved.nextId
  rw [hnext]
  exact (h.withModule _).storeAll hm

lemma extends_addFile (t : Tree) (id : FileId) (content : Bytes) (node : NodeId) :
    Extends t (t.addFile id content node).2 := by
  have hstart : Extends t { t.withModule id with
      names := t.names.internAll (file id content node).names } := ⟨fun h => h, fun h => h⟩
  exact hstart.trans (extends_storeAll _ id _)

lemma Numbered.addFile_modules {t : Tree} {files : Nat} {node : NodeId} (h : t.Numbered files node)
    (content : Bytes) :
    (t.addFile (files + 1) content node).2.modules.toList = t.modules.toList ++
      [⟨files + 1, (t.addFile (files + 1) content node).1.items⟩] := by
  have hlen : t.modules.toList.length = files := by
    simpa using congrArg List.length h.files
  have hmodules : ({ t.withModule (files + 1) with
      names := t.names.internAll (file (files + 1) content node).names } : Tree).modules.toList =
        t.modules.toList ++ [⟨t.modules.toList.length + 1, []⟩] := by
    have hsize : t.modules.size = files := by simpa using hlen
    simp [Tree.withModule, hsize]
  have hall := storeAll_modules hmodules (file (files + 1) content node).items
  rw [hlen] at hall
  exact hall

lemma numbered_empty : Tree.empty.Numbered 0 0 := by
  constructor <;> simp [Tree.empty, item?]

end Tree

/-- The files of a set have the numbers from one on. -/
def SourceSet.Ordered (s : SourceSet) : Prop :=
  s.files.toList.map SourceFile.id = (List.range s.files.size).map (· + 1)

lemma ParsedSources.numbered_foldl {p : ParsedSources} {files : Nat} {fs : List SourceFile}
    (h : p.tree.Numbered files p.nextId)
    (hids : fs.map SourceFile.id = (List.range fs.length).map fun i => files + i + 1) :
    (fs.foldl ParsedSources.add p).tree.Numbered (files + fs.length)
      (fs.foldl ParsedSources.add p).nextId := by
  induction fs generalizing p files with
  | nil => exact h
  | cons f fs ih =>
    rw [List.map_cons, List.length_cons, List.range_succ_eq_map, List.map_cons, List.map_map,
      List.cons.injEq] at hids
    have hid : f.id = files + 1 := hids.1
    have hadd : (p.add f).tree.Numbered (files + 1) (p.add f).nextId := by
      simp only [ParsedSources.add, hid]
      exact h.addFile f.content
    have hrest := ih hadd (hids.2.trans (List.map_congr_left fun i _ => by
      show files + (i + 1) + 1 = files + 1 + i + 1
      omega))
    rw [List.foldl_cons, List.length_cons, Nat.add_comm fs.length, ← Nat.add_assoc]
    exact hrest

/-- **All files** read into one tree leave its numbers in order. -/
theorem SourceSet.numbered_parse {s : SourceSet} (h : s.Ordered) :
    s.parse.tree.Numbered s.size s.parse.nextId := by
  have := ParsedSources.numbered_foldl (p := ParsedSources.empty) Tree.numbered_empty
    (h.trans (by simp))
  rwa [Nat.zero_add, Array.length_toList] at this

def Project.sourcesOf (texts : List SourceText) : SourceSet :=
  texts.foldl Project.storeSource SourceSet.empty

lemma SourceSet.eq_store_of_add {s : SourceSet} {path dotPath content : Bytes} {flags : FileFlags}
    {stored : FileId × SourceSet} (h : s.add path dotPath content flags = .ok stored) :
    stored = s.store path dotPath content flags := by
  unfold add at h
  split_ifs at h
  exact (Except.ok.inj h).symm

lemma Project.eq_storeSource_of_addSource {s s' : SourceSet} {f : SourceText}
    (h : addSource s f = .ok s') : s' = storeSource s f := by
  unfold addSource at h
  cases hadd : s.add f.path f.dotPath f.content
      (if f.hadMark then FileFlags.byteOrderMark else 0) with
  | error e =>
    rw [hadd] at h
    cases h
  | ok stored =>
    rw [hadd] at h
    rw [← Except.ok.inj h, SourceSet.eq_store_of_add hadd]
    rfl

lemma Project.eq_foldl_of_foldlM_addSource {texts : List SourceText} {s s' : SourceSet}
    (h : texts.foldlM addSource s = .ok s') : s' = texts.foldl storeSource s := by
  induction texts generalizing s with
  | nil => exact (Except.ok.inj h).symm
  | cons f fs ih =>
    rw [List.foldlM_cons] at h
    cases hadd : addSource s f with
    | error e =>
      rw [hadd] at h
      cases h
    | ok s1 =>
      rw [hadd] at h
      obtain rfl := eq_storeSource_of_addSource hadd
      exact ih h

lemma SourceSet.Ordered.store {s : SourceSet} (h : s.Ordered) (path dotPath content : Bytes)
    (flags : FileFlags) : (s.store path dotPath content flags).2.Ordered := by
  simp only [SourceSet.Ordered, SourceSet.store, Array.toList_push, Array.size_push, List.map_append,
    List.range_succ]
  rw [show s.files.toList.map SourceFile.id = _ from h]
  rfl

theorem Project.ordered_sourcesOf (texts : List SourceText) : (sourcesOf texts).Ordered := by
  have hfold : ∀ (texts : List SourceText) (s : SourceSet), s.Ordered →
      (texts.foldl storeSource s).Ordered := by
    intro texts
    induction texts with
    | nil => exact fun s h => h
    | cons f fs ih => exact fun s h => ih _ (h.store ..)
  exact hfold texts SourceSet.empty rfl

def Project.treeOf (texts : List SourceText) : Tree := (sourcesOf texts).parse.tree

theorem Project.numbered_treeOf (texts : List SourceText) :
    ∃ next, (treeOf texts).Numbered (sourcesOf texts).size next :=
  ⟨_, SourceSet.numbered_parse (ordered_sourcesOf texts)⟩

end StateBuffer
