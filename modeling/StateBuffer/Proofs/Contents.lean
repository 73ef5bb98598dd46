import Mathlib.Data.List.Induction
import StateBuffer.Proofs.Resolution.Registered

/-!
What files say, whatever numbers they have. The items of a file apart from their places, nodes and
scopes depend on its text alone, and so does whether it has a syntax error. The tree of a set of
files without syntax errors has, module by module, the items that the texts say.
-/

namespace StateBuffer

/-- One step of an import path without its place: up, or a component. -/
def Segment.step : Segment → Option Bytes
  | .parent _ => none
  | .name component _ => some component

/-- An item without its places and numbers. -/
inductive PlainItem where
  | imports (isPublic : Bool) (steps : List (Option Bytes))
  | definition (kind : DefinitionKind) (isPublic : Bool) (name : Bytes) (value : ExprBody)
  deriving DecidableEq, Repr

namespace Grammar

def ParsedItem.plain : ParsedItem → PlainItem
  | .imports _ i => .imports i.isPublic (i.segments.map Segment.step)
  | .definition _ d value => .definition d.kind d.isPublic d.name value.body

/-! ### Other numbers -/

section Renumbered

variable {file : FileId} {node : NodeId} {ts : List Lexeme} (file' : FileId) (node' : NodeId)

lemma exprOf_plain {scope : Scope} {t : Lexeme} {value : Expr} (h : ExprOf file node scope t value)
    (scope' : Scope) :
    ∃ value', ExprOf file' node' scope' t value' ∧ value'.body = value.body := by
  cases h with
  | literal h => exact ⟨_, .literal h, rfl⟩
  | name h => exact ⟨_, .name h, rfl⟩

lemma dotted_plain {P : Bytes → Prop} {f g : Lexeme → Segment} {segments : List Segment}
    (hfg : ∀ t, (g t).step = (f t).step) (h : Dotted P f ts segments) :
    ∃ segments', Dotted P g ts segments' ∧
      segments'.map Segment.step = segments.map Segment.step := by
  induction h with
  | one h => exact ⟨_, .one h, by simp [hfg]⟩
  | more h hd _ ih =>
    obtain ⟨segments', hs, he⟩ := ih
    exact ⟨_, .more h hd hs, by simp [hfg, he]⟩

lemma pathOf_plain {segments : List Segment} (h : PathOf file ts segments) :
    ∃ segments', PathOf file' ts segments' ∧
      segments'.map Segment.step = segments.map Segment.step := by
  cases h with
  | names h =>
    obtain ⟨segments', hs, he⟩ :=
      dotted_plain (f := nameOf file) (g := nameOf file') (fun _ => rfl) h
    exact ⟨segments', .names hs, he⟩
  | parents hp hd h =>
    obtain ⟨ps, hps, hep⟩ :=
      dotted_plain (f := parentOf file) (g := parentOf file') (fun _ => rfl) hp
    obtain ⟨ns, hns, hen⟩ :=
      dotted_plain (f := nameOf file) (g := nameOf file') (fun _ => rfl) h
    exact ⟨ps ++ ns, .parents hps hd hns, by simp [hep, hen]⟩

lemma itemOf_plain {next : NodeId} {it : ParsedItem} (h : ItemOf file node ts it next) :
    ∃ it' next', ItemOf file' node' ts it' next' ∧ it'.plain = it.plain := by
  cases h with
  | imports hp hk hs he =>
    obtain ⟨segments', hseg, hsteps⟩ := pathOf_plain file' hs
    exact ⟨_, _, .imports hp hk hseg he, by simp [ParsedItem.plain, hsteps]⟩
  | var hp hk hb =>
    obtain ⟨hn, he, hv, hs⟩ := hb
    obtain ⟨value', hv', hbody⟩ := exprOf_plain file' (node' + 1) hv [node']
    exact ⟨_, _, .var hp hk (.mk hn he hv' hs), by simp [ParsedItem.plain, hbody]⟩
  | const hk hb =>
    obtain ⟨hn, he, hv, hs⟩ := hb
    obtain ⟨value', hv', hbody⟩ := exprOf_plain file' (node' + 1) hv [node']
    exact ⟨_, _, .const hk (.mk hn he hv' hs), by simp [ParsedItem.plain, hbody]⟩

/-- The same tokens derive the same items, whatever their file and the first of their nodes. -/
lemma moduleOf_plain {last : NodeId} {items : List ParsedItem}
    (h : ModuleOf file node ts items last) :
    ∃ items' last', ModuleOf file' node' ts items' last' ∧
      items'.map ParsedItem.plain = items.map ParsedItem.plain := by
  induction h generalizing node' with
  | nil => exact ⟨[], node', .nil node', rfl⟩
  | cons hi _ ih =>
    obtain ⟨it', next', hi', he⟩ := itemOf_plain file' node' hi
    obtain ⟨items', last', hs', hes⟩ := ih next'
    exact ⟨it' :: items', last', .cons hi' hs', by simp [he, hes]⟩

end Renumbered

/-- The text is a file without a syntax error. -/
def Parses (content : Bytes) : Prop := (file 0 content 0).error = none

def outline (content : Bytes) : List PlainItem := (file 0 content 0).items.map ParsedItem.plain

lemma file_plain {id : FileId} {content : Bytes} {node : NodeId}
    (h : (file id content node).error = none) (id' : FileId) (node' : NodeId) :
    (file id' content node').error = none ∧
      (file id' content node').items.map ParsedItem.plain =
        (file id content node).items.map ParsedItem.plain := by
  obtain ⟨ts, hl, hm⟩ := file_ok_iff.1 ⟨h, rfl, rfl⟩
  obtain ⟨items', last', hm', hplain⟩ := moduleOf_plain id' node' hm
  obtain ⟨herror, hitems, -⟩ := file_ok_iff.2 ⟨ts, hl, hm'⟩
  exact ⟨herror, by rw [hitems, hplain]⟩

/-- **Reading a file** finds an error or the items of its text, whatever the numbers. -/
theorem file_outline (id : FileId) (content : Bytes) (node : NodeId) :
    ((file id content node).error = none ↔ Parses content) ∧
      (Parses content → (file id content node).items.map ParsedItem.plain = outline content) :=
  ⟨⟨fun h => (file_plain h 0 0).1, fun h => (file_plain h id node).1⟩,
    fun h => (file_plain h id node).2⟩

lemma isName_of_moduleOf {file : FileId} {node last : NodeId} {ts : List Lexeme}
    {items : List ParsedItem} (h : ModuleOf file node ts items last) {kind : DefinitionKind}
    {isPublic : Bool} {name : Bytes} {value : ExprBody}
    (hmem : PlainItem.definition kind isPublic name value ∈ items.map ParsedItem.plain) :
    IsName name := by
  induction h with
  | nil => simp at hmem
  | cons hi _ ih =>
    rw [List.map_cons, List.mem_cons] at hmem
    rcases hmem with heq | hmem
    · cases hi with
      | imports => exact PlainItem.noConfusion heq
      | var _ _ hb =>
        obtain ⟨hn, -⟩ := hb
        rw [(PlainItem.definition.inj heq).2.2.1]
        exact hn
      | const _ hb =>
        obtain ⟨hn, -⟩ := hb
        rw [(PlainItem.definition.inj heq).2.2.1]
        exact hn
    · exact ih hmem

lemma isName_of_outline {content : Bytes} (h : Parses content) {kind : DefinitionKind}
    {isPublic : Bool} {name : Bytes} {value : ExprBody}
    (hmem : PlainItem.definition kind isPublic name value ∈ outline content) : IsName name := by
  obtain ⟨ts, -, hm⟩ := file_ok_iff.1 ⟨h, rfl, rfl⟩
  exact isName_of_moduleOf hm hmem

end Grammar

/-! ### The modules of a tree -/

namespace Tree

open Grammar

/-- The modules of the tree have these items. -/
def Outlined (t : Tree) (contents : List (List PlainItem)) : Prop :=
  (t.modules.toList.map fun m => m.items.map fun id => (t.stored? id).map ParsedItem.plain) =
    contents.map (List.map some)

lemma Outlined.of_extends {t t' : Tree} {contents : List (List PlainItem)} (h : t.Outlined contents)
    (hext : Extends t t') :
    (t.modules.toList.map fun m => m.items.map fun id => (t'.stored? id).map ParsedItem.plain) =
      contents.map (List.map some) := by
  rw [← show _ = contents.map (List.map some) from h]
  refine List.map_congr_left fun m hm => List.map_congr_left fun id hid => ?_
  have hsome : (t.stored? id).map ParsedItem.plain ≠ none := by
    intro hnone
    have hmem : (m.items.map fun id => (t.stored? id).map ParsedItem.plain) ∈
        contents.map (List.map some) := h ▸ List.mem_map_of_mem hm
    obtain ⟨items, -, hitems⟩ := List.mem_map.1 hmem
    have hnone' := List.mem_map_of_mem (f := fun id => (t.stored? id).map ParsedItem.plain) hid
    rw [← hitems, hnone] at hnone'
    simp at hnone'
  cases hstored : t.stored? id with
  | none => simp [hstored] at hsome
  | some it => rw [hext.stored hstored]

/-- **One file** without a syntax error adds a module with the items of its text. -/
lemma Outlined.addFile {t : Tree} {files : Nat} {node : NodeId} {contents : List (List PlainItem)}
    (h : t.Outlined contents) (hn : t.Numbered files node) {content : Bytes} (hp : Parses content) :
    (t.addFile (files + 1) content node).2.Outlined (contents ++ [outline content]) := by
  have hext := extends_addFile t (files + 1) content node
  have hall := hn.addFile_modules content
  obtain ⟨-, -, hitems⟩ := addFile_eq t (files + 1) content node
  have hnew : (t.addFile (files + 1) content node).1.items.map (fun id =>
      ((t.addFile (files + 1) content node).2.stored? id).map ParsedItem.plain) =
        (outline content).map some := by
    rw [← (file_outline (files + 1) content node).2 hp, List.map_map]
    have := congrArg (List.map (Option.map ParsedItem.plain)) hitems
    simpa [List.map_map, Function.comp_def] using this
  rw [Outlined, hall, List.map_append, h.of_extends hext, List.map_append, List.map_singleton,
    List.map_singleton, hnew]

end Tree

namespace ParsedSources

open Grammar

lemma failures_add (p : ParsedSources) (f : SourceFile) :
    (p.add f).failures = 0 ↔ p.failures = 0 ∧ Parses f.content := by
  have herror : (p.tree.addFile f.id f.content p.nextId).1.error.isSome = false ↔
      Parses f.content := by
    rw [← (file_outline f.id f.content p.nextId).1, (Tree.addFile_eq ..).1,
      Option.isSome_eq_false_iff, Option.isNone_iff_eq_none]
  rw [← herror]
  simp only [add, failures, List.filter_append, List.length_append, Nat.add_eq_zero_iff]
  refine and_congr_right fun _ => ?_
  cases hsome : (p.tree.addFile f.id f.content p.nextId).1.error.isSome with
  | false => simp [hsome]
  | true => simp [hsome]

lemma failures_foldl (fs : List SourceFile) (p : ParsedSources) :
    (fs.foldl add p).failures = 0 ↔ p.failures = 0 ∧ ∀ f ∈ fs, Parses f.content := by
  induction fs generalizing p with
  | nil => simp
  | cons f fs ih =>
    rw [List.foldl_cons, ih, failures_add]
    simp [and_assoc]

lemma outlined_foldl {p : ParsedSources} {files : Nat} {contents : List (List PlainItem)}
    {fs : List SourceFile} (hn : p.tree.Numbered files p.nextId) (h : p.tree.Outlined contents)
    (hids : fs.map SourceFile.id = (List.range fs.length).map fun i => files + i + 1)
    (hparses : ∀ f ∈ fs, Parses f.content) :
    (fs.foldl add p).tree.Outlined (contents ++ fs.map fun f => outline f.content) := by
  induction fs generalizing p files contents with
  | nil => simpa using h
  | cons f fs ih =>
    rw [List.map_cons, List.length_cons, List.range_succ_eq_map, List.map_cons, List.map_map,
      List.cons.injEq] at hids
    have hid : f.id = files + 1 := hids.1
    have hnumbered : (p.add f).tree.Numbered (files + 1) (p.add f).nextId := by
      simp only [add, hid]
      exact hn.addFile f.content
    have hadd : (p.add f).tree.Outlined (contents ++ [outline f.content]) := by
      simp only [add, hid]
      exact h.addFile hn (hparses f List.mem_cons_self)
    have hrest := ih hnumbered hadd
      (hids.2.trans (List.map_congr_left fun i _ => by
        show files + (i + 1) + 1 = files + 1 + i + 1
        omega))
      fun f' hf' => hparses f' (List.mem_cons_of_mem f hf')
    simpa using hrest

lemma diagnostics_of_failures {p : ParsedSources} (h : p.failures = 0) : p.diagnostics = [] := by
  have hnone := List.filter_eq_nil_iff.1 (List.eq_nil_of_length_eq_zero h)
  refine List.flatMap_eq_nil_iff.2 fun x hx => ?_
  rw [Option.not_isSome_iff_eq_none.1 (hnone x hx)]
  rfl

end ParsedSources

/-! ### Places of items -/

namespace Tree

/-- The item stands in the file, after `k` others. -/
def At (t : Tree) (file : FileId) (k : Nat) (id : ItemId) : Prop :=
  ∃ m ∈ t.modules.toList, m.file = file ∧ m.items[k]? = some id

namespace Numbered

variable {t : Tree} {files : Nat} {next : NodeId} (h : t.Numbered files next)

include h

lemma exists_at {id : ItemId} {it : Item} (hi : t.item? id = some it) : ∃ k, t.At it.file k id := by
  obtain ⟨m, hm, hf⟩ := h.exists_module hi
  obtain ⟨k, hk⟩ := List.getElem?_of_mem ((h.mem_items_iff hm).2 ⟨it, hi, hf.symm⟩)
  exact ⟨k, m, hm, hf, hk⟩

lemma item?_of_at {file : FileId} {k : Nat} {id : ItemId} (ha : t.At file k id) :
    ∃ it, t.item? id = some it ∧ it.file = file := by
  obtain ⟨m, hm, rfl, hk⟩ := ha
  exact (h.mem_items_iff hm).1 (List.mem_of_getElem? hk)

lemma lt_of_at {file : FileId} {k k' : Nat} {id id' : ItemId} (ha : t.At file k id)
    (ha' : t.At file k' id') (hlt : k < k') : id < id' := by
  obtain ⟨m, hm, rfl, hk⟩ := ha
  obtain ⟨m', hm', hf, hk'⟩ := ha'
  obtain rfl := h.module_inj hm' hm hf
  obtain ⟨hb, rfl⟩ := List.getElem?_eq_some_iff.1 hk
  obtain ⟨hb', rfl⟩ := List.getElem?_eq_some_iff.1 hk'
  exact List.pairwise_iff_getElem.1 (h.pairwise_items hm) k k' hb hb' hlt

lemma at_unique {file : FileId} {k : Nat} {id id' : ItemId} (ha : t.At file k id)
    (ha' : t.At file k id') : id = id' := by
  obtain ⟨m, hm, rfl, hk⟩ := ha
  obtain ⟨m', hm', hf, hk'⟩ := ha'
  obtain rfl := h.module_inj hm' hm hf
  exact Option.some.inj (hk.symm.trans hk')

lemma at_inj {file file' : FileId} {k k' : Nat} {id : ItemId} (ha : t.At file k id)
    (ha' : t.At file' k' id) : file = file' ∧ k = k' := by
  obtain ⟨it, hi, rfl⟩ := h.item?_of_at ha
  obtain ⟨it', hi', rfl⟩ := h.item?_of_at ha'
  obtain rfl := Option.some.inj (hi.symm.trans hi')
  refine ⟨rfl, ?_⟩
  rcases Nat.lt_trichotomy k k' with hlt | heq | hlt
  · exact absurd (h.lt_of_at ha ha' hlt) (Nat.lt_irrefl id)
  · exact heq
  · exact absurd (h.lt_of_at ha' ha hlt) (Nat.lt_irrefl id)

end Numbered

end Tree

/-! ### The tree of some texts -/

def SourceText.stored (x : SourceText) : Bytes := SourceFile.dropCarriageReturns x.content

namespace Project

open Grammar

variable {texts : List SourceText}

lemma files_sourcesOf (texts : List SourceText) :
    ((sourcesOf texts).files.toList.map fun f => (f.dotPath, f.content)) =
      texts.map fun x => (x.dotPath, x.stored) := by
  induction texts using List.reverseRecOn with
  | nil => rfl
  | append_singleton texts x ih =>
    rw [sourcesOf, List.foldl_append, List.map_append, ← ih]
    simp [sourcesOf, storeSource, SourceSet.store, SourceText.stored]

lemma dotPaths_sourcesOf (texts : List SourceText) :
    (sourcesOf texts).files.toList.map SourceFile.dotPath = texts.map SourceText.dotPath := by
  simpa [List.map_map, Function.comp_def] using congrArg (List.map Prod.fst) (files_sourcesOf texts)

lemma size_sourcesOf (texts : List SourceText) : (sourcesOf texts).size = texts.length := by
  simpa [SourceSet.size] using congrArg List.length (files_sourcesOf texts)

lemma file_sourcesOf {j : Nat} {x : SourceText} (hx : texts[j]? = some x) :
    ∃ f, (sourcesOf texts).files.toList[j]? = some f ∧ f.id = j + 1 ∧ f.dotPath = x.dotPath ∧
      f.content = x.stored := by
  have hfile := congrArg (fun l : List (Bytes × Bytes) => l[j]?) (files_sourcesOf texts)
  simp only [List.getElem?_map, hx, Option.map_some] at hfile
  obtain ⟨f, hf, heq⟩ := Option.map_eq_some_iff.1 hfile
  obtain ⟨hdot, hcontent⟩ := Prod.mk.inj heq
  refine ⟨f, hf, ?_, hdot, hcontent⟩
  have hid := congrArg (fun l : List FileId => l[j]?) (ordered_sourcesOf texts)
  have hlt : j < (sourcesOf texts).files.size := by
    simpa using (List.getElem?_eq_some_iff.1 hf).1
  simp only [List.getElem?_map, hf, List.getElem?_range hlt, Option.map_some] at hid
  exact Option.some.inj hid

lemma get?_sourcesOf {j : Nat} {x : SourceText} (hx : texts[j]? = some x) :
    ∃ f, (sourcesOf texts).get? (j + 1) = some f ∧ f.dotPath = x.dotPath := by
  obtain ⟨f, hf, -, hdot, -⟩ := file_sourcesOf hx
  exact ⟨f, by simpa [SourceSet.get?] using hf, hdot⟩

lemma find?_sourcesOf (hnodup : (texts.map SourceText.dotPath).Nodup) {dotPath : Bytes}
    {file : FileId} : (sourcesOf texts).find? dotPath = some file ↔
      ∃ j x, texts[j]? = some x ∧ x.dotPath = dotPath ∧ file = j + 1 := by
  rw [SourceSet.find?, Option.map_eq_some_iff, ← Array.find?_toList]
  constructor
  · rintro ⟨f, hf, rfl⟩
    obtain ⟨j, hj⟩ := List.getElem?_of_mem (List.mem_of_find?_eq_some hf)
    have hlt : j < texts.length := by
      rw [← size_sourcesOf texts, SourceSet.size]
      simpa using (List.getElem?_eq_some_iff.1 hj).1
    obtain ⟨f', hf', hid, hdot, -⟩ := file_sourcesOf (List.getElem?_eq_getElem hlt)
    obtain rfl := Option.some.inj (hj.symm.trans hf')
    have hpath : f.dotPath = dotPath := by simpa using List.find?_some hf
    exact ⟨j, _, List.getElem?_eq_getElem hlt, hdot.symm.trans hpath, hid⟩
  · rintro ⟨j, x, hx, rfl, rfl⟩
    obtain ⟨f, hf, hid, hdot, -⟩ := file_sourcesOf hx
    refine ⟨f, ?_, hid⟩
    rw [List.find?_eq_some_iff_getElem]
    obtain ⟨hlt, hget⟩ := List.getElem?_eq_some_iff.1 hf
    refine ⟨by simpa using hdot, j, hlt, hget, fun k hk => ?_⟩
    have hne := List.nodup_iff_getElem?_ne_getElem?.1
      (dotPaths_sourcesOf texts ▸ hnodup) k j hk
      (by simpa using hlt)
    simp only [List.getElem?_map, hf, List.getElem?_eq_getElem (Nat.lt_trans hk hlt),
      Option.map_some, hdot, ne_eq, Option.some.injEq] at hne
    simpa using hne

lemma failures_iff (texts : List SourceText) :
    (sourcesOf texts).parse.failures = 0 ↔ ∀ x ∈ texts, Parses x.stored := by
  have hcontents : (sourcesOf texts).files.toList.map SourceFile.content =
      texts.map SourceText.stored := by
    simpa [List.map_map, Function.comp_def] using
      congrArg (List.map Prod.snd) (files_sourcesOf texts)
  rw [SourceSet.parse, ParsedSources.failures_foldl]
  have hall : (∀ f ∈ (sourcesOf texts).files.toList, Parses f.content) ↔
      ∀ c ∈ (sourcesOf texts).files.toList.map SourceFile.content, Parses c := by
    simp
  rw [hall, hcontents]
  simp [ParsedSources.failures, ParsedSources.empty]

lemma exists_text {id : ItemId} {it : Item} (hi : (treeOf texts).item? id = some it) :
    ∃ j x, texts[j]? = some x ∧ it.file = j + 1 := by
  obtain ⟨next, h⟩ := numbered_treeOf texts
  obtain ⟨m, hm, hf⟩ := h.exists_module hi
  obtain ⟨j, hj, hfile⟩ := h.file_mem hm
  rw [size_sourcesOf] at hj
  exact ⟨j, _, List.getElem?_eq_getElem hj, hf.symm.trans hfile⟩

/-- **The tree of some texts** has the items of each text in the file of the text. -/
theorem stored?_of_at (hp : (sourcesOf texts).parse.failures = 0) {j : Nat} {x : SourceText}
    (hx : texts[j]? = some x) (k : Nat) :
    (∀ p, (outline x.stored)[k]? = some p → ∃ id, (treeOf texts).At (j + 1) k id) ∧
      ∀ id, (treeOf texts).At (j + 1) k id →
        ∃ it, (treeOf texts).stored? id = some it ∧ (outline x.stored)[k]? = some it.plain := by
  obtain ⟨f, hf, -, -, hcontent⟩ := file_sourcesOf hx
  have hn := SourceSet.numbered_parse (ordered_sourcesOf texts)
  have hall := (ParsedSources.failures_foldl _ _).1 hp
  have houtlined : (treeOf texts).Outlined
      ([] ++ (sourcesOf texts).files.toList.map fun f => outline f.content) :=
    ParsedSources.outlined_foldl (p := ParsedSources.empty) Tree.numbered_empty rfl
      ((ordered_sourcesOf texts).trans (by simp)) hall.2
  have hitems := congrArg (fun l : List (List (Option PlainItem)) => l[j]?) houtlined
  simp only [List.nil_append, List.getElem?_map, hf, Option.map_some] at hitems
  obtain ⟨m, hm, hitems⟩ := Option.map_eq_some_iff.1 hitems
  have hfile : m.file = j + 1 := by
    have hfiles := congrArg (fun l : List FileId => l[j]?) hn.files
    have hm' : (sourcesOf texts).parse.tree.modules.toList[j]? = some m := hm
    have hlt : j < (sourcesOf texts).size := by
      simpa [SourceSet.size] using (List.getElem?_eq_some_iff.1 hf).1
    simp only [List.getElem?_map, hm', List.getElem?_range hlt, Option.map_some] at hfiles
    exact Option.some.inj hfiles
  have hmem := List.mem_of_getElem? hm
  -- the items of the module and those of the text, one by one
  have hkth := congrArg (fun l : List (Option PlainItem) => l[k]?) hitems
  simp only [List.getElem?_map, hcontent] at hkth
  constructor
  · intro p hk
    rw [hk] at hkth
    obtain ⟨id, hid, -⟩ := Option.map_eq_some_iff.1 hkth
    exact ⟨id, m, hmem, hfile, hid⟩
  · rintro id ⟨m', hm', hf', hk⟩
    obtain rfl := hn.module_inj hm' hmem (hf'.trans hfile.symm)
    rw [hk, Option.map_some] at hkth
    obtain ⟨p, hp, hplain⟩ := Option.map_eq_some_iff.1 hkth.symm
    obtain ⟨it, hit, rfl⟩ := Option.map_eq_some_iff.1 hplain.symm
    exact ⟨it, hit, hp⟩

end Project

end StateBuffer
