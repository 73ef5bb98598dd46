import StateBuffer.Proofs.Contents
import StateBuffer.Proofs.Resolution.Scoping

/-!
Trees that differ only in their numbers. Files and items of two trees are matched so that matched
files have one dot path, matched items say the same, and the items of a file keep their order. Items
of different files may come in any order. Then imports and paths are matched, and so is the order of
two paths from one file: where they first differ, both go on from one file, so the order of items in
other files does not matter.
-/

namespace StateBuffer

open Grammar

/-! ### Matched trees -/

/-- What is in one tree is in the other, `F` and `I` telling under which numbers. -/
structure Copies (s : SourceSet) (t : Tree) (s' : SourceSet) (t' : Tree)
    (F : FileId → FileId → Prop) (I : ItemId → ItemId → Prop) : Prop where
  dotPath : ∀ {f f'}, F f f' →
    ∃ x x', s.get? f = some x ∧ s'.get? f' = some x' ∧ x'.dotPath = x.dotPath
  found : ∀ {p f}, s.find? p = some f → ∃ f', s'.find? p = some f' ∧ F f f'
  file_unique : ∀ {f f' f''}, F f f' → F f f'' → f' = f''
  total : ∀ {id it}, t.item? id = some it → ∃ id', I id id'
  unique : ∀ {id id' id''}, I id id' → I id id'' → id' = id''
  stored : ∀ {id id' it}, I id id' → t.stored? id = some it →
    ∃ it', t'.stored? id' = some it' ∧ it'.plain = it.plain
  file : ∀ {id id' it it'}, I id id' → t.item? id = some it → t'.item? id' = some it' →
    F it.file it'.file
  order : ∀ {a a' b b' ia ib}, I a a' → I b b' → t.item? a = some ia → t.item? b = some ib →
    ia.file = ib.file → a < b → a' < b'

/-- Two trees differ only in their numbers. -/
structure Twins (s : SourceSet) (t : Tree) (s' : SourceSet) (t' : Tree)
    (F : FileId → FileId → Prop) (I : ItemId → ItemId → Prop) : Prop where
  there : Copies s t s' t' F I
  back : Copies s' t' s t (flip F) (flip I)

/-- The two definitions are matched: in matched files, of one kind, name and value. -/
structure Alike (t t' : Tree) (F : FileId → FileId → Prop) (I : ItemId → ItemId → Prop)
    (d d' : Declared) : Prop where
  item : I d.item d'.item
  file : F d.file d'.file
  kind : d'.definition.kind = d.definition.kind
  isPublic : d'.definition.isPublic = d.definition.isPublic
  name : d'.definition.name = d.definition.name
  value : ∃ e e', t.expr? d.definition.value = some e ∧ t'.expr? d'.definition.value = some e' ∧
    e'.body = e.body

lemma Alike.symm {t t' : Tree} {F : FileId → FileId → Prop} {I : ItemId → ItemId → Prop}
    {d d' : Declared} (h : Alike t t' F I d d') : Alike t' t (flip F) (flip I) d' d := by
  obtain ⟨e, e', he, he', hbody⟩ := h.value
  exact ⟨h.item, h.file, h.kind.symm, h.isPublic.symm, h.name.symm, e', e, he', he, hbody.symm⟩

namespace Twins

variable {s s' : SourceSet} {t t' : Tree} {F : FileId → FileId → Prop}
  {I : ItemId → ItemId → Prop} {next next' : NodeId} {root : Bytes}

lemma symm (w : Twins s t s' t' F I) : Twins s' t' s t (flip F) (flip I) := ⟨w.back, w.there⟩

section Items

variable (w : Twins s t s' t' F I) {id id' : ItemId} (hid : I id id')

include w hid

lemma imported {it : Item} {i : Import} (hi : t.item? id = some it) (hb : it.body = .imports i) :
    ∃ it' i', t'.item? id' = some it' ∧ it'.body = .imports i' ∧ F it.file it'.file ∧
      i'.isPublic = i.isPublic ∧
      i'.segments.map Segment.step = i.segments.map Segment.step := by
  obtain ⟨file, span, body⟩ := it
  obtain rfl := hb
  obtain ⟨it', hit', hplain⟩ := w.there.stored hid (Tree.stored?_imports.2 ⟨file, hi⟩)
  cases it' with
  | definition span' d e => exact PlainItem.noConfusion hplain
  | imports span' i' =>
    obtain ⟨file', hi'⟩ := Tree.stored?_imports.1 hit'
    obtain ⟨hpublic, hsteps⟩ := PlainItem.imports.inj hplain
    exact ⟨_, i', hi', rfl, w.there.file hid hi hi', hpublic, hsteps⟩

end Items

lemma declared (w : Twins s t s' t' F I) (h : t.Numbered s.size next) {d : Declared} {id' : ItemId}
    (hid : I d.item id') (hd : t.definition? d.item = some d) :
    ∃ d', t'.definition? d'.item = some d' ∧ d'.item = id' ∧ Alike t t' F I d d' := by
  obtain ⟨span, hi, -⟩ := Tree.definition?_eq_some.1 hd
  obtain ⟨e, he, -⟩ := h.value hd
  obtain ⟨it', hit', hplain⟩ := w.there.stored hid
    (Tree.stored?_definition.2 ⟨d.file, d.definition, hi, he, rfl⟩)
  cases it' with
  | imports span' i => exact PlainItem.noConfusion hplain
  | definition span' d0 e' =>
    obtain ⟨file', d', hi', he', rfl⟩ := Tree.stored?_definition.1 hit'
    obtain ⟨hkind, hpublic, hname, hbody⟩ := PlainItem.definition.inj hplain
    have hd' : t'.definition? id' = some ⟨id', file', d'⟩ :=
      Tree.definition?_eq_some.2 ⟨span', hi', rfl⟩
    exact ⟨⟨id', file', d'⟩, hd', rfl, hid, w.there.file hid hi hi', hkind, hpublic, hname,
      e, e', he, he', hbody⟩

lemma exists_alike (w : Twins s t s' t' F I) (h : t.Numbered s.size next) {d : Declared}
    (hd : t.definition? d.item = some d) :
    ∃ d', t'.definition? d'.item = some d' ∧ Alike t t' F I d d' := by
  obtain ⟨span, hi, -⟩ := Tree.definition?_eq_some.1 hd
  obtain ⟨id', hid⟩ := w.there.total hi
  obtain ⟨d', hd', -, ha⟩ := w.declared h hid hd
  exact ⟨d', hd', ha⟩

section Order

variable (w : Twins s t s' t' F I) {a a' b b' : Declared} (ha : Alike t t' F I a a')
  (hb : Alike t t' F I b b') (hda : t.definition? a.item = some a)
  (hdb : t.definition? b.item = some b) (hfile : a.file = b.file)

include w ha hb hda hdb hfile

lemma lt_of_lt (hlt : a.item < b.item) : a'.item < b'.item := by
  obtain ⟨span, hia, -⟩ := Tree.definition?_eq_some.1 hda
  obtain ⟨span', hib, -⟩ := Tree.definition?_eq_some.1 hdb
  exact w.there.order ha.item hb.item hia hib hfile hlt

lemma le_of_le (hle : a.item ≤ b.item) : a'.item ≤ b'.item := by
  rcases Nat.lt_or_eq_of_le hle with hlt | heq
  · exact Nat.le_of_lt (w.lt_of_lt ha hb hda hdb hfile hlt)
  · have hsame := ha.item
    rw [heq] at hsame
    exact Nat.le_of_eq (w.there.unique hsame hb.item)

end Order

lemma defines (w : Twins s t s' t' F I) {file file' : FileId} (hf : F file file') {name : Bytes}
    {d d' : Declared} (hd : t.Defines file name d) (hd' : t'.definition? d'.item = some d')
    (ha : Alike t t' F I d d') : t'.Defines file' name d' := by
  obtain ⟨-, rfl, rfl⟩ := hd
  exact ⟨hd', w.there.file_unique ha.file hf, ha.name⟩

end Twins

/-! ### Imports -/

lemma Segment.text_eq (segment : Segment) : segment.text = segment.step.getD "~" := by
  cases segment <;> rfl

lemma ImportIndex.namesOf_congr {l l' : List Segment}
    (h : l'.map Segment.step = l.map Segment.step) : namesOf l' = namesOf l := by
  have htext : Segment.text = fun x => x.step.getD "~" := funext Segment.text_eq
  have hnames := congrArg (List.map fun x : Option Bytes => x.getD "~") h
  simpa [namesOf, htext, Function.comp_def] using hnames

lemma ImportIndex.splitPath_congr {l l' : List Segment}
    (h : l'.map Segment.step = l.map Segment.step) : splitPath l' = splitPath l := by
  induction l generalizing l' with
  | nil =>
    obtain rfl : l' = [] := by simpa using h
    rfl
  | cons segment l ih =>
    obtain ⟨segment', l', rfl, hsegment, hl⟩ := List.map_eq_cons_iff.1 h
    cases segment with
    | parent span =>
      cases segment' with
      | name component span' => simp [Segment.step] at hsegment
      | parent span' => simp only [splitPath, ih hl]
    | name component span =>
      cases segment' with
      | parent span' => simp [Segment.step] at hsegment
      | name component' span' => simp only [splitPath, namesOf_congr h]

lemma ImportIndex.resolve_eq {s : SourceSet} {file : FileId} {x : SourceFile}
    (hx : s.get? file = some x) {i : Import} {up above : Nat} {names start : List Bytes}
    (hpath : splitPath i.segments = (up, names)) (hstart : startOf x.dotPath up = (above, start))
    (root : Bytes) : resolve s root file i =
      .ok (if 0 < above then none else s.find? (Bytes.join "." (start ++ names)),
        triedPath root above (start ++ names)) := by
  have hget : s.get file = .ok x := by simp [SourceSet.get, hx]
  unfold resolve
  rw [hpath]
  by_cases hup : up = 0
  · obtain ⟨rfl, rfl⟩ : above = 0 ∧ start = [] := by simpa [startOf, hup, eq_comm] using hstart
    simp only [hup, if_true]
    rfl
  · simp only [if_neg hup, hget, bind, Except.bind, pure, Except.pure, hstart]

namespace Twins

variable {s s' : SourceSet} {t t' : Tree} {F : FileId → FileId → Prop}
  {I : ItemId → ItemId → Prop} {next next' : NodeId} {root : Bytes} (w : Twins s t s' t' F I)

include w

lemma resolve {file file' target : FileId} (hf : F file file') {i i' : Import}
    (hsteps : i'.segments.map Segment.step = i.segments.map Segment.step) {tried : Bytes}
    (h : ImportIndex.resolve s root file i = .ok (some target, tried)) :
    ∃ target', F target target' ∧
      ImportIndex.resolve s' root file' i' = .ok (some target', tried) := by
  obtain ⟨x, x', hx, hx', hdot⟩ := w.there.dotPath hf
  rcases hpath : ImportIndex.splitPath i.segments with ⟨up, names⟩
  rcases hstart : ImportIndex.startOf x.dotPath up with ⟨above, start⟩
  have hpath' := (ImportIndex.splitPath_congr hsteps).trans hpath
  rw [ImportIndex.resolve_eq hx hpath hstart] at h
  rw [ImportIndex.resolve_eq hx' hpath' (hdot ▸ hstart)]
  obtain ⟨hfind, rfl⟩ := Prod.mk.inj (Except.ok.inj h)
  split_ifs at hfind ⊢
  obtain ⟨target', hfind', htarget⟩ := w.there.found hfind
  exact ⟨target', htarget, by rw [hfind']⟩

lemma imports {file file' target : FileId} {id id' : ItemId} {isPublic : Bool} (hf : F file file')
    (hid : I id id') (h : t.Imports s root file id isPublic target) :
    ∃ target', F target target' ∧ t'.Imports s' root file' id' isPublic target' := by
  obtain ⟨it, i, tried, hi, rfl, hb, rfl, hres⟩ := h
  obtain ⟨it', i', hi', hb', hfile, hpublic, hsteps⟩ := w.imported hid hi hb
  obtain rfl := w.there.file_unique hfile hf
  obtain ⟨target', htarget, hres'⟩ := w.resolve hf hsteps hres
  exact ⟨target', htarget, it', i', tried, hi', rfl, hb', hpublic, hres'⟩

lemma exists_imports {file target : FileId} {id : ItemId} {isPublic : Bool}
    (h : t.Imports s root file id isPublic target) {file' : FileId} (hf : F file file') :
    ∃ id' target', I id id' ∧ F target target' ∧ t'.Imports s' root file' id' isPublic target' := by
  have hfound := h
  obtain ⟨it, i, tried, hi, -⟩ := hfound
  obtain ⟨id', hid⟩ := w.there.total hi
  obtain ⟨target', htarget, himp⟩ := w.imports hf hid h
  exact ⟨id', target', hid, htarget, himp⟩

lemma importPath {start start' file : FileId} {path : List ItemId}
    (h : ImportPath (t.Imports s root) start path file) (hs : F start start') :
    ∃ path' file', List.Forall₂ I path path' ∧ F file file' ∧
      ImportPath (t'.Imports s' root) start' path' file' := by
  induction h with
  | first hl =>
    obtain ⟨id', file', hid, hf, himp⟩ := w.exists_imports hl hs
    exact ⟨[id'], file', .cons hid .nil, hf, .first himp⟩
  | next _ hl ih =>
    obtain ⟨path', middle', hpath, hmiddle, hp⟩ := ih
    obtain ⟨id', file', hid, hf, himp⟩ := w.exists_imports hl hmiddle
    exact ⟨path' ++ [id'], file', List.rel_append hpath (.cons hid .nil), hf, .next hp himp⟩

end Twins

/-! ### The order of paths -/

lemma ImportPath.fork {leads : FileId → ItemId → Bool → FileId → Prop} {start file : FileId}
    {common rest : List ItemId} {a : ItemId}
    (h : ImportPath leads start (common ++ a :: rest) file) :
    ∃ middle isPublic target, leads middle a isPublic target ∧
      (common = [] ∧ middle = start ∨ ImportPath leads start common middle) := by
  generalize hpath : common ++ a :: rest = path at h
  induction h generalizing rest with
  | first hl =>
    obtain ⟨rfl, hcons⟩ | ⟨-, hcons⟩ := List.append_eq_singleton_iff.1 hpath
    · obtain ⟨rfl, -⟩ := List.cons.inj hcons
      exact ⟨_, _, _, hl, .inl ⟨rfl, rfl⟩⟩
    · simp at hcons
  | next hp hl ih =>
    rcases List.eq_nil_or_concat rest with rfl | ⟨rest, b, rfl⟩
    · obtain ⟨rfl, hcons⟩ := List.append_inj' hpath rfl
      obtain ⟨rfl, -⟩ := List.cons.inj hcons
      exact ⟨_, _, _, hl, .inr hp⟩
    · rw [List.concat_eq_append, ← List.cons_append, ← List.append_assoc] at hpath
      exact ih (List.append_inj' hpath rfl).1

lemma lex_fork {r : ItemId → ItemId → Prop} {p q : List ItemId} (h : List.Lex r p q)
    (hlen : p.length = q.length) :
    ∃ common a b p' q', p = common ++ a :: p' ∧ q = common ++ b :: q' ∧ r a b := by
  induction h with
  | nil => simp at hlen
  | rel hr => exact ⟨[], _, _, _, _, rfl, rfl, hr⟩
  | cons _ ih =>
    obtain ⟨common, a, b, p', q', rfl, rfl, hr⟩ := ih (by simpa using hlen)
    exact ⟨_ :: common, a, b, p', q', rfl, rfl, hr⟩

lemma forall₂_fork {R : ItemId → ItemId → Prop} {common rest l : List ItemId} {a : ItemId}
    (h : List.Forall₂ R (common ++ a :: rest) l) :
    ∃ common' a' rest', l = common' ++ a' :: rest' ∧ List.Forall₂ R common common' ∧ R a a' := by
  induction common generalizing l with
  | nil =>
    obtain ⟨a', rest', ha, -, rfl⟩ := List.forall₂_cons_left_iff.1 h
    exact ⟨[], a', rest', rfl, .nil, ha⟩
  | cons c common ih =>
    obtain ⟨c', l', hc, hl, rfl⟩ := List.forall₂_cons_left_iff.1 h
    obtain ⟨common', a', rest', rfl, hcommon, ha⟩ := ih hl
    exact ⟨c' :: common', a', rest', rfl, .cons hc hcommon, ha⟩

namespace Twins

variable {s s' : SourceSet} {t t' : Tree} {F : FileId → FileId → Prop}
  {I : ItemId → ItemId → Prop} {next next' : NodeId} {root : Bytes} (w : Twins s t s' t' F I)

include w

lemma path_unique {p p' p'' : List ItemId} (h : List.Forall₂ I p p') (h' : List.Forall₂ I p p'') :
    p' = p'' := by
  induction h generalizing p'' with
  | nil => exact (List.forall₂_nil_left_iff.1 h').symm
  | cons ha _ ih =>
    obtain ⟨b, l, hb, hl, rfl⟩ := List.forall₂_cons_left_iff.1 h'
    rw [w.there.unique ha hb, ih hl]

/-- **The order of two paths** from a file: where they first differ, both go on with imports of one
file. -/
lemma before {start f g : FileId} {p q p' q' : List ItemId}
    (hp : ImportPath (t.Imports s root) start p f) (hq : ImportPath (t.Imports s root) start q g)
    (hpp : List.Forall₂ I p p') (hqq : List.Forall₂ I q q') (h : Before p q) : Before p' q' := by
  rcases List.shortlex_def.1 h with hlt | ⟨hlen, hlex⟩
  · exact .of_length_lt (by rwa [← hpp.length_eq, ← hqq.length_eq])
  · have hlen' : p'.length = q'.length := by rw [← hpp.length_eq, ← hqq.length_eq, hlen]
    obtain ⟨common, a, b, p1, q1, rfl, rfl, hlt⟩ := lex_fork hlex hlen
    obtain ⟨common', a', p1', rfl, hcommon, ha⟩ := forall₂_fork hpp
    obtain ⟨common'', b', q1', rfl, hcommon', hb⟩ := forall₂_fork hqq
    obtain rfl := w.path_unique hcommon hcommon'
    obtain ⟨m, _, _, ⟨ia, _, _, hia, hfa, -⟩, hm⟩ := hp.fork
    obtain ⟨m', _, _, ⟨ib, _, _, hib, hfb, -⟩, hm'⟩ := hq.fork
    have hsame : m = m' := by
      rcases hm with ⟨hnil, rfl⟩ | hm
      · rcases hm' with ⟨-, rfl⟩ | hm'
        · rfl
        · exact absurd hnil hm'.ne_nil
      · rcases hm' with ⟨hnil, -⟩ | hm'
        · exact absurd hnil hm.ne_nil
        · exact Tree.target_unique hm hm'
    have hlt' : b' < a' :=
      w.there.order hb ha hib hia (by rw [hfa, hfb, hsame]) hlt
    exact .of_lex hlen'
      (List.Lex.append_left (fun a b : ItemId => b < a) (.rel hlt') common')

lemma atMost {start f g : FileId} {p q p' q' : List ItemId}
    (hp : ImportPath (t.Imports s root) start p f) (hq : ImportPath (t.Imports s root) start q g)
    (hpp : List.Forall₂ I p p') (hqq : List.Forall₂ I q q') (h : AtMost p q) : AtMost p' q' := by
  rcases h with rfl | h
  · exact .inl (w.path_unique hpp hqq)
  · exact .inr (w.before hp hq hpp hqq h)

end Twins

end StateBuffer
