import StateBuffer.Proofs.ParsedTree

/-!
Where stored items come from. Every item of the tree of a set of files was read from tokens that
stand in the text of its file, also if reading that file stopped at an error, and the text of a
place in the file is the token that stands there.
-/

namespace StateBuffer

open Grammar

/-! ### Tokens in their texts -/

/-- The token stands in the text where it says. -/
def Lexeme.StandsIn (t : Lexeme) (content : Bytes) : Prop :=
  ∃ before after, content = before ++ (t.text ++ after) ∧ t.start = before.length

lemma Lexed.standsIn {content s rest : Bytes} {ts : List Lexeme}
    (h : Lexed content.length s ts rest) (hs : s <:+ content) :
    ∀ t ∈ ts, t.StandsIn content := by
  induction h with
  | nil => exact fun t ht => absurd ht List.not_mem_nil
  | @cons s rest rest' t ts hl _ ih =>
    obtain ⟨htrivia, -, hstart⟩ := hl
    have hsuffix : t.text ++ rest <:+ content := htrivia.suffix.trans hs
    obtain ⟨before, hbefore⟩ := hsuffix
    intro u hu
    rcases List.mem_cons.1 hu with rfl | hu
    · refine ⟨before, rest, hbefore.symm, ?_⟩
      rw [hstart, ← hbefore, List.length_append]
      omega
    · exact ih ⟨before ++ t.text, by rw [List.append_assoc, hbefore]⟩ u hu

lemma Lexeme.StandsIn.take_drop {t : Lexeme} {content : Bytes} (h : t.StandsIn content)
    (hsize : content.length < 2 ^ 32) (file : FileId) :
    (content.take (t.span file).stop.toNat).drop (t.span file).start.toNat = t.text := by
  obtain ⟨before, after, rfl, hstart⟩ := h
  simp only [List.length_append] at hsize
  have hstarts : (t.span file).start.toNat = before.length := by
    rw [← hstart]
    exact Nat.mod_eq_of_lt (by omega)
  have hstops : (t.span file).stop.toNat = (before ++ t.text).length := by
    rw [List.length_append, ← hstart]
    exact Nat.mod_eq_of_lt (by omega)
  rw [hstarts, hstops, ← List.append_assoc, List.take_left, List.drop_left]

/-! ### Items -/

/-- The item was read from tokens that stand in the text. -/
def Grammar.ParsedItem.ReadFrom (it : ParsedItem) (file : FileId) (content : Bytes) : Prop :=
  ∃ node ts next, ItemOf file node ts it next ∧ ∀ t ∈ ts, t.StandsIn content

lemma readFrom_of_moduleOf {file : FileId} {content : Bytes} {node last : NodeId}
    {ts : List Lexeme} {items : List ParsedItem} (hm : ModuleOf file node ts items last)
    (hts : ∀ t ∈ ts, t.StandsIn content) : ∀ it ∈ items, it.ReadFrom file content := by
  induction hm with
  | nil => exact fun it hit => absurd hit List.not_mem_nil
  | cons hi _ ih =>
    rw [List.forall_mem_append] at hts
    exact List.forall_mem_cons.2 ⟨⟨_, _, _, hi, hts.1⟩, ih hts.2⟩

namespace Tree

/-- Every item was read from tokens of one of the files. -/
def ReadFrom (t : Tree) (fs : List SourceFile) : Prop :=
  ∀ id it, t.item? id = some it → ∃ f ∈ fs, it.file = f.id ∧
    ∃ p, t.stored? id = some p ∧ p.ReadFrom f.id f.content

lemma ReadFrom.listed {t : Tree} {fs : List SourceFile} (h : t.ReadFrom fs) {f : SourceFile}
    (hf : f ∈ fs) {p : ParsedItem} (hp : p.ReadFrom f.id f.content) :
    (t.listed f.id p).ReadFrom fs := by
  intro id it hi
  have hitems := (listed_arenas t f.id p).1
  rw [store_items] at hitems
  rcases item?_push hitems hi with hold | ⟨rfl, rfl⟩
  · obtain ⟨g, hg, hfile, q, hq, hread⟩ := h id it hold
    exact ⟨g, hg, hfile, q,
      ((extends_store t f.id p).trans (extends_listed t f.id p)).stored hq, hread⟩
  · refine ⟨f, hf, rfl, p, (extends_listed t f.id p).stored ?_, hp⟩
    rw [← store_fst t f.id p]
    obtain ⟨node, ts, next, hitem, -⟩ := hp
    refine stored?_store t f.id fun span d value he => ?_
    subst he
    cases hitem <;> rfl

lemma ReadFrom.storeAll {t : Tree} {fs : List SourceFile} (h : t.ReadFrom fs) {f : SourceFile}
    (hf : f ∈ fs) {items : List ParsedItem} (hitems : ∀ p ∈ items, p.ReadFrom f.id f.content) :
    (t.storeAll f.id items).2.ReadFrom fs := by
  induction items generalizing t with
  | nil => exact h
  | cons p items ih =>
    obtain ⟨hp, hitems⟩ := List.forall_mem_cons.1 hitems
    rw [storeAll_cons]
    exact ih (h.listed hf hp) hitems

/-- **One file** more. -/
lemma ReadFrom.addFile {t : Tree} {fs : List SourceFile} (h : t.ReadFrom fs) {f : SourceFile}
    (hf : f ∈ fs) (node : NodeId) : (t.addFile f.id f.content node).2.ReadFrom fs := by
  obtain ⟨⟨ts, n, hm, hmoved⟩, -, -⟩ :=
    items_sound 0 (c := Cursor.start f.id f.content node) rfl rfl
  have hlexed : Lexed f.content.length f.content ts _ :=
    size_start f.id f.content node ▸ hmoved.lexed
  have hstart : ({ t.withModule f.id with
      names := t.names.internAll (file f.id f.content node).names } : Tree).ReadFrom fs :=
    fun id it hi => h id it hi
  exact hstart.storeAll hf (readFrom_of_moduleOf hm (hlexed.standsIn List.suffix_rfl))

end Tree

namespace Tree.ReadFrom

variable {t : Tree} {fs : List SourceFile} (h : t.ReadFrom fs)

include h

lemma value {id : ItemId} {file : FileId} {span : Span} {d : Definition}
    (hi : t.item? id = some ⟨file, span, .definition d⟩) {e : Expr}
    (he : t.expr? d.value = some e) : ∃ f ∈ fs, file = f.id ∧
      ∃ node scope u, ExprOf f.id node scope u e ∧ u.StandsIn f.content := by
  obtain ⟨f, hf, hfile, p, hp, node, ts, next, hitem, hts⟩ := h id _ hi
  refine ⟨f, hf, hfile, ?_⟩
  have hstored : t.stored? id = some (.definition span { d with value := 0 } e) :=
    stored?_definition.2 ⟨file, d, hi, he, rfl⟩
  obtain rfl := Option.some.inj (hp.symm.trans hstored)
  generalize hit : ParsedItem.definition span { d with value := 0 } e = it at hitem
  cases hitem with
  | imports => cases hit
  | var _ _ hb =>
    obtain ⟨-, -, hv, -⟩ := hb
    obtain ⟨-, -, rfl⟩ := ParsedItem.definition.inj hit
    exact ⟨_, _, _, hv, hts _ (by simp)⟩
  | const _ hb =>
    obtain ⟨-, -, hv, -⟩ := hb
    obtain ⟨-, -, rfl⟩ := ParsedItem.definition.inj hit
    exact ⟨_, _, _, hv, hts _ (by simp)⟩

lemma path {id : ItemId} {file : FileId} {span : Span} {i : Import}
    (hi : t.item? id = some ⟨file, span, .imports i⟩) : ∃ f ∈ fs, file = f.id ∧
      ∃ ts, PathOf f.id ts i.segments := by
  obtain ⟨f, hf, hfile, p, hp, node, ts, next, hitem, -⟩ := h id _ hi
  refine ⟨f, hf, hfile, ?_⟩
  obtain rfl := Option.some.inj (hp.symm.trans (stored?_imports.2 ⟨file, hi⟩))
  cases hitem with
  | imports _ _ hs => exact ⟨_, hs⟩

end Tree.ReadFrom

/-- **Every item** of the tree of a set of files was read from its file. -/
theorem SourceSet.readFrom_parse (s : SourceSet) : s.parse.tree.ReadFrom s.files.toList := by
  have hfold : ∀ (fs : List SourceFile) (p : ParsedSources), (∀ f ∈ fs, f ∈ s.files.toList) →
      p.tree.ReadFrom s.files.toList →
      (fs.foldl ParsedSources.add p).tree.ReadFrom s.files.toList := by
    intro fs
    induction fs with
    | nil => exact fun p _ h => h
    | cons f fs ih =>
      intro p hfs h
      obtain ⟨hf, hfs⟩ := List.forall_mem_cons.1 hfs
      exact ih (p.add f) hfs (h.addFile hf p.nextId)
  refine hfold _ ParsedSources.empty (fun f hf => hf) fun id it hi => ?_
  have := Tree.item?_le hi
  simp [ParsedSources.empty, Tree.empty] at this
  omega

end StateBuffer
