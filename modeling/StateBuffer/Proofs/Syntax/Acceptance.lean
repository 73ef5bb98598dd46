import StateBuffer.Proofs.Syntax.Items
import StateBuffer.Proofs.Syntax.Storage

/-!
The reader of files accepts exactly the grammar. A file is read without an error if and only if it
is a list of tokens that derives a module, and what is then stored are the items of that
derivation. Since a text has only one list of tokens, the items depend on the texts of the tokens
alone, apart from their spans.
-/

namespace StateBuffer

namespace Grammar

open StateBuffer.Parser

/-! ### Whole modules -/

lemma itemOf_ne_nil {file : FileId} {node next : NodeId} {ts : List Lexeme} {it : ParsedItem}
    (h : ItemOf file node ts it next) : ts ≠ [] := by
  cases h <;> simp

section Modules

variable [CodePoint.Edition]

lemma further_item (index : Nat) (c : Cursor) :
    further (if index = 0 then none else none) item c = match item c with
      | (.error e, c) => (.error (.item e), c)
      | (.ok it, c) => (.ok it, c) := by
  rw [ite_self, further_none]
  rcases item c with ⟨e | it, c'⟩
  · rfl
  · rfl

/-- **Soundness of modules**: the complete items of any file derive from its tokens up to the place
where reading stopped, which is the end unless no item could be read there. -/
lemma items_sound (index : Nat) {c c' : Cursor} {found : Repetition ParsedItem}
    (hc : c.scope = []) (h : manyFrom 0 none item index c = (found, c')) :
    (∃ ts n, ModuleOf c.file c.nextId ts found.items (c.nextId + n) ∧ Moved c ts n c') ∧
      found.fatal = none ∧ (found.deferred = none → c'.rest = []) ∧
      ∀ e ∈ found.deferred, ∃ d c1 : Cursor, item (d.rewind c') = (.error e, c1) := by
  induction hn : c.rest.length using Nat.strongRecOn generalizing c c' index found with
  | _ n ih =>
    by_cases hend : (c.skipTrivia.atEnd && decide (0 ≤ index)) = true
    · rw [manyFrom_end hend] at h
      cases h
      refine ⟨⟨[], 0, .nil _, moved_skipTrivia c⟩, rfl, fun _ => ?_, by simp⟩
      simpa [Cursor.atEnd] using hend
    have hfurther := further_item index c.skipTrivia
    rcases hread : item c.skipTrivia with ⟨e | it, c1⟩
    · rw [hread] at hfurther
      obtain ⟨deferred, fatal, he, hf, -⟩ := manyFrom_halt hend hfurther
      rw [he] at h
      cases h
      obtain ⟨rfl, rfl⟩ := hf (Nat.zero_le index)
      refine ⟨⟨[], 0, .nil _, (moved_skipTrivia c).rewind⟩, rfl, by simp, ?_⟩
      rintro e' ⟨⟩
      exact ⟨c.skipTrivia, c1, hread⟩
    · obtain ⟨ts, m, hi, hm⟩ := item_sound (c := c.skipTrivia) hc hread
      have hm := hm.of_skip
      have hlt := hm.lt (itemOf_ne_nil hi)
      rw [hread] at hfurther
      rw [manyFrom_step hend hfurther hlt] at h
      cases h
      obtain ⟨⟨us, k, hus, hmu⟩, hf, hd, hstop⟩ :=
        ih c1.rest.length (hn ▸ hlt) (index + 1) (hm.scope.trans hc) rfl rfl
      rw [hm.file, hm.nextId] at hus
      refine ⟨⟨ts ++ us, m + k, ?_, hm.trans hmu⟩, hf, hd, hstop⟩
      rw [← Nat.add_assoc]
      exact .cons hi hus

/-- **Completeness of modules**: the items that the tokens of a text derive are read. -/
lemma items_complete (index : Nat) {c : Cursor} {ts : List Lexeme} {items : List ParsedItem}
    {last : NodeId} (hc : c.scope = []) (h : Lexed c.size c.rest ts [])
    (hm : ModuleOf c.file c.nextId ts items last) :
    ∃ c', manyFrom 0 none item index c = (⟨items, none, none⟩, c') ∧ c'.nextId = last := by
  generalize hfile : c.file = file at hm
  generalize hnode : c.nextId = node at hm
  induction hm generalizing c index with
  | nil node =>
    have hrest : dropTrivia c.rest = [] := by
      cases h with
      | nil h => rw [dropTrivia_of_trivia h, dropTrivia_solid ⟨rfl, by simp⟩]
    exact ⟨c.skipTrivia, manyFrom_end (by simp [Cursor.atEnd, hrest]), hnode⟩
  | @cons node next last ts us it items hi _ ih =>
    subst hfile hnode
    obtain ⟨n, rfl, c1, h1, m1⟩ := item_complete (c := c.skipTrivia) hc h.skipTrivia hi
    have m1 := m1.of_skip
    obtain ⟨c2, h2, hlast⟩ := ih (index + 1) (m1.scope.trans hc) (m1.rest h) m1.file
      m1.nextId
    refine ⟨c2, ?_, hlast⟩
    obtain ⟨t, ts', rfl⟩ := List.exists_cons_of_ne_nil (itemOf_ne_nil hi)
    have hfurther := further_item index c.skipTrivia
    rw [h1] at hfurther
    rw [manyFrom_step (not_atEnd h _) hfurther (m1.lt (by simp)), h2]

/-- **The reader of files** gives no error exactly on the derivations of the grammar. -/
theorem file_ok_iff {id : FileId} {content : Bytes} {node last : NodeId}
    {items : List ParsedItem} :
    (file id content node).error = none ∧ (file id content node).items = items ∧
        (file id content node).nextId = last ↔
      ∃ ts, Lexed content.length content ts [] ∧ ModuleOf id node ts items last := by
  have hsize := size_start id content node
  constructor
  · rintro ⟨he, rfl, rfl⟩
    obtain ⟨⟨ts, n, hm, hmoved⟩, hf, hd, -⟩ :=
      items_sound 0 (c := Cursor.start id content node) rfl rfl
    have hdef : (manyFrom 0 none item 0 (Cursor.start id content node)).1.deferred = none := by
      simpa [file, hf] using he
    refine ⟨ts, ?_, ?_⟩
    · have := hmoved.lexed
      rwa [hd hdef, hsize] at this
    · simp only [file, hmoved.nextId]
      exact hm
  · rintro ⟨ts, hl, hm⟩
    obtain ⟨c', h, rfl⟩ := items_complete 0 (c := Cursor.start id content node) rfl
      (hsize ▸ hl) hm
    simp [file, h]

end Modules

/-! ### Spans apart -/

def segmentShape : Segment → Segment
  | .parent _ => .parent Span.none
  | .name component _ => .name component Span.none

def exprShape (e : Expr) : Expr := { e with span := Span.none }

/-- An item without its places: its kind, marks, names, values, scopes and node numbers. -/
def ParsedItem.shape : ParsedItem → ParsedItem
  | .imports _ i => .imports Span.none
      { i with pubSpan := Span.none, keywordSpan := Span.none
               segments := i.segments.map segmentShape }
  | .definition _ d value => .definition Span.none
      { d with pubSpan := Span.none, keywordSpan := Span.none, nameSpan := Span.none }
      (exprShape value)

section Shape

variable {file : FileId} {ts us : List Lexeme}

lemma map_text_append {ts us vs : List Lexeme}
    (h : vs.map Lexeme.text = (ts ++ us).map Lexeme.text) :
    ∃ ts' us', vs = ts' ++ us' ∧ ts'.map Lexeme.text = ts.map Lexeme.text ∧
      us'.map Lexeme.text = us.map Lexeme.text := by
  rw [List.map_append, List.map_eq_append_iff] at h
  exact h

lemma map_text_cons {t : Lexeme} {ts vs : List Lexeme}
    (h : vs.map Lexeme.text = (t :: ts).map Lexeme.text) :
    ∃ t' ts', vs = t' :: ts' ∧ t'.text = t.text ∧ ts'.map Lexeme.text = ts.map Lexeme.text := by
  rw [List.map_cons, List.map_eq_cons_iff] at h
  exact h

lemma map_text_option {pub : Option Lexeme} {vs : List Lexeme}
    (h : vs.map Lexeme.text = pub.toList.map Lexeme.text) :
    ∃ pub' : Option Lexeme, vs = pub'.toList ∧ pub'.map Lexeme.text = pub.map Lexeme.text := by
  cases pub with
  | none => exact ⟨none, by simpa using h, rfl⟩
  | some t =>
    obtain ⟨t', ts', rfl, ht, hts⟩ := map_text_cons h
    exact ⟨some t', by simpa using hts, by simp [ht]⟩

lemma exprOf_shape {node : NodeId} {scope : Scope} {t t' : Lexeme} {value : Expr}
    (h : ExprOf file node scope t value) (ht : t'.text = t.text) :
    ∃ value', ExprOf file node scope t' value' ∧ exprShape value' = exprShape value := by
  cases h with
  | literal h => exact ⟨_, .literal (ht ▸ h), by simp [exprShape, ht]⟩
  | name h => exact ⟨_, .name (ht ▸ h), by simp [exprShape, ht]⟩

lemma dotted_shape {P : Bytes → Prop} {f : Lexeme → Segment} {segments : List Segment}
    (hf : ∀ t t' : Lexeme, t'.text = t.text → segmentShape (f t') = segmentShape (f t))
    (h : Dotted P f ts segments) {vs : List Lexeme}
    (hv : vs.map Lexeme.text = ts.map Lexeme.text) :
    ∃ segments', Dotted P f vs segments' ∧
      segments'.map segmentShape = segments.map segmentShape := by
  induction h generalizing vs with
  | one h =>
    obtain ⟨t', ts', rfl, ht, hts⟩ := map_text_cons hv
    obtain rfl : ts' = [] := by simpa using hts
    exact ⟨_, .one (ht ▸ h), by simp [hf _ _ ht]⟩
  | more h hd _ ih =>
    obtain ⟨t', ts', rfl, ht, hts⟩ := map_text_cons hv
    obtain ⟨d', us', rfl, hd', hus⟩ := map_text_cons hts
    obtain ⟨segments', hs, he⟩ := ih hus
    exact ⟨_, .more (ht ▸ h) (hd'.trans hd) hs, by simp [hf _ _ ht, he]⟩

lemma pathOf_shape {segments : List Segment} (h : PathOf file ts segments) {vs : List Lexeme}
    (hv : vs.map Lexeme.text = ts.map Lexeme.text) :
    ∃ segments', PathOf file vs segments' ∧
      segments'.map segmentShape = segments.map segmentShape := by
  have hname : ∀ t t' : Lexeme, t'.text = t.text →
      segmentShape (nameOf file t') = segmentShape (nameOf file t) := by
    intro t t' ht
    simp [segmentShape, nameOf, ht]
  cases h with
  | names h =>
    obtain ⟨segments', hs, he⟩ := dotted_shape hname h hv
    exact ⟨segments', .names hs, he⟩
  | parents hp hd h =>
    obtain ⟨us', ws, rfl, hus, hws⟩ := map_text_append hv
    obtain ⟨d', ts', rfl, hd', hts⟩ := map_text_cons hws
    obtain ⟨ps, hps, hep⟩ := dotted_shape (fun _ _ _ => rfl) hp hus
    obtain ⟨ns, hns, hen⟩ := dotted_shape hname h hts
    exact ⟨ps ++ ns, .parents hps (hd'.trans hd) hns, by simp [hep, hen]⟩

lemma bindingOf_shape {node : NodeId} {scope : Scope} {n s : Lexeme} {value : Expr}
    (h : BindingOf file node scope n s value ts) {vs : List Lexeme}
    (hv : vs.map Lexeme.text = ts.map Lexeme.text) :
    ∃ n' s' value', BindingOf file node scope n' s' value' vs ∧ n'.text = n.text ∧
      exprShape value' = exprShape value := by
  obtain ⟨hn, he, ht, hs⟩ := h
  obtain ⟨n', _, rfl, hn', hv⟩ := map_text_cons hv
  obtain ⟨e', _, rfl, he', hv⟩ := map_text_cons hv
  obtain ⟨t', _, rfl, ht', hv⟩ := map_text_cons hv
  obtain ⟨s', ws, rfl, hs', hv⟩ := map_text_cons hv
  obtain rfl : ws = [] := by simpa using hv
  obtain ⟨value', hval, hshape⟩ := exprOf_shape ht ht'
  exact ⟨n', s', value', .mk (hn' ▸ hn) (he'.trans he) hval (hs'.trans hs), hn', hshape⟩

lemma pub_shape {pub pub' : Option Lexeme} (h : pub'.map Lexeme.text = pub.map Lexeme.text)
    (hp : ∀ t ∈ pub, t.text = "pub") : (∀ t ∈ pub', t.text = "pub") ∧ pub'.isSome = pub.isSome := by
  cases pub <;> cases pub' <;> simp_all

lemma itemOf_shape {node next : NodeId} {it : ParsedItem} (h : ItemOf file node ts it next)
    {vs : List Lexeme} (hv : vs.map Lexeme.text = ts.map Lexeme.text) :
    ∃ it', ItemOf file node vs it' next ∧ it'.shape = it.shape := by
  cases h with
  | imports hp hk hs he =>
    obtain ⟨ps, ws, rfl, hps, hws⟩ := map_text_append hv
    obtain ⟨pub', rfl, hpub⟩ := map_text_option hps
    obtain ⟨k', _, rfl, hk', hws⟩ := map_text_cons hws
    obtain ⟨path', ws, rfl, hpath, hws⟩ := map_text_append hws
    obtain ⟨s', ws, rfl, hs', hws⟩ := map_text_cons hws
    obtain rfl : ws = [] := by simpa using hws
    obtain ⟨segments', hseg, hshape⟩ := pathOf_shape hs hpath
    obtain ⟨hp', hsome⟩ := pub_shape hpub hp
    exact ⟨_, .imports hp' (hk'.trans hk) hseg (hs'.trans he),
      by simp [ParsedItem.shape, hshape, hsome]⟩
  | var hp hk hb =>
    obtain ⟨ps, ws, rfl, hps, hws⟩ := map_text_append hv
    obtain ⟨pub', rfl, hpub⟩ := map_text_option hps
    obtain ⟨k', _, rfl, hk', hws⟩ := map_text_cons hws
    obtain ⟨n', s', value', hb', hn, hshape⟩ := bindingOf_shape hb hws
    obtain ⟨hp', hsome⟩ := pub_shape hpub hp
    exact ⟨_, .var hp' (hk'.trans hk) hb', by simp [ParsedItem.shape, hshape, hsome, hn]⟩
  | const hk hb =>
    obtain ⟨k', _, rfl, hk', hws⟩ := map_text_cons hv
    obtain ⟨n', s', value', hb', hn, hshape⟩ := bindingOf_shape hb hws
    exact ⟨_, .const (hk'.trans hk) hb', by simp [ParsedItem.shape, hshape, hn]⟩

lemma moduleOf_shape {node last : NodeId} {items : List ParsedItem}
    (h : ModuleOf file node ts items last) {vs : List Lexeme}
    (hv : vs.map Lexeme.text = ts.map Lexeme.text) :
    ∃ items', ModuleOf file node vs items' last ∧
      items'.map ParsedItem.shape = items.map ParsedItem.shape := by
  induction h generalizing vs with
  | nil node =>
    obtain rfl : vs = [] := by simpa using hv
    exact ⟨[], .nil node, rfl⟩
  | cons hi _ ih =>
    obtain ⟨ts', us', rfl, hts, hus⟩ := map_text_append hv
    obtain ⟨it', hi', he⟩ := itemOf_shape hi hts
    obtain ⟨items', hs', hes⟩ := ih hus
    exact ⟨it' :: items', .cons hi' hs', by simp [he, hes]⟩

end Shape

lemma moduleOf_value {file : FileId} {node last : NodeId} {ts : List Lexeme}
    {items : List ParsedItem} (h : ModuleOf file node ts items last) :
    ∀ it ∈ items, ∀ span d value, it = .definition span d value → d.value = 0 := by
  induction h with
  | nil => simp
  | cons hi _ ih =>
    intro it hit
    rcases List.mem_cons.1 hit with rfl | hit
    · rintro span d value rfl
      cases hi <;> rfl
    · exact ih it hit

end Grammar

lemma Lexed.of_dropTrivia [CodePoint.Edition] {size : Nat} {s : Bytes} (text rest : Bytes)
    {ts : List Lexeme}
    (he : dropTrivia s = text ++ rest)
    (hs : text ∈ marks ∨ (IsWord text ∨ IsLiteral text) ∧ runsOn rest = false)
    (h : Lexed size rest ts []) : Lexed size s (⟨size - (text ++ rest).length, text⟩ :: ts) [] := by
  refine .cons ⟨he ▸ (trivia_dropTrivia s).1, hs.imp_right fun h => ⟨h.1, ?_⟩, rfl⟩ h
  rw [← runsOn_iff, h.2]
  simp

namespace Tree

open Grammar

lemma addFile_eq [CodePoint.Edition] (t : Tree) (id : FileId) (content : Bytes) (node : NodeId) :
    (t.addFile id content node).1.error = (file id content node).error ∧
      (t.addFile id content node).1.nextId = (file id content node).nextId ∧
      (t.addFile id content node).1.items.map (t.addFile id content node).2.stored? =
        (file id content node).items.map some := by
  refine ⟨rfl, rfl, stored?_storeAll _ id ?_⟩
  obtain ⟨⟨ts, n, hm, -⟩, -, -⟩ :=
    items_sound 0 (c := Cursor.start id content node) rfl rfl
  exact moduleOf_value hm

/-- **The reader accepts exactly its grammar.** A file is read into the tree without an error, with
given items and a given next node number, if and only if its text is a list of tokens that derives
these items. The texts of the tokens decide everything but the spans: another text with the same
ones is accepted too, with items of the same shape and the same node numbers. So it is with the
letters and digits of any edition of Unicode. -/
theorem addFile_ok_iff [CodePoint.Edition] (t : Tree) (id : FileId) (content : Bytes)
    (node : NodeId) (items : List ParsedItem) (last : NodeId) :
    ((t.addFile id content node).1.error = none ∧
        (t.addFile id content node).1.items.map (t.addFile id content node).2.stored? =
          items.map some ∧
        (t.addFile id content node).1.nextId = last ↔
      ∃ ts, Lexed content.length content ts [] ∧ ModuleOf id node ts items last) ∧
    ∀ ts, Lexed content.length content ts [] → ModuleOf id node ts items last →
      ∀ content' ts', Lexed content'.length content' ts' [] →
        ts'.map Lexeme.text = ts.map Lexeme.text →
        ∃ items' : List ParsedItem, (t.addFile id content' node).1.error = none ∧
          (t.addFile id content' node).1.items.map (t.addFile id content' node).2.stored? =
            items'.map some ∧
          (t.addFile id content' node).1.nextId = last ∧
          items'.map ParsedItem.shape = items.map ParsedItem.shape := by
  constructor
  · obtain ⟨he, hn, hi⟩ := addFile_eq t id content node
    rw [he, hn, hi, ← file_ok_iff, List.map_inj_right fun _ _ h => Option.some.inj h]
  · intro ts _ hm content' ts' hl' htext
    obtain ⟨items', hm', hshape⟩ := moduleOf_shape hm htext
    obtain ⟨he, hi, hn⟩ := file_ok_iff.2 ⟨ts', hl', hm'⟩
    obtain ⟨he', hn', hi'⟩ := addFile_eq t id content' node
    exact ⟨items', he'.trans he, by rw [hi', hi], hn'.trans hn, hshape⟩

/-- A comment and blanks between the tokens of a variable change nothing but its spans. -/
theorem addFile_ok_iff_commented :
    ∃ ts ts' : List Lexeme, Lexed 9 "var a=-1;" ts [] ∧
      ModuleOf 1 0 ts (file 1 "var a=-1;" 0).items 2 ∧
      Lexed 19 "var a = // one\n-1;\n" ts' [] ∧ ts'.map Lexeme.text = ts.map Lexeme.text ∧
      ∃ items' : List ParsedItem,
        (Tree.empty.addFile 1 "var a = // one\n-1;\n" 0).1.error = none ∧
        (Tree.empty.addFile 1 "var a = // one\n-1;\n" 0).1.items.map
          (Tree.empty.addFile 1 "var a = // one\n-1;\n" 0).2.stored? = items'.map some ∧
        (Tree.empty.addFile 1 "var a = // one\n-1;\n" 0).1.nextId = 2 ∧
        items'.map ParsedItem.shape = (file 1 "var a=-1;" 0).items.map ParsedItem.shape := by
  have hv : IsWord ("var" : Bytes) := isWord_of_check (by decide +kernel)
  have ha : IsWord ("a" : Bytes) := isWord_of_check (by decide +kernel)
  have hl : IsLiteral ("-1" : Bytes) :=
    ⟨[0x2D], 0x31, [], by decide +kernel, .inr rfl, by decide +kernel, by simp⟩
  have h1 : Lexed 9 "var a=-1;" [⟨0, "var"⟩, ⟨4, "a"⟩, ⟨5, "="⟩, ⟨6, "-1"⟩, ⟨8, ";"⟩] [] :=
    .of_dropTrivia "var" " a=-1;" (by decide +kernel) (.inr ⟨.inl hv, by decide +kernel⟩) <|
    .of_dropTrivia "a" "=-1;" (by decide +kernel) (.inr ⟨.inl ha, by decide +kernel⟩) <|
    .of_dropTrivia "=" "-1;" (by decide +kernel) (.inl (by decide +kernel)) <|
    .of_dropTrivia "-1" ";" (by decide +kernel) (.inr ⟨.inr hl, by decide +kernel⟩) <|
    .of_dropTrivia ";" [] (by decide +kernel) (.inl (by decide +kernel)) <|
    .nil (.none _)
  have h2 : Lexed 19 "var a = // one\n-1;\n" _ [] :=
    .of_dropTrivia "var" " a = // one\n-1;\n" (by decide +kernel)
      (.inr ⟨.inl hv, by decide +kernel⟩) <|
    .of_dropTrivia "a" " = // one\n-1;\n" (by decide +kernel)
      (.inr ⟨.inl ha, by decide +kernel⟩) <|
    .of_dropTrivia "=" " // one\n-1;\n" (by decide +kernel) (.inl (by decide +kernel)) <|
    .of_dropTrivia "-1" ";\n" (by decide +kernel) (.inr ⟨.inr hl, by decide +kernel⟩) <|
    .of_dropTrivia ";" "\n" (by decide +kernel) (.inl (by decide +kernel)) <|
    .nil ((show dropTrivia "\n" = [] by decide +kernel) ▸ (trivia_dropTrivia "\n").1)
  have hm : ModuleOf 1 0 [⟨0, "var"⟩, ⟨4, "a"⟩, ⟨5, "="⟩, ⟨6, "-1"⟩, ⟨8, ";"⟩]
      (file 1 "var a=-1;" 0).items 2 := by
    rw [show (file 1 "var a=-1;" 0).items = [.definition ⟨1, 0, 9⟩
      ⟨.var, 0, [0], false, Span.none, ⟨1, 0, 3⟩, "a", ⟨1, 4, 5⟩, 0⟩
      ⟨1, ⟨1, 6, 8⟩, [0], .literal "-1"⟩] by decide +kernel]
    exact .cons (.var (by simp : ∀ t ∈ (none : Option Lexeme), t.text = "pub") rfl
      (.mk ⟨ha, by decide +kernel⟩ rfl (.literal hl) rfl)) (.nil 2)
  exact ⟨_, _, h1, hm, h2, rfl,
    (addFile_ok_iff Tree.empty 1 "var a=-1;" 0 _ 2).2 _ h1 hm _ _ h2 rfl⟩

end Tree

end StateBuffer
