import StateBuffer.Proofs.Syntax.Acceptance

/-!
The grammar one token at a time. Between two tokens of a module there are eleven kinds of places;
the next token leads from one place to another, and never to two. The modules are the ways from the
place in front of an item back to it. From every place there is a way back, so whatever leads to
some place is the beginning of a module.
-/

namespace StateBuffer

namespace Grammar

/-- A place between two tokens, told by what comes next or has just come. -/
inductive Place where
  /-- In front of an item, or at the end. -/
  | item
  /-- After `pub`. -/
  | marked
  /-- After `import`. -/
  | path
  /-- After a tilde. -/
  | parent
  /-- After a tilde and a dot. -/
  | level
  /-- After a name of a path. -/
  | component
  /-- After a name of a path and a dot. -/
  | segment
  /-- After `var` or `const`. -/
  | name
  | equals
  | value
  | semicolon
  deriving DecidableEq, Repr

/-- Where a token leads. -/
def Step : Place → Bytes → Place → Prop
  | .item, x, q => x = "pub" ∧ q = .marked ∨ x = "import" ∧ q = .path ∨
      x = "var" ∧ q = .name ∨ x = "const" ∧ q = .name
  | .marked, x, q => x = "import" ∧ q = .path ∨ x = "var" ∧ q = .name
  | .path, x, q => x = "~" ∧ q = .parent ∨ IsName x ∧ q = .component
  | .parent, x, q => x = "." ∧ q = .level
  | .level, x, q => x = "~" ∧ q = .parent ∨ IsName x ∧ q = .component
  | .component, x, q => x = "." ∧ q = .segment ∨ x = ";" ∧ q = .item
  | .segment, x, q => IsName x ∧ q = .component
  | .name, x, q => IsName x ∧ q = .equals
  | .equals, x, q => x = "=" ∧ q = .value
  | .value, x, q => (IsLiteral x ∨ IsName x) ∧ q = .semicolon
  | .semicolon, x, q => x = ";" ∧ q = .item

/-- Where tokens lead one after another. -/
def Trail : Place → List Bytes → Place → Prop
  | q, [], q' => q = q'
  | q, x :: xs, q' => ∃ q1, Step q x q1 ∧ Trail q1 xs q'

section Trails

variable {q q1 q2 : Place} {x : Bytes} {xs ys : List Bytes}

lemma Step.unique (h : Step q x q1) (h' : Step q x q2) : q1 = q2 := by
  have hmark : ∀ {x : Bytes}, IsName x → x ∉ marks := fun h => not_mark_of_word h.1
  cases q <;> simp only [Step] at h h'
  case item =>
    rcases h with ⟨rfl, rfl⟩ | ⟨rfl, rfl⟩ | ⟨rfl, rfl⟩ | ⟨rfl, rfl⟩ <;>
      rcases h' with ⟨h', rfl⟩ | ⟨h', rfl⟩ | ⟨h', rfl⟩ | ⟨h', rfl⟩ <;>
      first | rfl | exact absurd h' (by decide)
  case marked | component =>
    rcases h with ⟨rfl, rfl⟩ | ⟨rfl, rfl⟩ <;> rcases h' with ⟨h', rfl⟩ | ⟨h', rfl⟩ <;>
      first | rfl | exact absurd h' (by decide)
  case path | level =>
    rcases h with ⟨rfl, rfl⟩ | ⟨hx, rfl⟩ <;> rcases h' with ⟨hx', rfl⟩ | ⟨hx', rfl⟩
    · rfl
    · exact absurd (by decide) (hmark hx')
    · exact absurd (by rw [hx']; decide) (hmark hx)
    · rfl
  all_goals exact h.2.trans h'.2.symm

lemma Trail.append (h : Trail q xs q1) (h' : Trail q1 ys q2) : Trail q (xs ++ ys) q2 := by
  induction xs generalizing q with
  | nil =>
    obtain rfl : q = q1 := h
    exact h'
  | cons x xs ih =>
    obtain ⟨q', hx, hxs⟩ := h
    exact ⟨q', hx, ih hxs⟩

lemma Trail.split (h : Trail q (xs ++ ys) q2) : ∃ q1, Trail q xs q1 ∧ Trail q1 ys q2 := by
  induction xs generalizing q with
  | nil => exact ⟨q, rfl, h⟩
  | cons x xs ih =>
    obtain ⟨q', hx, hxs⟩ := h
    obtain ⟨q1, h1, h2⟩ := ih hxs
    exact ⟨q1, ⟨q', hx, h1⟩, h2⟩

lemma Trail.unique (h : Trail q xs q1) (h' : Trail q xs q2) : q1 = q2 := by
  induction xs generalizing q with
  | nil => exact h.symm.trans h'
  | cons x xs ih =>
    obtain ⟨q', hx, hxs⟩ := h
    obtain ⟨q'', hx', hxs'⟩ := h'
    obtain rfl := hx.unique hx'
    exact ih hxs hxs'

lemma Trail.next (h : Trail q (xs ++ x :: ys) q2) (hx : Trail q xs q1) : ∃ q', Step q1 x q' := by
  obtain ⟨q3, h3, q', hstep, -⟩ := h.split
  obtain rfl := hx.unique h3
  exact ⟨q', hstep⟩

lemma Step.isToken (h : Step q x q1) : IsToken x := by
  have hword : ∀ {x : Bytes}, x ∈ ("pub" : Bytes) :: keywords → IsToken x := fun hx => by
    rcases terminal_keyword hx with ⟨hm, -⟩ | ⟨hw, -⟩
    · exact .inl hm
    · exact .inr (.inl hw)
  cases q <;> simp only [Step] at h
  case item =>
    rcases h with ⟨rfl, -⟩ | ⟨rfl, -⟩ | ⟨rfl, -⟩ | ⟨rfl, -⟩ <;> exact hword (by decide)
  case marked => rcases h with ⟨rfl, -⟩ | ⟨rfl, -⟩ <;> exact hword (by decide)
  case component => rcases h with ⟨rfl, -⟩ | ⟨rfl, -⟩ <;> exact .inl (by decide)
  case path | level =>
    rcases h with ⟨rfl, -⟩ | ⟨h, -⟩
    · exact .inl (by decide)
    · exact .inr (.inl h.1)
  case segment | name => exact .inr (.inl h.1.1)
  case value => exact .inr (h.1.symm.imp_left And.left)
  all_goals exact .inl (h.1 ▸ by decide)

lemma Trail.isToken (h : Trail q xs q1) : ∀ x ∈ xs, IsToken x := by
  induction xs generalizing q with
  | nil => simp
  | cons x xs ih =>
    obtain ⟨q', hx, hxs⟩ := h
    exact List.forall_mem_cons.2 ⟨hx.isToken, ih hxs⟩

end Trails

/-! ### What the grammar derives leads back to its start -/

section Derived

variable {file : FileId} {ts : List Lexeme}

lemma dotted_trail {α : Type} {P : Bytes → Prop} {f : Lexeme → α} {as : List α}
    {q after : Place} (between : Place) (h : Dotted P f ts as) (hfirst : ∀ x, P x → Step q x after)
    (hdot : Step after "." between) (hmore : ∀ x, P x → Step between x after) :
    Trail q (ts.map Lexeme.text) after := by
  induction h generalizing q with
  | one h => exact ⟨after, hfirst _ h, rfl⟩
  | more h hd _ ih => exact ⟨after, hfirst _ h, between, hd ▸ hdot, ih hmore⟩

lemma names_trail {segments : List Segment} {q : Place}
    (h : Dotted IsName (nameOf file) ts segments) (hfirst : ∀ x, IsName x → Step q x .component) :
    Trail q (ts.map Lexeme.text) .component :=
  dotted_trail .segment h hfirst (.inl ⟨rfl, rfl⟩) fun _ hx => ⟨hx, rfl⟩

lemma parents_trail {segments : List Segment}
    (h : Dotted (· = "~") (parentOf file) ts segments) :
    Trail .path (ts.map Lexeme.text) .parent :=
  dotted_trail .level h (fun _ hx => .inl ⟨hx, rfl⟩) ⟨rfl, rfl⟩ fun _ hx => .inl ⟨hx, rfl⟩

lemma pathOf_trail {segments : List Segment} (h : PathOf file ts segments) :
    Trail .path (ts.map Lexeme.text) .component := by
  cases h with
  | names h => exact names_trail h fun _ hx => .inr ⟨hx, rfl⟩
  | @parents us ts dot _ _ hp hd h =>
    have hnames := names_trail (q := .level) h fun _ hx => .inr ⟨hx, rfl⟩
    rw [List.map_append]
    exact (parents_trail hp).append ⟨.level, ⟨hd, rfl⟩, hnames⟩

lemma bindingOf_trail {node : NodeId} {scope : Scope} {name semicolon : Lexeme} {value : Expr}
    (h : BindingOf file node scope name semicolon value ts) :
    Trail .name (ts.map Lexeme.text) .item := by
  obtain ⟨hn, he, hv, hs⟩ := h
  refine ⟨.equals, ⟨hn, rfl⟩, .value, ⟨he, rfl⟩, .semicolon, ⟨?_, rfl⟩, .item, ⟨hs, rfl⟩, rfl⟩
  cases hv with
  | literal h => exact .inl h
  | name h => exact .inr h

lemma pub_trail {pub : Option Lexeme} {k : Lexeme} {q : Place} (hp : ∀ t ∈ pub, t.text = "pub")
    (hk : Step .item k.text q) (hk' : Step .marked k.text q) {us : List Lexeme} {q' : Place}
    (h : Trail q (us.map Lexeme.text) q') :
    Trail .item ((pub.toList ++ k :: us).map Lexeme.text) q' := by
  cases pub with
  | none => exact ⟨q, hk, h⟩
  | some t => exact ⟨.marked, .inl ⟨hp t rfl, rfl⟩, q, hk', h⟩

lemma itemOf_trail {node next : NodeId} {it : ParsedItem} (h : ItemOf file node ts it next) :
    Trail .item (ts.map Lexeme.text) .item := by
  cases h with
  | imports hp hk hs he =>
    refine pub_trail hp (.inr (.inl ⟨hk, rfl⟩)) (.inl ⟨hk, rfl⟩) ?_
    rw [List.map_append]
    exact (pathOf_trail hs).append ⟨.item, .inr ⟨he, rfl⟩, rfl⟩
  | var hp hk hb =>
    exact pub_trail hp (.inr (.inr (.inl ⟨hk, rfl⟩))) (.inr ⟨hk, rfl⟩) (bindingOf_trail hb)
  | const hk hb => exact ⟨.name, .inr (.inr (.inr ⟨hk, rfl⟩)), bindingOf_trail hb⟩

/-- **Modules are trails**: the tokens of a module lead back to the place in front of an item. -/
theorem moduleOf_trail {node last : NodeId} {items : List ParsedItem}
    (h : ModuleOf file node ts items last) : Trail .item (ts.map Lexeme.text) .item := by
  induction h with
  | nil => exact rfl
  | cons hi _ ih =>
    rw [List.map_append]
    exact (itemOf_trail hi).append ih

end Derived

/-! ### What leads back is derived -/

section Begun

variable {file : FileId} {fs : List Lexeme} {x : Lexeme}

/-- The keyword of an import, and `pub` if any. -/
def ImportKeyed (fs : List Lexeme) : Prop :=
  ∃ (pub : Option Lexeme) (k : Lexeme), fs = pub.toList ++ [k] ∧ (∀ t ∈ pub, t.text = "pub") ∧
    k.text = "import"

/-- The keyword of a definition, and `pub` if any. -/
def DefinitionKeyed (fs : List Lexeme) : Prop :=
  ∃ (pub : Option Lexeme) (k : Lexeme), fs = pub.toList ++ [k] ∧ (∀ t ∈ pub, t.text = "pub") ∧
    (k.text = "var" ∨ k.text = "const" ∧ pub = none)

/-- What has come of an item up to a place in it. -/
def Begun (file : FileId) : Place → List Lexeme → Prop
  | .item, fs => fs = []
  | .marked, fs => ∃ p : Lexeme, fs = [p] ∧ p.text = "pub"
  | .path, fs => ImportKeyed fs
  | .parent, fs => ∃ ks us parents, fs = ks ++ us ∧ ImportKeyed ks ∧
      Dotted (· = "~") (parentOf file) us parents
  | .level, fs => ∃ ks us parents, ∃ dot : Lexeme, fs = ks ++ (us ++ [dot]) ∧ ImportKeyed ks ∧
      Dotted (· = "~") (parentOf file) us parents ∧ dot.text = "."
  | .component, fs => ∃ ks path segments, fs = ks ++ path ∧ ImportKeyed ks ∧
      PathOf file path segments
  | .segment, fs => ∃ ks path segments, ∃ dot : Lexeme, fs = ks ++ (path ++ [dot]) ∧
      ImportKeyed ks ∧ PathOf file path segments ∧ dot.text = "."
  | .name, fs => DefinitionKeyed fs
  | .equals, fs => ∃ ks, ∃ name : Lexeme, fs = ks ++ [name] ∧ DefinitionKeyed ks ∧ IsName name.text
  | .value, fs => ∃ ks, ∃ name equals : Lexeme, fs = ks ++ [name, equals] ∧ DefinitionKeyed ks ∧
      IsName name.text ∧ equals.text = "="
  | .semicolon, fs => ∃ ks, ∃ name equals value : Lexeme, fs = ks ++ [name, equals, value] ∧
      DefinitionKeyed ks ∧ IsName name.text ∧ equals.text = "=" ∧
      (IsLiteral value.text ∨ IsName value.text)

lemma dotted_snoc {α : Type} {P : Bytes → Prop} {f : Lexeme → α} {ts : List Lexeme} {as : List α}
    (h : Dotted P f ts as) {dot t : Lexeme} (hd : dot.text = ".") (ht : P t.text) :
    Dotted P f (ts ++ [dot, t]) (as ++ [f t]) := by
  induction h with
  | one h => exact .more h hd (.one ht)
  | more h hd' _ ih => exact .more h hd' ih

lemma pathOf_snoc {path : List Lexeme} {segments : List Segment} (h : PathOf file path segments)
    {dot t : Lexeme} (hd : dot.text = ".") (ht : IsName t.text) :
    PathOf file (path ++ [dot, t]) (segments ++ [nameOf file t]) := by
  cases h with
  | names h => exact .names (dotted_snoc h hd ht)
  | parents hp hd' h =>
    simpa using PathOf.parents hp hd' (dotted_snoc h hd ht)

/-- The next token is put behind what has come of the item, unless it ends it. -/
lemma Begun.step {q q1 : Place} (h : Begun file q fs) (hx : Step q x.text q1) (hq : q1 ≠ .item) :
    Begun file q1 (fs ++ [x]) := by
  cases q <;> simp only [Begun] at h <;> simp only [Step] at hx
  case item =>
    subst h
    rcases hx with ⟨hx, rfl⟩ | ⟨hx, rfl⟩ | ⟨hx, rfl⟩ | ⟨hx, rfl⟩
    · exact ⟨x, rfl, hx⟩
    · exact ⟨none, x, rfl, by simp, hx⟩
    · exact ⟨none, x, rfl, by simp, .inl hx⟩
    · exact ⟨none, x, rfl, by simp, .inr ⟨hx, rfl⟩⟩
  case marked =>
    obtain ⟨p, rfl, hp⟩ := h
    rcases hx with ⟨hx, rfl⟩ | ⟨hx, rfl⟩
    · exact ⟨some p, x, rfl, by simpa using hp, hx⟩
    · exact ⟨some p, x, rfl, by simpa using hp, .inl hx⟩
  case path =>
    rcases hx with ⟨hx, rfl⟩ | ⟨hx, rfl⟩
    · exact ⟨fs, [x], _, rfl, h, .one hx⟩
    · exact ⟨fs, [x], _, rfl, h, .names (.one hx)⟩
  case parent =>
    obtain ⟨ks, us, parents, rfl, hk, hp⟩ := h
    obtain ⟨hx, rfl⟩ := hx
    exact ⟨ks, us, parents, x, by simp, hk, hp, hx⟩
  case level =>
    obtain ⟨ks, us, parents, dot, rfl, hk, hp, hd⟩ := h
    rcases hx with ⟨hx, rfl⟩ | ⟨hx, rfl⟩
    · exact ⟨ks, us ++ [dot, x], _, by simp, hk, dotted_snoc hp hd hx⟩
    · exact ⟨ks, us ++ dot :: [x], _, by simp, hk, .parents hp hd (.one hx)⟩
  case component =>
    obtain ⟨ks, path, segments, rfl, hk, hp⟩ := h
    rcases hx with ⟨hx, rfl⟩ | ⟨hx, rfl⟩
    · exact ⟨ks, path, segments, x, by simp, hk, hp, hx⟩
    · exact absurd rfl hq
  case segment =>
    obtain ⟨ks, path, segments, dot, rfl, hk, hp, hd⟩ := h
    obtain ⟨hx, rfl⟩ := hx
    exact ⟨ks, path ++ [dot, x], _, by simp, hk, pathOf_snoc hp hd hx⟩
  case name =>
    obtain ⟨hx, rfl⟩ := hx
    exact ⟨fs, x, rfl, h, hx⟩
  case equals =>
    obtain ⟨ks, name, rfl, hk, hn⟩ := h
    obtain ⟨hx, rfl⟩ := hx
    exact ⟨ks, name, x, by simp, hk, hn, hx⟩
  case value =>
    obtain ⟨ks, name, equals, rfl, hk, hn, he⟩ := h
    obtain ⟨hx, rfl⟩ := hx
    exact ⟨ks, name, equals, x, by simp, hk, hn, he, hx⟩
  case semicolon => exact absurd hx.2 hq

lemma step_item_iff {q : Place} {x : Bytes} :
    Step q x .item ↔ x = ";" ∧ (q = .component ∨ q = .semicolon) := by
  cases q <;> simp [Step]

lemma Begun.itemOf {q : Place} (h : Begun file q fs) (hx : Step q x.text .item) (node : NodeId) :
    ∃ it next, ItemOf file node (fs ++ [x]) it next := by
  obtain ⟨hs, rfl | rfl⟩ := step_item_iff.1 hx
  · obtain ⟨ks, path, segments, rfl, ⟨pub, k, rfl, hp, hk⟩, hpath⟩ := h
    exact ⟨_, _, by simpa using ItemOf.imports hp hk hpath hs⟩
  · obtain ⟨ks, name, equals, value, rfl, ⟨pub, k, rfl, hp, hk⟩, hn, he, hv⟩ := h
    obtain ⟨e, hv⟩ : ∃ e, ExprOf file (node + 1) [node] value e := by
      rcases hv with hv | hv
      · exact ⟨_, .literal hv⟩
      · exact ⟨_, .name hv⟩
    have hb : BindingOf file (node + 1) [node] name x e [name, equals, value, x] :=
      .mk hn he hv hs
    rcases hk with hk | ⟨hk, rfl⟩
    · exact ⟨_, _, by simpa using ItemOf.var hp hk hb⟩
    · exact ⟨_, _, by simpa using ItemOf.const hk hb⟩

lemma begun_nil : Begun file .item [] := rfl

/-- What leads from some place of an item back to the start completes a module. -/
lemma Begun.moduleOf {q : Place} {fs ts : List Lexeme} (h : Begun file q fs)
    (ht : Trail q (ts.map Lexeme.text) .item) (node : NodeId) :
    ∃ items last, ModuleOf file node (fs ++ ts) items last := by
  induction ts generalizing q fs node with
  | nil =>
    obtain rfl : q = .item := ht
    obtain rfl : fs = [] := h
    exact ⟨[], node, .nil node⟩
  | cons x ts ih =>
    obtain ⟨q1, hx, hts⟩ := ht
    by_cases hq : q1 = .item
    · subst hq
      obtain ⟨it, next, hi⟩ := h.itemOf hx node
      obtain ⟨items, last, hm⟩ := ih begun_nil hts next
      exact ⟨it :: items, last, by simpa using ModuleOf.cons hi hm⟩
    · simpa using ih (h.step hx hq) hts node

end Begun

/-- **Trails are modules**: tokens that lead from the place in front of an item back to it derive
items, from any node number on. -/
theorem moduleOf_of_trail {file : FileId} {ts : List Lexeme}
    (h : Trail .item (ts.map Lexeme.text) .item) (node : NodeId) :
    ∃ items last, ModuleOf file node ts items last :=
  begun_nil.moduleOf h node

/-! ### The shortest way back -/

/-- Words that lead from a place back to the place in front of an item. -/
def completion : Place → List Bytes
  | .item => []
  | .marked => ["var", "_", "=", "_", ";"]
  | .path => ["_", ";"]
  | .parent => [".", "_", ";"]
  | .level => ["_", ";"]
  | .component => [";"]
  | .segment => ["_", ";"]
  | .name => ["_", "=", "_", ";"]
  | .equals => ["=", "_", ";"]
  | .value => ["_", ";"]
  | .semicolon => [";"]

/-- The most bytes of a completion with every word on a line of its own. -/
def room : Nat := 12

lemma length_completion_le (q : Place) :
    ((completion q).flatMap (0x0A :: ·)).length ≤ room := by
  cases q <;> decide

lemma trail_completion (q : Place) : Trail q (completion q) .item := by
  have hname : IsName "_" := ⟨isWord_of_check (by decide), by decide⟩
  have hitem : Trail .item [] .item := rfl
  have hend : Trail .semicolon [";"] .item := ⟨.item, ⟨rfl, rfl⟩, hitem⟩
  have hvalue : Trail .value ["_", ";"] .item := ⟨.semicolon, ⟨.inr hname, rfl⟩, hend⟩
  have hequals : Trail .equals ["=", "_", ";"] .item := ⟨.value, ⟨rfl, rfl⟩, hvalue⟩
  have hbinding : Trail .name ["_", "=", "_", ";"] .item := ⟨.equals, ⟨hname, rfl⟩, hequals⟩
  have hpath : Trail .component [";"] .item := ⟨.item, .inr ⟨rfl, rfl⟩, hitem⟩
  have hlevel : Trail .level ["_", ";"] .item := ⟨.component, .inr ⟨hname, rfl⟩, hpath⟩
  cases q with
  | item => exact hitem
  | marked => exact ⟨.name, .inr ⟨rfl, rfl⟩, hbinding⟩
  | path => exact ⟨.component, .inr ⟨hname, rfl⟩, hpath⟩
  | parent => exact ⟨.level, ⟨rfl, rfl⟩, hlevel⟩
  | level => exact hlevel
  | component => exact hpath
  | segment => exact ⟨.component, ⟨hname, rfl⟩, hpath⟩
  | name => exact hbinding
  | equals => exact hequals
  | value => exact hvalue
  | semicolon => exact hend

end Grammar

end StateBuffer
