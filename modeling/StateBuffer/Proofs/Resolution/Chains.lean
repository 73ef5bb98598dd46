import Mathlib.Logic.Relation
import StateBuffer.Proofs.Resolution.Scoping
import StateBuffer.Resolution.Dependencies

/-!
Chains of references. Every definition refers to one other at most, so following references from a
definition gives a chain. The dependencies of a definition are the items of its chain, each once,
unless the chain comes back to where it started: then it is a cycle through the definition.
-/

namespace StateBuffer

lemma Tree.length_le_of_definitions {t : Tree} {ids : List ItemId} (hnodup : ids.Nodup)
    (h : ∀ id ∈ ids, ∃ d, t.definition? id = some d) : ids.length ≤ t.items.size := by
  have hsub : ids ⊆ (List.range t.items.size).map (· + 1) := by
    intro id hid
    obtain ⟨d, hd⟩ := h id hid
    obtain ⟨span, hi, -⟩ := Tree.definition?_eq_some.1 hd
    obtain ⟨hpos, hle⟩ := Tree.item?_le hi
    exact List.mem_map.2 ⟨id - 1, List.mem_range.2 (Nat.sub_one_lt_of_le hpos hle),
      Nat.sub_add_cancel hpos⟩
  simpa using (List.subperm_of_subset hnodup hsub).length_le

namespace Resolution

open Relation

/-- The value of the item `a` refers to the item `b`. -/
def Refers (r : Resolution) (a b : ItemId) : Prop :=
  ∃ span d, r.follow? a = some (span, d) ∧ d.item = b

/-- The references met from the item `a` on, each with the item it leads to; the last leads to
`b`. -/
inductive Chain (r : Resolution) (a : ItemId) : List (Span × ItemId) → ItemId → Prop where
  | nil : Chain r a [] a
  | snoc {l : List (Span × ItemId)} {b : ItemId} {span : Span} {d : Declared}
      (h : Chain r a l b) (hb : r.follow? b = some (span, d)) :
      Chain r a (l ++ [(span, d.item)]) d.item

def itemsOf (l : List (Span × ItemId)) : List ItemId := l.map Prod.snd

def spansOf (l : List (Span × ItemId)) : List Span := l.map Prod.fst

/-- References lead to definitions of the tree. -/
def Grounded (r : Resolution) : Prop :=
  ∀ {a span d}, r.follow? a = some (span, d) → r.tree.definition? d.item = some d

section Chain

variable {r : Resolution} {a b : ItemId} {l : List (Span × ItemId)}

lemma refers_of_follow {span : Span} {d : Declared} (h : r.follow? a = some (span, d)) :
    Refers r a d.item := ⟨span, d, h, rfl⟩

lemma Refers.unique {c : ItemId} (h : Refers r a b) (h' : Refers r a c) : b = c := by
  obtain ⟨span, d, hd, rfl⟩ := h
  obtain ⟨span', d', hd', rfl⟩ := h'
  rw [hd] at hd'
  rw [(Prod.mk.inj (Option.some.inj hd')).2]

lemma Chain.reaches (h : Chain r a l b) : ReflTransGen (Refers r) a b := by
  induction h with
  | nil => exact .refl
  | snoc _ hb ih => exact ih.tail (refers_of_follow hb)

lemma Chain.mem (h : Chain r a l b) {x : Span × ItemId} (hx : x ∈ l) :
    ∃ c d, r.follow? c = some (x.1, d) ∧ d.item = x.2 ∧ ReflTransGen (Refers r) a c ∧
      ReflTransGen (Refers r) x.2 b := by
  induction h with
  | nil => simp at hx
  | @snoc l b span d h hb ih =>
    rcases List.mem_append.1 hx with hx | hx
    · obtain ⟨c, d', hc, hd', hac, hxb⟩ := ih hx
      exact ⟨c, d', hc, hd', hac, hxb.tail (refers_of_follow hb)⟩
    · obtain rfl := List.mem_singleton.1 hx
      exact ⟨b, d, hb, rfl, h.reaches, .refl⟩

lemma Chain.transGen (h : Chain r a l b) {c : ItemId} (hc : c ∈ itemsOf l) :
    TransGen (Refers r) a c := by
  obtain ⟨x, hx, rfl⟩ := List.mem_map.1 hc
  obtain ⟨c, d, hc, hd, hac, -⟩ := h.mem hx
  exact .tail' hac (hd ▸ refers_of_follow hc)

lemma Chain.eq_of_nil (h : Chain r a l b) (hl : l = []) : b = a := by
  cases h with
  | nil => rfl
  | snoc => simp at hl

lemma Chain.head (h : Chain r a l b) {x : Span × ItemId} {l' : List (Span × ItemId)}
    (hl : l = x :: l') : ∃ d, r.follow? a = some (x.1, d) ∧ d.item = x.2 := by
  induction h generalizing l' with
  | nil => simp at hl
  | @snoc l b span d h hb ih =>
    cases l with
    | nil =>
      rw [List.nil_append] at hl
      obtain ⟨rfl, -⟩ := List.cons.inj hl
      exact ⟨d, h.eq_of_nil rfl ▸ hb, rfl⟩
    | cons y l =>
      obtain ⟨rfl, -⟩ := List.cons.inj hl
      exact ih rfl

lemma Chain.reference_mem (h : Chain r a l b) {c : ItemId} {span : Span} {d : Declared}
    (hc : c = a ∨ c ∈ itemsOf l) (hf : r.follow? c = some (span, d)) :
    c = b ∨ (span, d.item) ∈ l := by
  induction h with
  | nil => exact .inl (hc.resolve_right (by simp [itemsOf]))
  | @snoc l b span' d' h hb ih =>
    have hitems : itemsOf (l ++ [(span', d'.item)]) = itemsOf l ++ [d'.item] := by simp [itemsOf]
    rw [hitems] at hc
    by_cases hlast : c = d'.item
    · exact .inl hlast
    · have hc' : c = a ∨ c ∈ itemsOf l := by simpa [hlast] using hc
      rcases ih hc' with rfl | hmem
      · rw [hb] at hf
        obtain ⟨rfl, rfl⟩ := Prod.mk.inj (Option.some.inj hf)
        exact .inr (List.mem_append_right l List.mem_cons_self)
      · exact .inr (List.mem_append_left _ hmem)

lemma Chain.closed (h : Chain r a l b) {c c' : ItemId} (hc : c = a ∨ c ∈ itemsOf l)
    (hr : Refers r c c') : c = b ∨ c' ∈ itemsOf l := by
  obtain ⟨span, d, hf, rfl⟩ := hr
  exact (h.reference_mem hc hf).imp_right fun hmem => List.mem_map.2 ⟨_, hmem, rfl⟩

/-- The items of a chain are few. -/
lemma Chain.length_le (hg : Grounded r) (h : Chain r a l b) (hnodup : (itemsOf l).Nodup) :
    l.length ≤ r.tree.items.size := by
  have hle := Tree.length_le_of_definitions hnodup fun c hc => by
    obtain ⟨x, hx, rfl⟩ := List.mem_map.1 hc
    obtain ⟨c, d, hc, hd, -⟩ := h.mem hx
    exact ⟨d, hd ▸ hg hc⟩
  simpa [itemsOf] using hle

end Chain

/-! ### Walking along a chain -/

section Walk

variable {r : Resolution} {root item : ItemId} {l : List (Span × ItemId)}

/-- The chain `l` comes back to the definition where it started, and to no other item twice. -/
structure IsLoop (r : Resolution) (root : ItemId) (l : List (Span × ItemId)) : Prop where
  chain : Chain r root l root
  ne_nil : l ≠ []
  nodup : (itemsOf l).Nodup

/-- The chain `l` never comes back to where it started, and all that its items refer to is in it. -/
structure IsTail (r : Resolution) (root : ItemId) (l : List (Span × ItemId)) : Prop where
  chain : ∃ last, Chain r root l last
  closed : ∀ {c c'}, c = root ∨ c ∈ itemsOf l → Refers r c c' → c' ∈ itemsOf l
  root : root ∉ itemsOf l
  nodup : (itemsOf l).Nodup

/-- **Walking on** from the end of a chain finds the whole loop or the whole tail, and then goes
back to where it began. The items of the chain are all different, so a few steps are enough, and
more of them change nothing. -/
lemma walk_spec (hg : Grounded r) {steps : Nat} (h : Chain r root l item)
    (hroot : root ∉ itemsOf l) (hnodup : (itemsOf l).Nodup)
    (hsteps : r.tree.items.size + 1 ≤ l.length + steps) :
    (∃ l', IsLoop r root l' ∧ ∀ fuel, steps ≤ fuel →
        r.walk fuel ⟨root, itemsOf l, spansOf l⟩ item = .error ⟨spansOf l'⟩) ∨
      ∃ l', IsTail r root l' ∧ ∀ fuel, steps ≤ fuel →
        r.walk fuel ⟨root, itemsOf l, spansOf l⟩ item = .ok ⟨root, itemsOf l', spansOf l⟩ := by
  induction steps generalizing l item with
  | zero =>
    have := h.length_le hg hnodup
    omega
  | succ steps ih =>
    have htail : (∀ {c'}, Refers r item c' → c' ∈ itemsOf l) → IsTail r root l := by
      intro hend
      refine ⟨⟨item, h⟩, fun {c c'} hc hr => ?_, hroot, hnodup⟩
      rcases h.closed hc hr with rfl | hmem
      · exact hend hr
      · exact hmem
    -- one step is left, whatever is allowed
    have hstep : ∀ {out : Except Cycle Dependencies}, (∀ fuel, steps ≤ fuel →
        r.walk (fuel + 1) ⟨root, itemsOf l, spansOf l⟩ item = out) →
        ∀ fuel, steps + 1 ≤ fuel → r.walk fuel ⟨root, itemsOf l, spansOf l⟩ item = out := by
      intro out hout fuel hfuel
      obtain ⟨fuel, rfl⟩ : ∃ n, fuel = n + 1 := ⟨fuel - 1, by omega⟩
      exact hout fuel (by omega)
    cases hf : r.follow? item with
    | none =>
      refine .inr ⟨l, htail ?_, hstep fun fuel _ => by simp [walk, hf]⟩
      rintro c' ⟨span, d, hd, -⟩
      simp [hf] at hd
    | some x =>
      obtain ⟨span, target⟩ := x
      have hnext := h.snoc hf
      have hitems : itemsOf (l ++ [(span, target.item)]) = itemsOf l ++ [target.item] := by
        simp [itemsOf]
      have hspans : spansOf (l ++ [(span, target.item)]) = spansOf l ++ [span] := by
        simp [spansOf]
      by_cases hback : target.item = root
      · -- back at the start
        refine .inl ⟨l ++ [(span, target.item)], ⟨hback ▸ hnext, by simp, ?_⟩,
          hstep fun fuel _ => ?_⟩
        · rw [hitems, (List.perm_append_singleton _ _).nodup_iff]
          exact List.nodup_cons.2 ⟨hback ▸ hroot, hnodup⟩
        · rw [hspans]
          simp [walk, hf, Dependencies.register, hback]
      · by_cases hknown : target.item ∈ itemsOf l
        · -- a cycle further on
          refine .inr ⟨l, htail ?_, hstep fun fuel _ => by
            simp [walk, hf, Dependencies.register, hback, hknown, Dependencies.back]⟩
          intro c' hc'
          rwa [hc'.unique (refers_of_follow hf)]
        · have hnext' := ih hnext
            (by rw [hitems]; simpa using ⟨hroot, fun he => hback he.symm⟩)
            (by
              rw [hitems, (List.perm_append_singleton _ _).nodup_iff]
              exact List.nodup_cons.2 ⟨hknown, hnodup⟩)
            (by
              rw [List.length_append, List.length_singleton]
              omega)
          rw [hitems, hspans] at hnext'
          have hfresh : ∀ fuel, r.walk (fuel + 1) ⟨root, itemsOf l, spansOf l⟩ item =
              (r.walk fuel ⟨root, itemsOf l ++ [target.item], spansOf l ++ [span]⟩
                target.item).map Dependencies.back := fun fuel => by
            simp [walk, hf, Dependencies.register, hback, hknown]
          rcases hnext' with ⟨l', hl', hwalk⟩ | ⟨l', hl', hwalk⟩
          · refine .inl ⟨l', hl', hstep fun fuel hfuel => ?_⟩
            rw [hfresh, hwalk fuel hfuel]
            rfl
          · refine .inr ⟨l', hl', hstep fun fuel hfuel => ?_⟩
            rw [hfresh, hwalk fuel hfuel]
            simp [Except.map, Dependencies.back]

/-- Walking from a definition, with as many steps as there are items and one more, or any number
above that. -/
lemma walk_start (hg : Grounded r) (root : ItemId) :
    (∃ l, IsLoop r root l ∧ ∀ fuel, r.tree.items.size < fuel →
        r.walk fuel (Dependencies.start root) root = .error ⟨spansOf l⟩) ∨
      ∃ l, IsTail r root l ∧ ∀ fuel, r.tree.items.size < fuel →
        r.walk fuel (Dependencies.start root) root = .ok ⟨root, itemsOf l, []⟩ := by
  have hsteps : r.tree.items.size + 1 ≤
      ([] : List (Span × ItemId)).length + (r.tree.items.size + 1) := by simp
  exact walk_spec hg .nil (by simp [itemsOf]) (by simp [itemsOf]) hsteps

/-- **Dependencies**: the cycle through a definition, or the items that it reaches. -/
theorem dependencies_spec (hg : Grounded r) (root : ItemId) :
    (∃ l, IsLoop r root l ∧ r.dependencies root = .error ⟨spansOf l⟩) ∨
      ∃ l, IsTail r root l ∧ r.dependencies root = .ok ⟨root, itemsOf l, []⟩ := by
  rcases walk_start hg root with ⟨l, hl, hwalk⟩ | ⟨l, hl, hwalk⟩
  · exact .inl ⟨l, hl, hwalk _ (Nat.lt_succ_self _)⟩
  · exact .inr ⟨l, hl, hwalk _ (Nat.lt_succ_self _)⟩

lemma IsLoop.transGen (h : IsLoop r root l) : TransGen (Refers r) root root := by
  obtain ⟨x, hx⟩ := List.exists_mem_of_ne_nil l h.ne_nil
  obtain ⟨c, d, hc, hd, hac, hxb⟩ := h.chain.mem hx
  exact (TransGen.tail' hac (hd ▸ refers_of_follow hc)).trans_left hxb

lemma mem_itemsOf_of_closed
    (hclosed : ∀ {c c'}, c = root ∨ c ∈ itemsOf l → Refers r c c' → c' ∈ itemsOf l) {c : ItemId}
    (hc : TransGen (Refers r) root c) : c ∈ itemsOf l := by
  induction hc with
  | single hr => exact hclosed (.inl rfl) hr
  | tail _ hr ih => exact hclosed (.inr ih) hr

lemma IsTail.mem_iff (h : IsTail r root l) {c : ItemId} :
    c ∈ itemsOf l ↔ TransGen (Refers r) root c := by
  obtain ⟨last, hchain⟩ := h.chain
  exact ⟨hchain.transGen, mem_itemsOf_of_closed h.closed⟩

lemma IsLoop.reference_mem (h : IsLoop r root l) {c : ItemId} {span : Span} {d : Declared}
    (hc : c = root ∨ c ∈ itemsOf l) (hf : r.follow? c = some (span, d)) : (span, d.item) ∈ l := by
  rcases h.chain.reference_mem hc hf with rfl | hmem
  · -- the first item has the first reference
    obtain ⟨x, l', rfl⟩ := List.exists_cons_of_ne_nil h.ne_nil
    obtain ⟨d', hd', hx⟩ := h.chain.head rfl
    rw [hf] at hd'
    obtain ⟨rfl, rfl⟩ := Prod.mk.inj (Option.some.inj hd')
    rw [hx]
    exact List.mem_cons_self
  · exact hmem

lemma IsLoop.closed (h : IsLoop r root l) {c c' : ItemId} (hc : c = root ∨ c ∈ itemsOf l)
    (hr : Refers r c c') : c' ∈ itemsOf l := by
  obtain ⟨span, d, hf, rfl⟩ := hr
  exact List.mem_map.2 ⟨_, h.reference_mem hc hf, rfl⟩

/-- **The items of a loop** are those that its first item reaches and that reach it. -/
lemma IsLoop.mem_iff (h : IsLoop r root l) {c : ItemId} :
    c ∈ itemsOf l ↔ TransGen (Refers r) root c ∧ TransGen (Refers r) c root := by
  refine ⟨fun hc => ⟨h.chain.transGen hc, ?_⟩, fun hc => mem_itemsOf_of_closed h.closed hc.1⟩
  obtain ⟨x, hx, rfl⟩ := List.mem_map.1 hc
  obtain ⟨-, -, -, -, -, hback⟩ := h.chain.mem hx
  exact .trans_right hback h.transGen

lemma dependencies_error_iff (hg : Grounded r) :
    (∃ c, r.dependencies root = .error c) ↔ TransGen (Refers r) root root := by
  rcases dependencies_spec hg root with ⟨l, hl, he⟩ | ⟨l, hl, he⟩
  · exact ⟨fun _ => hl.transGen, fun _ => ⟨_, he⟩⟩
  · rw [he]
    refine ⟨fun ⟨c, hc⟩ => by simp at hc, fun hc => ?_⟩
    exact absurd (hl.mem_iff.2 hc) hl.root

end Walk

/-! ### References of a resolved tree -/

lemma follow?_eq_some {r : Resolution} {a : ItemId} {span : Span} {d' : Declared} :
    r.follow? a = some (span, d') ↔ ∃ d e name b, r.tree.definition? a = some d ∧
      r.tree.reference? d.definition = some (e, name) ∧ r.binding? e.node = some b ∧
      e.span = span ∧ b.target = d' := by
  unfold follow?
  simp only [Option.bind_eq_bind, Option.bind_eq_some_iff, Prod.exists, Option.pure_def,
    Option.some.injEq, Prod.mk.injEq]
  grind

lemma Resolved.grounded {s : SourceSet} {t : Tree} {next : NodeId} {root : Bytes} {r : Resolution}
    (h : t.Numbered s.size next) (hr : Resolved s t root r) : Grounded r := by
  intro a span d' hf
  obtain ⟨d, e, name, b, hd, he, hb, -, rfl⟩ := follow?_eq_some.1 hf
  rw [hr.tree] at hd he ⊢
  have hmeans := hr.means h (definition?_item hd).2 he
  rw [hb] at hmeans
  cases hmeans with
  | own hd => exact hd.1
  | imported _ _ _ hd => exact hd.1

/-! ### The closure -/

/-- **Dependencies are the closure.** Whatever the texts, the walk from an item of the resolved
program ends: as many steps as there are items and one more are enough, and more of them change
nothing. If the item reaches itself, the walk gives the references of the chain from it back to it,
one for each item of its cycle. Else it gives the items of the chain from it in order, each once,
and these are all that it reaches; also if the chain runs into a cycle further on. -/
theorem dependencies_closure (texts : List SourceText) (root : Bytes) :
    ∃ r, Resolution.ofTree (Project.sourcesOf texts) (Project.treeOf texts) root = .ok r ∧
      ∀ x, (∀ fuel, r.tree.items.size < fuel →
          r.walk fuel (Dependencies.start x) x = r.dependencies x) ∧
        ((TransGen (Refers r) x x ∧ ∃ l, r.dependencies x = .error ⟨spansOf l⟩ ∧
            Chain r x l x ∧ (itemsOf l).Nodup ∧
            ∀ y, y ∈ itemsOf l ↔ TransGen (Refers r) x y ∧ TransGen (Refers r) y x) ∨
          ¬ TransGen (Refers r) x x ∧ ∃ l last, r.dependencies x = .ok ⟨x, itemsOf l, []⟩ ∧
            Chain r x l last ∧ (itemsOf l).Nodup ∧
            ∀ y, y ∈ itemsOf l ↔ TransGen (Refers r) x y) := by
  obtain ⟨next, h⟩ := Project.numbered_treeOf texts
  obtain ⟨r, hr, hres⟩ := ofTree_resolved h root
  refine ⟨r, hr, fun x => ?_⟩
  have hlast := Nat.lt_succ_self r.tree.items.size
  rcases walk_start (hres.grounded h) x with ⟨l, hl, hwalk⟩ | ⟨l, hl, hwalk⟩
  · have hdep : r.dependencies x = .error ⟨spansOf l⟩ := hwalk _ hlast
    refine ⟨fun fuel hfuel => (hwalk fuel hfuel).trans hdep.symm, .inl ⟨hl.transGen, l, hdep, ?_⟩⟩
    exact ⟨hl.chain, hl.nodup, fun y => hl.mem_iff⟩
  · have hdep : r.dependencies x = .ok ⟨x, itemsOf l, []⟩ := hwalk _ hlast
    obtain ⟨last, hchain⟩ := hl.chain
    refine ⟨fun fuel hfuel => (hwalk fuel hfuel).trans hdep.symm,
      .inr ⟨fun hx => hl.root (hl.mem_iff.2 hx), l, last, hdep, ?_⟩⟩
    exact ⟨hchain, hl.nodup, fun y => hl.mem_iff⟩

/-- A variable that leads into a cycle over two files, and the cycle. -/
def leadingIn : List SourceText :=
  [⟨"m.gpex", "m", "import n;pub var a=b;var t=a;", false⟩,
    ⟨"n.gpex", "n", "import m;pub var b=a;", false⟩]

/-- The member of the cycle reaches itself. The variable before it does not, and its dependencies
are the two members. -/
theorem dependencies_closure_leadingIn :
    ∃ r, Resolution.ofTree (Project.sourcesOf leadingIn) (Project.treeOf leadingIn) "" = .ok r ∧
      r.dependencies 2 = .error ⟨[⟨1, 19, 20⟩, ⟨2, 19, 20⟩]⟩ ∧ TransGen (Refers r) 2 2 ∧
      r.dependencies 3 = .ok ⟨3, [2, 5], []⟩ ∧ ¬ TransGen (Refers r) 3 3 ∧
      ∀ y, y ∈ [2, 5] ↔ TransGen (Refers r) 3 y := by
  obtain ⟨r, hr, hclosure⟩ := dependencies_closure leadingIn ""
  have hwalks : (Resolution.ofTree (Project.sourcesOf leadingIn)
      (Project.treeOf leadingIn) "").toOption.map (fun r => (r.dependencies 2, r.dependencies 3)) =
        some (.error ⟨[⟨1, 19, 20⟩, ⟨2, 19, 20⟩]⟩, .ok ⟨3, [2, 5], []⟩) := by
    decide +kernel
  simp only [hr, Except.toOption, Option.map_some, Option.some.injEq, Prod.mk.injEq] at hwalks
  obtain ⟨hcycle, htail⟩ := hwalks
  refine ⟨r, hr, hcycle, ?_, htail, ?_⟩
  · rcases (hclosure 2).2 with ⟨hreach, -⟩ | ⟨-, l, last, hdep, -⟩
    · exact hreach
    · simp [hcycle] at hdep
  · rcases (hclosure 3).2 with ⟨-, l, hdep, -⟩ | ⟨hnot, l, last, hdep, -, -, hmem⟩
    · simp [htail] at hdep
    · have hitems : itemsOf l = [2, 5] := by
        rw [htail] at hdep
        exact (congrArg Dependencies.items (Except.ok.inj hdep)).symm
      rw [hitems] at hmem
      exact ⟨hnot, hmem⟩

end Resolution

end StateBuffer
