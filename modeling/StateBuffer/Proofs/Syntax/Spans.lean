import Mathlib.Algebra.Group.Nat.Defs
import StateBuffer.Proofs.Syntax.Numbering
import StateBuffer.Syntax.Invariant

/-!
The places of tokens and items. The tokens of a text stand one after another, and an item reaches
from its first token to its last one, so items do not overlap, and their parts, which are tokens of
them, lie inside. Offsets below `2 ^ 32` are kept as they are. Then the check of a module that was
read from a text finds nothing wrong, also if reading stopped at an error.
-/

namespace StateBuffer

def Lexeme.stop (t : Lexeme) : Nat := t.start + t.text.length

/-- The tokens stand one after another between two offsets. -/
structure Placed (low : Nat) (ts : List Lexeme) (high : Nat) : Prop where
  apart : ts.Pairwise fun t u => t.stop ≤ u.start
  within : ∀ t ∈ ts, low ≤ t.start ∧ t.start < t.stop ∧ t.stop ≤ high

/-! ### Tokens -/

/-- **The tokens of a text** stand one after another in it, up to what is left of it. -/
lemma Lexed.placed [CodePoint.Edition] {size : Nat} {s s' : Bytes} {ts : List Lexeme}
    (h : Lexed size s ts s') (hs : s.length ≤ size) :
    Placed (size - s.length) ts (size - s'.length) := by
  induction h with
  | nil => exact ⟨.nil, by simp⟩
  | @cons s rest s' t ts hl hts ih =>
    have hleft := hts.length_le
    have htext : 0 < t.text.length := by
      obtain ⟨b, r, hb, -⟩ := hl.isToken.head
      simp [hb]
    obtain ⟨htrivia, -, hstart⟩ := hl
    have hlen := htrivia.suffix.length_le
    rw [List.length_append] at hlen hstart
    have hstop : t.stop = size - rest.length := by
      unfold Lexeme.stop
      omega
    have hrest := ih (by omega)
    constructor
    · refine List.pairwise_cons.2 ⟨fun u hu => ?_, hrest.apart⟩
      rw [hstop]
      exact (hrest.within u hu).1
    · intro u hu
      rcases List.mem_cons.1 hu with rfl | hu
      · omega
      · have := hrest.within u hu
        omega

namespace Placed

variable {low high : Nat} {ts us : List Lexeme} {t first last : Lexeme}

lemma mono {high' : Nat} (h : Placed low ts high) (hh : high ≤ high') : Placed low ts high' :=
  ⟨h.apart, fun t ht => by have := h.within t ht; omega⟩

lemma left (h : Placed low (ts ++ us) high) : Placed low ts high :=
  ⟨(List.pairwise_append.1 h.apart).1, fun t ht => h.within t (List.mem_append_left us ht)⟩

lemma right (h : Placed low (ts ++ us) high) (hl : last ∈ ts) : Placed last.stop us high := by
  obtain ⟨-, hus, hacross⟩ := List.pairwise_append.1 h.apart
  refine ⟨hus, fun u hu => ?_⟩
  have hbetween := hacross last hl u hu
  have hwithin := h.within u (List.mem_append_right ts hu)
  omega

lemma between (h : Placed low ts high) (hf : ts.head? = some first)
    (hl : ts.getLast? = some last) (ht : t ∈ ts) :
    first.start ≤ t.start ∧ t.stop ≤ last.stop := by
  constructor
  · obtain ⟨tail, rfl⟩ : ∃ tail, ts = first :: tail := List.head?_eq_some_iff.1 hf
    have hfirst := h.within first List.mem_cons_self
    rcases List.mem_cons.1 ht with rfl | ht
    · exact Nat.le_refl _
    · have := (List.pairwise_cons.1 h.apart).1 t ht
      omega
  · obtain ⟨front, rfl⟩ : ∃ front, ts = front ++ [last] := List.getLast?_eq_some_iff.1 hl
    have hlast := h.within last (by simp)
    rcases List.mem_append.1 ht with ht | ht
    · have := (List.pairwise_append.1 h.apart).2.2 t ht last (by simp)
      omega
    · obtain rfl := List.mem_singleton.1 ht
      exact Nat.le_refl _

/-! ### Offsets of 32 bits -/

section Spans

variable (h : Placed low ts high) (hhigh : high < 2 ^ 32) (file : FileId)

include h hhigh

lemma toNat_span (ht : t ∈ ts) :
    (t.span file).start.toNat = t.start ∧ (t.span file).stop.toNat = t.stop := by
  have hwithin := h.within t ht
  constructor
  · exact Nat.mod_eq_of_lt (by omega)
  · exact Nat.mod_eq_of_lt (show t.stop < 2 ^ 32 by omega)

lemma cover_eq (hf : ts.head? = some first) (hl : ts.getLast? = some last) :
    (first.span file).cover (last.span file) =
      ⟨file, (first.span file).start, (last.span file).stop⟩ := by
  have hfmem := List.mem_of_mem_head? hf
  have hlmem := List.mem_of_getLast? hl
  obtain ⟨hfstart, hfstop⟩ := h.toNat_span hhigh file hfmem
  obtain ⟨hlstart, hlstop⟩ := h.toNat_span hhigh file hlmem
  have hstart := (h.between hf hl hlmem).1
  have hstop := (h.between hf hl hfmem).2
  have hfile : (first.span file).file = (last.span file).file := rfl
  rw [Span.cover, if_neg (by simp [hfile])]
  have h1 : ¬ (last.span file).start < (first.span file).start := by
    rw [UInt32.lt_iff_toNat_lt, hlstart, hfstart]
    omega
  have h2 : (if (first.span file).stop < (last.span file).stop then (last.span file).stop
      else (first.span file).stop) = (last.span file).stop := by
    split_ifs with hlt
    · rfl
    · rw [UInt32.lt_iff_toNat_lt, hfstop, hlstop] at hlt
      apply UInt32.toNat_inj.1
      rw [hfstop, hlstop]
      omega
  rw [if_neg h1, h2]
  rfl

lemma inside_cover (hf : ts.head? = some first) (hl : ts.getLast? = some last) (ht : t ∈ ts) :
    (t.span file).inside ((first.span file).cover (last.span file)) = true := by
  rw [h.cover_eq hhigh file hf hl]
  obtain ⟨hstart, hstop⟩ := h.toNat_span hhigh file ht
  obtain ⟨hfstart, -⟩ := h.toNat_span hhigh file (List.mem_of_mem_head? hf)
  obtain ⟨-, hlstop⟩ := h.toNat_span hhigh file (List.mem_of_getLast? hl)
  obtain ⟨hafter, hbefore⟩ := h.between hf hl ht
  have hwithin := h.within t ht
  simp only [Span.inside, Bool.and_eq_true, decide_eq_true_eq, UInt32.le_iff_toNat_le,
    UInt32.lt_iff_toNat_lt, hstart, hstop, hfstart, hlstop]
  exact ⟨⟨⟨rfl, hafter⟩, hbefore⟩, hwithin.2.1⟩

end Spans

end Placed

/-! ### Items -/

namespace Grammar

def ParsedItem.span : ParsedItem → Span
  | .imports span _ => span
  | .definition span _ _ => span

def ParsedItem.parts : ParsedItem → List Span
  | .imports _ i => i.segments.map Segment.span
  | .definition _ d value => [d.keywordSpan, d.nameSpan, value.span]

/-- The value of a definition stands after its name. -/
def ParsedItem.Aligned : ParsedItem → Prop
  | .imports _ _ => True
  | .definition _ d value => d.nameSpan.stop ≤ value.span.start

lemma dotted_mem {α : Type} {P : Bytes → Prop} {f : Lexeme → α} {ts : List Lexeme} {as : List α}
    (h : Dotted P f ts as) {a : α} (ha : a ∈ as) : ∃ t ∈ ts, a = f t := by
  induction h with
  | @one t _ => exact ⟨t, by simp, by simpa using ha⟩
  | @more t dot ts as _ _ _ ih =>
    rcases List.mem_cons.1 ha with rfl | ha
    · exact ⟨t, by simp, rfl⟩
    · obtain ⟨u, hu, rfl⟩ := ih ha
      exact ⟨u, by simp [hu], rfl⟩

lemma pathOf_mem {file : FileId} {ts : List Lexeme} {segments : List Segment}
    (h : PathOf file ts segments) {s : Segment} (hs : s ∈ segments) :
    ∃ t ∈ ts, s.span = t.span file := by
  cases h with
  | names h =>
    obtain ⟨t, ht, rfl⟩ := dotted_mem h hs
    exact ⟨t, ht, rfl⟩
  | parents hp _ h =>
    rcases List.mem_append.1 hs with hs | hs
    · obtain ⟨t, ht, rfl⟩ := dotted_mem hp hs
      exact ⟨t, List.mem_append_left _ ht, rfl⟩
    · obtain ⟨t, ht, rfl⟩ := dotted_mem h hs
      exact ⟨t, List.mem_append_right _ (List.mem_cons_of_mem _ ht), rfl⟩

lemma exprOf_span {file : FileId} {node : NodeId} {scope : Scope} {t : Lexeme} {value : Expr}
    (h : ExprOf file node scope t value) : value.span = t.span file := by
  cases h <;> rfl

/-- An item reaches from its first token to its last one, and its parts are tokens of it. -/
lemma itemOf_outer {file : FileId} {node next : NodeId} {ts : List Lexeme} {it : ParsedItem}
    (h : ItemOf file node ts it next) :
    ∃ first last, ts.head? = some first ∧ ts.getLast? = some last ∧
      it.span = (first.span file).cover (last.span file) ∧
      ∀ s ∈ it.parts, ∃ t ∈ ts, s = t.span file := by
  cases h with
  | @imports pub keyword semicolon path segments _ _ hs _ =>
    refine ⟨pub.getD keyword, semicolon, ?_, ?_, rfl, ?_⟩
    · cases pub <;> simp
    · rw [← List.cons_append, ← List.append_assoc]
      exact List.getLast?_concat
    · intro s hseg
      obtain ⟨segment, hmem, rfl⟩ := List.mem_map.1 hseg
      obtain ⟨t, ht, hspan⟩ := pathOf_mem hs hmem
      exact ⟨t, by simp [ht], hspan⟩
  | @var pub keyword name semicolon ts value _ _ hb =>
    obtain ⟨-, -, hv, -⟩ := hb
    refine ⟨pub.getD keyword, semicolon, ?_, by simp, rfl, ?_⟩
    · cases pub <;> simp
    · simp only [ParsedItem.parts, exprOf_span hv, List.forall_mem_cons]
      exact ⟨⟨keyword, by simp, rfl⟩, ⟨name, by simp, rfl⟩, ⟨_, by simp, rfl⟩, by simp⟩
  | @const keyword name semicolon ts value _ hb =>
    obtain ⟨-, -, hv, -⟩ := hb
    refine ⟨keyword, semicolon, by simp, by simp, rfl, ?_⟩
    simp only [ParsedItem.parts, exprOf_span hv, List.forall_mem_cons]
    exact ⟨⟨keyword, by simp, rfl⟩, ⟨name, by simp, rfl⟩, ⟨_, by simp, rfl⟩, by simp⟩

lemma aligned_of_itemOf {file : FileId} {node next : NodeId} {ts : List Lexeme} {it : ParsedItem}
    (h : ItemOf file node ts it next) {low high : Nat} (hp : Placed low ts high)
    (hhigh : high < 2 ^ 32) : it.Aligned := by
  have hvalue : ∀ (front : List Lexeme) {name semicolon : Lexeme} {us : List Lexeme}
      {value : Expr}, BindingOf file (node + 1) [node] name semicolon value us →
      Placed low (front ++ us) high → (name.span file).stop ≤ value.span.start := by
    intro front name semicolon us value hb hp
    obtain @⟨equals, t, -, -, hv, -⟩ := hb
    rw [exprOf_span hv, UInt32.le_iff_toNat_le]
    have hname := (hp.toNat_span hhigh file (t := name) (by simp)).2
    have ht := (hp.toNat_span hhigh file (t := t) (by simp)).1
    rw [hname, ht]
    have hapart := (List.pairwise_append.1 hp.apart).2.1
    exact (List.pairwise_cons.1 hapart).1 t (by simp)
  cases h with
  | imports => trivial
  | @var pub keyword _ _ _ _ _ _ hb =>
    refine hvalue (pub.toList ++ [keyword]) hb ?_
    simpa using hp
  | @const keyword _ _ _ _ _ hb => exact hvalue [keyword] hb hp

end Grammar

/-! ### The check of a module -/

namespace Tree

open Grammar

lemma checkNode_of_lt {last : Int} {node : NodeId} (h : last < node) :
    checkNode last node = .ok node := by
  rw [checkNode, if_neg (by omega)]

lemma checkBody_stored {t : Tree} {id : ItemId} {it : ParsedItem} {node next : NodeId} {last : Int}
    (hid : t.stored? id = some it) (hs : it.Spans node next) (hlast : last < node)
    (hparts : ∀ s ∈ it.parts, s.inside it.span = true) (haligned : it.Aligned) :
    ∃ item, t.item? id = some item ∧ item.span = it.span ∧
      ∃ last' : Int, last' < next ∧ t.checkBody it.span last item.body = .ok last' := by
  cases it with
  | imports span i =>
    obtain ⟨file, hi⟩ := stored?_imports.1 hid
    obtain ⟨rfl, rfl⟩ := hs
    refine ⟨_, hi, rfl, i.node, by omega, ?_⟩
    have hnone : i.segments.find? (fun s => !s.span.inside span) = none := by
      rw [List.find?_eq_none]
      intro s hmem
      have := hparts s.span (List.mem_map_of_mem hmem)
      simpa [ParsedItem.span] using this
    simp only [checkBody, ParsedItem.span, hnone]
    exact checkNode_of_lt hlast
  | definition span d value =>
    obtain ⟨file, d', hi, he, rfl⟩ := stored?_definition.1 hid
    obtain ⟨hnode, -, hvalue, rfl⟩ := hs
    have hnode : (d'.node : Int) = node := congrArg Nat.cast hnode
    refine ⟨_, hi, rfl, value.node, by rw [hvalue.node]; omega, ?_⟩
    have hkeyword : d'.keywordSpan.inside span = true := hparts _ (by simp [ParsedItem.parts])
    have hname : d'.nameSpan.inside span = true := hparts _ (by simp [ParsedItem.parts])
    have hinside : value.span.inside span = true := hparts _ (by simp [ParsedItem.parts])
    have hafter : ¬ value.span.start < d'.nameSpan.stop := by
      have : d'.nameSpan.stop ≤ value.span.start := haligned
      rw [UInt32.lt_iff_toNat_lt]
      rw [UInt32.le_iff_toNat_le] at this
      omega
    have h1 : checkNode last d'.node = .ok d'.node := checkNode_of_lt (by omega)
    have h2 : checkNode d'.node value.node = .ok value.node :=
      checkNode_of_lt (by rw [hvalue.node]; omega)
    simp [checkBody, ParsedItem.span, hkeyword, hname, hinside, hafter, he, h1, h2, bind,
      Except.bind]

/-- **A module** that derives from tokens of its text passes the check. -/
lemma checkItems_moduleOf {t : Tree} {file : FileId} {node last : NodeId} {ts : List Lexeme}
    {items : List ParsedItem} {size : Nat} (hsize : size < 2 ^ 32)
    (hm : ModuleOf file node ts items last) {ids : List ItemId} {low : Nat} {stop : UInt32}
    {before : Int} (hids : ids.map t.stored? = items.map some) (hp : Placed low ts size)
    (hstop : stop.toNat ≤ low) (hbefore : before < node) :
    t.checkItems file size stop before ids = .ok () := by
  induction hm generalizing ids low stop before with
  | nil =>
    obtain rfl : ids = [] := by simpa using hids
    rfl
  | @cons node next last ts us it items hi _ ih =>
    obtain ⟨id, ids, rfl, hid, hrest⟩ := List.map_eq_cons_iff.1 hids
    obtain ⟨first, semicolon, hf, hl, hspan, hparts⟩ := itemOf_outer hi
    have hts := hp.left
    have hfmem := List.mem_of_mem_head? hf
    have hlmem := List.mem_of_getLast? hl
    have hinside : ∀ s ∈ it.parts, s.inside it.span = true := by
      intro s hs
      obtain ⟨u, hu, rfl⟩ := hparts s hs
      rw [hspan]
      exact hts.inside_cover hsize file hf hl hu
    obtain ⟨item, hitem, hsame, last', hlt, hbody⟩ := checkBody_stored hid (spans_of_itemOf hi)
      hbefore hinside (aligned_of_itemOf hi hts hsize)
    -- the span of the item in offsets
    obtain ⟨hfstart, -⟩ := hts.toNat_span hsize file hfmem
    obtain ⟨-, hlstop⟩ := hts.toNat_span hsize file hlmem
    have hfirst := hts.within first hfmem
    have hlast := hts.within semicolon hlmem
    have hlong := (hts.between hf hl hfmem).2
    rw [hts.cover_eq hsize file hf hl] at hspan
    have hfile : it.span.file = file := by rw [hspan]
    have hfits : ¬ (it.span.stop ≤ it.span.start ∨ size < it.span.stop.toNat) := by
      rw [hspan, UInt32.le_iff_toNat_le, hfstart, hlstop]
      omega
    have hapart : ¬ it.span.start < stop := by
      rw [hspan, UInt32.lt_iff_toNat_lt, hfstart]
      omega
    have hnext : t.checkItems file size it.span.stop last' ids = .ok () :=
      ih hrest (hp.right hlmem) (Nat.le_of_eq (by rw [hspan, hlstop])) hlt
    simp only [checkItems, hitem, hsame, hfile, ne_eq, not_true_eq_false, if_false, hfits, hapart,
      hbody]
    exact hnext

/-! ### More files -/

lemma checkBody_of_extends {t t' : Tree} (h : Extends t t') {item : Span} {last last' : Int}
    {body : ItemBody} (hok : t.checkBody item last body = .ok last') :
    t'.checkBody item last body = .ok last' := by
  cases body with
  | imports i => exact hok
  | definition d =>
    cases he : t.expr? d.value with
    | none =>
      simp only [checkBody, he] at hok
      split_ifs at hok
      cases hnode : checkNode last d.node <;> simp [hnode, bind, Except.bind] at hok
    | some e =>
      simp only [checkBody, he] at hok
      simpa only [checkBody, h.expr he] using hok

lemma checkItems_of_extends {t t' : Tree} (h : Extends t t') {file : FileId} {size : Nat}
    {stop : UInt32} {last : Int} {ids : List ItemId}
    (hok : t.checkItems file size stop last ids = .ok ()) :
    t'.checkItems file size stop last ids = .ok () := by
  induction ids generalizing stop last with
  | nil => rfl
  | cons id ids ih =>
    cases hi : t.item? id with
    | none => simp [checkItems, hi] at hok
    | some item =>
      simp only [checkItems, hi, h.item hi] at hok ⊢
      split_ifs at hok ⊢
      cases hbody : t.checkBody item.span last item.body with
      | error e => simp [hbody, bind, Except.bind] at hok
      | ok last' =>
        rw [hbody] at hok
        rw [checkBody_of_extends h hbody]
        exact ih hok

end Tree

end StateBuffer
