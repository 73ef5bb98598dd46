import StateBuffer.Syntax.Grammar
import Mathlib.Tactic.Common

/-!
Storing items in the tree. Nodes are only ever added behind those that are there, so what was
stored can be read back later: an item with its initializer in place of the number under which the
initializer is kept.
-/

namespace StateBuffer

namespace Tree

open Grammar

/-- The item with a number as it was read, its initializer in place. -/
def stored? (t : Tree) (id : ItemId) : Option ParsedItem :=
  match t.item? id with
  | some { span, body := .imports i, .. } => some (.imports span i)
  | some { span, body := .definition d, .. } =>
    (t.expr? d.value).map fun e => .definition span { d with value := 0 } e
  | none => none

lemma stored?_imports {t : Tree} {id : ItemId} {span : Span} {i : Import} :
    t.stored? id = some (.imports span i) ↔ ∃ file, t.item? id = some ⟨file, span, .imports i⟩ := by
  rcases hi : t.item? id with _ | ⟨file, span', i' | d⟩
  · simp [stored?, hi]
  · simp [stored?, hi, and_comm]
  · simp [stored?, hi]

lemma stored?_definition {t : Tree} {id : ItemId} {span : Span} {d : Definition} {e : Expr} :
    t.stored? id = some (.definition span d e) ↔
      ∃ file d', t.item? id = some ⟨file, span, .definition d'⟩ ∧ t.expr? d'.value = some e ∧
        d = { d' with value := 0 } := by
  rcases hi : t.item? id with _ | ⟨file, span', i | d'⟩
  · simp [stored?, hi]
  · simp [stored?, hi]
  · simp only [stored?, hi, Option.map_eq_some_iff, ParsedItem.definition.injEq, Option.some.injEq,
      Item.mk.injEq, ItemBody.definition.injEq]
    constructor
    · rintro ⟨e', he, rfl, rfl, rfl⟩
      exact ⟨file, d', ⟨rfl, rfl, rfl⟩, he, rfl⟩
    · rintro ⟨file', d'', ⟨rfl, rfl, rfl⟩, he, rfl⟩
      exact ⟨e, he, rfl, rfl, rfl⟩

/-- Everything that is stored in `t` is stored in `t'` under the same number. -/
structure Extends (t t' : Tree) : Prop where
  item : ∀ {id it}, t.item? id = some it → t'.item? id = some it
  expr : ∀ {id e}, t.expr? id = some e → t'.expr? id = some e

lemma Extends.refl (t : Tree) : Extends t t := ⟨id, id⟩

lemma Extends.trans {t t' t'' : Tree} (h : Extends t t') (h' : Extends t' t'') :
    Extends t t'' := ⟨fun hi => h'.item (h.item hi), fun he => h'.expr (h.expr he)⟩

lemma Extends.stored {t t' : Tree} (h : Extends t t') {id : ItemId} {it : ParsedItem}
    (hi : t.stored? id = some it) : t'.stored? id = some it := by
  unfold stored? at hi ⊢
  rcases hid : t.item? id with _ | ⟨file, span, i | d⟩
  · simp [hid] at hi
  · rw [h.item hid]
    simpa [hid] using hi
  · rw [h.item hid]
    simp only [hid, Option.map_eq_some_iff] at hi ⊢
    obtain ⟨e, he, rfl⟩ := hi
    exact ⟨e, h.expr he, rfl⟩

lemma extends_addItem (t : Tree) (file : FileId) (span : Span) (body : ItemBody) :
    Extends t (t.addItem file span body).2 := by
  refine ⟨fun {id it} h => ?_, id⟩
  unfold item? at h ⊢
  split_ifs at h ⊢ with h0
  exact (Array.getElem?_push_lt (Array.getElem?_eq_some_iff.1 h).1).trans
    ((Array.getElem?_eq_getElem _).symm.trans h)

lemma extends_addExpr (t : Tree) (e : Expr) : Extends t (t.addExpr e).2 := by
  refine ⟨id, fun {id it} h => ?_⟩
  unfold expr? at h ⊢
  split_ifs at h ⊢ with h0
  exact (Array.getElem?_push_lt (Array.getElem?_eq_some_iff.1 h).1).trans
    ((Array.getElem?_eq_getElem _).symm.trans h)

lemma item?_addItem (t : Tree) (file : FileId) (span : Span) (body : ItemBody) :
    (t.addItem file span body).2.item? (t.addItem file span body).1 = some ⟨file, span, body⟩ := by
  simp [addItem, item?]

lemma expr?_addExpr (t : Tree) (e : Expr) :
    (t.addExpr e).2.expr? (t.addExpr e).1 = some e := by
  simp [addExpr, expr?]

lemma extends_store (t : Tree) (file : FileId) (it : ParsedItem) :
    Extends t (t.store file it).2 := by
  cases it with
  | imports span i => exact extends_addItem t file span _
  | definition span d value => exact (extends_addExpr t value).trans (extends_addItem _ file span _)

/-- What was stored is read back; the initializer of a definition is not a part of it. -/
lemma stored?_store (t : Tree) (file : FileId) {it : ParsedItem}
    (h : ∀ span d value, it = .definition span d value → d.value = 0) :
    (t.store file it).2.stored? (t.store file it).1 = some it := by
  cases it with
  | imports span i => simp [stored?, store, item?_addItem]
  | definition span d value =>
    have he := (extends_addItem (t.addExpr value).2 file span
      (.definition { d with value := (t.addExpr value).1 })).expr (expr?_addExpr t value)
    have hd : { d with value := 0 } = d := by
      rw [← h span d value rfl]
    simp [stored?, store, item?_addItem, he, hd]

/-! ### The items of a file -/

/-- The tree after an item was stored and listed in the module of its file. -/
def listed (t : Tree) (file : FileId) (it : ParsedItem) : Tree :=
  match (t.store file it).2.push file (t.store file it).1 with
  | .ok t' => t'
  | .error _ => (t.store file it).2

lemma storeAll_nil (t : Tree) (file : FileId) : t.storeAll file [] = ([], t) := rfl

lemma storeAll_cons (t : Tree) (file : FileId) (it : ParsedItem) (items : List ParsedItem) :
    t.storeAll file (it :: items) =
      ((t.store file it).1 :: ((t.listed file it).storeAll file items).1,
        ((t.listed file it).storeAll file items).2) := by
  -- the numbers found so far stay in front
  have hfold : ∀ (items : List ParsedItem) (ids : List ItemId) (t : Tree),
      items.foldl (fun x item => (x.1 ++ [(x.2.store file item).1], x.2.listed file item)) (ids, t) =
        (ids ++ (t.storeAll file items).1, (t.storeAll file items).2) := by
    intro items
    induction items with
    | nil => simp [storeAll_nil]
    | cons it items ih =>
      intro ids t
      have h1 := ih (ids ++ [(t.store file it).1]) (t.listed file it)
      have h2 := ih [(t.store file it).1] (t.listed file it)
      have h3 : t.storeAll file (it :: items) = _ := h2
      rw [h3, ← List.append_assoc]
      exact h1
  exact hfold items [(t.store file it).1] (t.listed file it)

lemma extends_push {t t' : Tree} {file : FileId} {id : ItemId} (h : t.push file id = .ok t') :
    Extends t t' := by
  unfold push at h
  split_ifs at h
  cases h
  exact ⟨fun h => h, fun h => h⟩

lemma extends_listed (t : Tree) (file : FileId) (it : ParsedItem) :
    Extends (t.store file it).2 (t.listed file it) := by
  unfold listed
  split
  · exact extends_push ‹_›
  · exact .refl _

lemma extends_storeAll (t : Tree) (file : FileId) (items : List ParsedItem) :
    Extends t (t.storeAll file items).2 := by
  induction items generalizing t with
  | nil => exact .refl t
  | cons it items ih =>
    rw [storeAll_cons]
    exact ((extends_store t file it).trans (extends_listed t file it)).trans (ih _)

/-- **Storing** keeps all items of a file under the numbers it gives. -/
theorem stored?_storeAll (t : Tree) (file : FileId) {items : List ParsedItem}
    (h : ∀ it ∈ items, ∀ span d value, it = .definition span d value → d.value = 0) :
    (t.storeAll file items).1.map (t.storeAll file items).2.stored? = items.map some := by
  induction items generalizing t with
  | nil => rfl
  | cons it items ih =>
    rw [storeAll_cons, List.map_cons, List.map_cons]
    congr 1
    · refine ((extends_listed t file it).trans (extends_storeAll _ file items)).stored ?_
      exact stored?_store t file (h it List.mem_cons_self)
    · exact ih _ fun it' h' => h it' (List.mem_cons_of_mem _ h')

end Tree

end StateBuffer
