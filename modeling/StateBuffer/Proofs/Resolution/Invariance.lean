import StateBuffer.Proofs.Resolution.Renaming
import StateBuffer.Proofs.Values

/-!
What numbers do not change. In two trees that differ only in their numbers, names mean matched
definitions and come through matched imports, so matched definitions refer to matched ones and
denote the same integers. What holds of all definitions or all paths of one tree is carried over by
going back from the other.
-/

namespace StateBuffer

/-- The bindings are matched, the imports they come through included. -/
structure BoundAlike (t t' : Tree) (F : FileId → FileId → Prop) (I : ItemId → ItemId → Prop)
    (b b' : Binding) : Prop where
  target : Alike t t' F I b.target b'.target
  via : Option.Rel I b.via b'.via

namespace Twins

variable {s s' : SourceSet} {t t' : Tree} {F : FileId → FileId → Prop}
  {I : ItemId → ItemId → Prop} {next next' : NodeId} {root : Bytes} (w : Twins s t s' t' F I)
  (h : t.Numbered s.size next)

include w h

/-! ### What names mean -/

lemma exists_defines {file file' : FileId} (hf : F file file') {name : Bytes} {d : Declared}
    (hd : t.Defines file name d) : ∃ d', t'.Defines file' name d' ∧ Alike t t' F I d d' := by
  obtain ⟨d', hd', ha⟩ := w.exists_alike h hd.1
  exact ⟨d', w.defines hf hd hd' ha, ha⟩

lemma offers {file file' target : FileId} (hf : F file file') {name : Bytes} {path : List ItemId}
    (ho : t.Offers s root file name path target) :
    ∃ path' target', List.Forall₂ I path path' ∧ F target target' ∧
      t'.Offers s' root file' name path' target' := by
  obtain ⟨hp, hne, d, hd, hpublic⟩ := ho
  obtain ⟨path', target', hpath, htarget, hp'⟩ := w.importPath hp hf
  obtain ⟨d', hd', ha⟩ := w.exists_defines h htarget hd
  refine ⟨path', target', hpath, htarget, hp', ?_, d', hd', ha.isPublic.trans hpublic⟩
  rintro rfl
  exact hne (w.back.file_unique htarget hf)

section Means

variable (h' : t'.Numbered s'.size next') {o o' : Declared}
  (ho : t.definition? o.item = some o) (ho' : t'.definition? o'.item = some o')
  (hoo : Alike t t' F I o o') {name : Bytes}

include h' ho ho' hoo

omit h ho in
lemma not_earlier (hown : ∀ d, t.Defines o.file name d → ¬ d.item < o.item) {d' : Declared}
    (hd' : t'.Defines o'.file name d') : ¬ d'.item < o'.item := by
  intro hlt
  obtain ⟨d, hd, ha⟩ := w.symm.exists_defines h' hoo.symm.file hd'
  exact hown d hd (w.symm.lt_of_lt ha hoo.symm hd'.1 ho' hd'.2.1 hlt)

/-- **A name means matched things** in matched definitions. -/
theorem means {b : Option Binding} (hm : t.Means s root o.file o.item name b) :
    ∃ b', t'.Means s' root o'.file o'.item name b' ∧ Option.Rel (BoundAlike t t' F I) b b' := by
  cases hm with
  | @own d hd hbefore hlast =>
    obtain ⟨d', hd', ha⟩ := w.exists_defines h hoo.file hd
    refine ⟨_, .own hd' (w.lt_of_lt ha hoo hd.1 ho hd.2.1 hbefore) fun x' hx' hlt => ?_,
      .some ⟨ha, .none⟩⟩
    obtain ⟨x, hx, hxx⟩ := w.symm.exists_defines h' hoo.symm.file hx'
    have hle := hlast x hx (w.symm.lt_of_lt hxx hoo.symm hx'.1 ho' hx'.2.1 hlt)
    exact w.le_of_le hxx.symm ha hx.1 hd.1 (hx.2.1.trans hd.2.1.symm) hle
  | @imported d id path hown hoffers hleast hd hpublic hlast =>
    obtain ⟨path', target', hpath, htarget, hoffers'⟩ := w.offers h hoo.file hoffers
    obtain ⟨id', rest', hid, -, rfl⟩ := List.forall₂_cons_left_iff.1 hpath
    obtain ⟨d', hd', ha⟩ := w.exists_defines h htarget hd
    obtain rfl := hd'.2.1
    refine ⟨_, .imported (fun x' hx' => w.not_earlier h' ho' hoo hown hx') hoffers'
      (fun other' end' hother' => ?_) hd' (ha.isPublic.trans hpublic) (fun x' hx' hpub' => ?_),
      .some ⟨ha, .some hid⟩⟩
    · -- another path that offers the name comes from one of the first tree, which is no less
      obtain ⟨other, end0, hother, -, hoffered⟩ := w.symm.offers h' hoo.symm.file hother'
      exact w.atMost hoffers.1 hoffered.1 hpath hother.flip (hleast other end0 hoffered)
    · obtain ⟨x, hx, hxx⟩ := w.symm.exists_defines h' htarget hx'
      have hle := hlast x hx (hxx.isPublic.trans hpub')
      exact w.le_of_le hxx.symm ha hx.1 hd.1 (hx.2.1.trans hd.2.1.symm) hle
  | unbound hown hnone =>
    refine ⟨none, .unbound (fun x' hx' => w.not_earlier h' ho' hoo hown hx') ?_, .none⟩
    intro path' target' hoffers'
    obtain ⟨path, target, -, -, hoffers⟩ := w.symm.offers h' hoo.symm.file hoffers'
    exact hnone path target hoffers

end Means

end Twins

/-! ### Resolved programs -/

namespace Resolution

open Relation

/-- Two programs with resolved names differ only in their numbers. -/
structure Renamed (s : SourceSet) (t : Tree) (s' : SourceSet) (t' : Tree)
    (F : FileId → FileId → Prop) (I : ItemId → ItemId → Prop) (root : Bytes)
    (r r' : Resolution) : Prop where
  twins : Twins s t s' t' F I
  numbered : ∃ next, t.Numbered s.size next
  numbered' : ∃ next, t'.Numbered s'.size next
  resolved : Resolved s t root r
  resolved' : Resolved s' t' root r'

namespace Renamed

variable {s s' : SourceSet} {t t' : Tree} {F : FileId → FileId → Prop}
  {I : ItemId → ItemId → Prop} {root : Bytes} {r r' : Resolution}

lemma symm (w : Renamed s t s' t' F I root r r') :
    Renamed s' t' s t (flip F) (flip I) root r' r :=
  ⟨w.twins.symm, w.numbered', w.numbered, w.resolved', w.resolved⟩

variable (w : Renamed s t s' t' F I root r r')

include w

lemma exists_alike {d : Declared} (hd : t.definition? d.item = some d) :
    ∃ d', t'.definition? d'.item = some d' ∧ Alike t t' F I d d' := by
  obtain ⟨next, h⟩ := w.numbered
  exact w.twins.exists_alike h hd

lemma exists_declared {a a' : ItemId} (ha : I a a') {d : Declared}
    (hd : t.definition? a = some d) :
    ∃ d', t'.definition? a' = some d' ∧ Alike t t' F I d d' := by
  obtain ⟨next, h⟩ := w.numbered
  obtain ⟨rfl, hd⟩ := definition?_item hd
  obtain ⟨d', hd', rfl, hdd⟩ := w.twins.declared h ha hd
  exact ⟨d', hd', hdd⟩

/-- **References are bound alike.** -/
theorem binding {d d' : Declared} (hd : t.definition? d.item = some d)
    (hd' : t'.definition? d'.item = some d') (hdd : Alike t t' F I d d') {e : Expr} {name : Bytes}
    (he : t.reference? d.definition = some (e, name)) :
    ∃ e', t'.reference? d'.definition = some (e', name) ∧
      Option.Rel (BoundAlike t t' F I) (r.binding? e.node) (r'.binding? e'.node) := by
  obtain ⟨next, h⟩ := w.numbered
  obtain ⟨next', h'⟩ := w.numbered'
  obtain ⟨e0, e', he0, he', hbody⟩ := hdd.value
  obtain ⟨hexpr, hname⟩ := reference?_eq_some.1 he
  obtain rfl := Option.some.inj (hexpr.symm.trans he0)
  have href' : t'.reference? d'.definition = some (e', name) :=
    reference?_eq_some.2 ⟨he', hbody.trans hname⟩
  obtain ⟨b', hmeans', hb⟩ := w.twins.means h h' hd hd' hdd (w.resolved.means h hd he)
  rw [hmeans'.unique (w.resolved'.means h' hd' href')] at hb
  exact ⟨e', href', hb⟩

section Bound

variable {d d' : Declared} (hd : t.definition? d.item = some d)
  (hd' : t'.definition? d'.item = some d') (hdd : Alike t t' F I d d') {e : Expr} {name : Bytes}
  (he : t.reference? d.definition = some (e, name))

include hd hd' hdd he

lemma bound {b : Binding} (hb : r.binding? e.node = some b) :
    ∃ e' b', t'.reference? d'.definition = some (e', name) ∧ r'.binding? e'.node = some b' ∧
      BoundAlike t t' F I b b' := by
  obtain ⟨e', he', hrel⟩ := w.binding hd hd' hdd he
  rw [hb] at hrel
  generalize hb' : r'.binding? e'.node = found at hrel
  obtain ⟨hbb⟩ := hrel
  exact ⟨e', _, he', hb', hbb⟩

lemma unbound (hb : r.binding? e.node = none) :
    ∃ e', t'.reference? d'.definition = some (e', name) ∧ r'.binding? e'.node = none := by
  obtain ⟨e', he', hrel⟩ := w.binding hd hd' hdd he
  rw [hb] at hrel
  generalize hb' : r'.binding? e'.node = found at hrel
  cases hrel
  exact ⟨e', he', hb'⟩

end Bound

/-- **Matched items refer to matched items.** -/
lemma refers {a a' b : ItemId} (ha : I a a') (hab : Refers r a b) :
    ∃ b', I b b' ∧ Refers r' a' b' := by
  obtain ⟨span, target, hf, rfl⟩ := hab
  obtain ⟨d, e, name, b, hd, he, hb, -, rfl⟩ := follow?_eq_some.1 hf
  rw [w.resolved.tree] at hd he
  obtain ⟨d', hd', hdd⟩ := w.exists_declared ha hd
  obtain ⟨-, hd⟩ := definition?_item hd
  obtain ⟨rfl, hd'⟩ := definition?_item hd'
  obtain ⟨e', b', he', hb', hbb⟩ := w.bound hd hd' hdd he hb
  exact ⟨_, hbb.target.item, e'.span, _, follow?_eq_some.2
    ⟨d', e', name, b', w.resolved'.tree ▸ hd', w.resolved'.tree ▸ he', hb', rfl, rfl⟩, rfl⟩

lemma exists_item {a b : ItemId} (hab : TransGen (Refers r) a b) : ∃ a', I a a' := by
  obtain ⟨d, hd⟩ := Validation.definition?_of_transGen hab
  obtain ⟨span, hi, -⟩ := Tree.definition?_eq_some.1 (w.resolved.tree ▸ hd)
  exact w.twins.there.total hi

lemma transGen {a a' b : ItemId} (ha : I a a') (hab : TransGen (Refers r) a b) :
    ∃ b', I b b' ∧ TransGen (Refers r') a' b' := by
  induction hab with
  | single hab =>
    obtain ⟨b', hb, hab'⟩ := w.refers ha hab
    exact ⟨b', hb, .single hab'⟩
  | tail _ hbc ih =>
    obtain ⟨b', hb, hab'⟩ := ih
    obtain ⟨c', hc, hbc'⟩ := w.refers hb hbc
    exact ⟨c', hc, hab'.tail hbc'⟩

lemma spells {a a' : ItemId} (ha : I a a') {digits : Bytes} (hs : Spells r a digits) :
    Spells r' a' digits := by
  obtain ⟨d, e, hd, he, hb⟩ := hs
  rw [w.resolved.tree] at hd he
  obtain ⟨d', hd', hdd⟩ := w.exists_declared ha hd
  obtain ⟨e0, e', he0, he', hbody⟩ := hdd.value
  obtain rfl := Option.some.inj (he.symm.trans he0)
  exact ⟨d', e', w.resolved'.tree ▸ hd', w.resolved'.tree ▸ he', hbody.trans hb⟩

/-- **Matched items denote the same.** -/
theorem denotes {a a' : ItemId} (ha : I a a') {i : Int} (hi : Denotes r a i) :
    Denotes r' a' i := by
  induction hi generalizing a' with
  | literal hs hi => exact .literal (w.spells ha hs) hi
  | refers hab _ ih =>
    obtain ⟨b', hb, hab'⟩ := w.refers ha hab
    exact .refers hab' (ih hb)

end Renamed

end Resolution

end StateBuffer
