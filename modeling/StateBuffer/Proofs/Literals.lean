import Mathlib
import StateBuffer.Proofs.Plan
import StateBuffer.Proofs.Syntax.Origins
import StateBuffer.Proofs.Text.Numerals

/-!
What literals mean. The text of a literal denotes an integer in base ten, however long it is. It is
stored without its underscores, and it has a value exactly if the integer fits into 32 bits. The
check, the values of constants and the plan all take that value, and all refuse a literal without
one.
-/

namespace StateBuffer

lemma Bytes.digitsValue_eq_ofDigits (s : Bytes) :
    Bytes.digitsValue s = Nat.ofDigits 10 (s.reverse.map fun b => b.toNat - 0x30) := by
  induction s using List.reverseRecOn with
  | nil => rfl
  | append_singleton s b ih =>
    rw [Bytes.digitsValue_append, ih, List.reverse_append, List.reverse_singleton,
      List.singleton_append, List.map_cons, Nat.ofDigits_cons]
    ring

namespace Literal

/-! ### The integer of a text -/

/-- The integer that a literal denotes: its digits in base ten, whatever underscores are among them,
with its sign. -/
def denoted (text : Bytes) : Int :=
  let digits := (text.filter Bytes.isDigit).reverse.map fun b => b.toNat - 0x30
  if text.head? = some 0x2D then -(Nat.ofDigits 10 digits : Nat) else (Nat.ofDigits 10 digits : Nat)

/-- The integer fits into 32 bits with a sign. -/
def InRange (i : Int) : Prop := -2 ^ 31 ≤ i ∧ i ≤ 2 ^ 31 - 1

lemma isDigit_ne {b : UInt8} (h : Bytes.isDigit b = true) : b ≠ 0x2D ∧ b ≠ 0x2B ∧ b ≠ 0x5F := by
  refine ⟨?_, ?_, ?_⟩ <;>
  · rintro rfl
    exact absurd h (by decide)

lemma filter_digits {s : Bytes} (h : ∀ b ∈ s, isDigitByte b = true) :
    s.filter (· ≠ 0x5F) = s.filter Bytes.isDigit := by
  refine List.filter_congr fun b hb => ?_
  cases hd : Bytes.isDigit b with
  | true => simpa using (isDigit_ne hd).2.2
  | false =>
    have := h b hb
    rw [isDigitByte, hd, Bool.false_or, beq_iff_eq] at this
    simpa using this

lemma integer?_digits {s : Bytes} (hne : s ≠ []) (h : ∀ b ∈ s, Bytes.isDigit b = true) :
    integer? s = some (Bytes.digitsValue s : Int) ∧
      integer? (0x2D :: s) = some (-(Bytes.digitsValue s : Int)) := by
  have hread : Bytes.toNat? s = some (Bytes.digitsValue s) := by
    rw [Bytes.toNat?, List.all_eq_true.2 h]
    simp [hne]
  obtain ⟨b, rest, rfl⟩ := List.exists_cons_of_ne_nil hne
  obtain ⟨hminus, hplus, -⟩ := isDigit_ne (h b List.mem_cons_self)
  constructor
  · unfold integer?
    split
    · rename_i heq
      exact absurd (List.cons.inj heq).1 hminus
    · rename_i heq
      exact absurd (List.cons.inj heq).1 hplus
    · rw [hread]
      rfl
  · simp only [integer?, hread]
    rfl

lemma integer?_denoted {text : Bytes} (h : IsLiteral text) :
    integer? (text.filter (· ≠ 0x5F)) = some (denoted text) := by
  obtain ⟨sign, d, r, rfl, hsign, hd, hr⟩ := h
  have hrun : ∀ b ∈ d :: r, isDigitByte b = true :=
    List.forall_mem_cons.2 ⟨by rw [isDigitByte, hd, Bool.true_or], hr⟩
  have hdigits : ∀ b ∈ (d :: r).filter Bytes.isDigit, Bytes.isDigit b = true :=
    fun b hb => (List.mem_filter.1 hb).2
  have hne : (d :: r).filter Bytes.isDigit ≠ [] := by
    rw [List.filter_cons_of_pos hd]
    exact List.cons_ne_nil _ _
  obtain ⟨hplain, hminus⟩ := integer?_digits hne hdigits
  rcases hsign with rfl | rfl
  · rw [List.nil_append, filter_digits hrun, hplain, Bytes.digitsValue_eq_ofDigits, denoted,
      if_neg (by simpa using (isDigit_ne hd).1)]
  · rw [List.singleton_append, List.filter_cons_of_pos (by decide), filter_digits hrun, hminus,
      Bytes.digitsValue_eq_ofDigits, denoted, List.head?_cons, if_pos rfl,
      List.filter_cons_of_neg (show ¬ Bytes.isDigit 0x2D = true by decide)]

lemma value?_denoted {text : Bytes} (h : IsLiteral text) {v : Int32} :
    value? (text.filter (· ≠ 0x5F)) = some v ↔
      InRange (denoted text) ∧ v.toInt = denoted text := by
  rw [value?, integer?_denoted h]
  simp only [fits, Bool.and_eq_true, decide_eq_true_iff, Option.ite_none_right_eq_some,
    Option.some.injEq]
  constructor
  · rintro ⟨⟨hlow, hhigh⟩, rfl⟩
    exact ⟨⟨hlow, by omega⟩, Int32.toInt_ofInt_of_le hlow (by omega)⟩
  · rintro ⟨⟨hlow, hhigh⟩, hv⟩
    exact ⟨⟨hlow, by omega⟩, by rw [← hv, Int32.ofInt_toInt]⟩

end Literal

/-! ### Reading -/

lemma Grammar.literal_ok {c : Cursor} {text rest : Bytes} (hs : c.skipTrivia.rest = text ++ rest)
    (hm : literalPattern.rest? (text ++ rest) = some rest) :
    ∃ e c', literal c = (.ok e, c') ∧ e.body = .literal (text.filter (· ≠ 0x5F)) ∧
      c'.rest = rest := by
  have htoken : token literalPattern c = (.ok ⟨Span.ofOffsets c.skipTrivia.file c.skipTrivia.offset
      (c.skipTrivia.offset + ((text ++ rest).length - rest.length)), text⟩,
        c.skipTrivia.moveTo rest) := by
    simp only [token, hs, hm, take_token]
  simp only [literal, bind, htoken]
  exact ⟨_, _, rfl, rfl, rfl⟩

/-! ### Settings -/

namespace Plan

open Resolution

variable {t : Tree} {r : Resolution} {seq : List Declared} {inits : List Init}

lemma SetsAll.exists_init (hall : SetsAll t r seq inits) {d : Declared} (hd : d ∈ seq) :
    ∃ i ∈ inits, i.target = d.definition.node ∧ Sets t r d i.value := by
  obtain ⟨k, hk, rfl⟩ := List.getElem_of_mem hd
  have hlt : k < inits.length := hall.length_eq ▸ hk
  exact ⟨inits[k], List.getElem_mem hlt, hall.get hk hlt⟩

lemma SetsAll.exists_variable (hall : SetsAll t r seq inits) {i : Init} (hi : i ∈ inits) :
    ∃ d ∈ seq, i.target = d.definition.node ∧ Sets t r d i.value := by
  obtain ⟨k, hk, rfl⟩ := List.getElem_of_mem hi
  have hlt : k < seq.length := hall.length_eq ▸ hk
  exact ⟨seq[k], List.getElem_mem hlt, hall.get hlt hk⟩

lemma sets_of_spells {d : Declared} {digits : Bytes} (hs : Spells r d.item digits) {v : Int32}
    (hv : Literal.value? digits = some v) {value : InitValue} (h : Sets t r d value) :
    value = .const v := by
  obtain ⟨i, hi, rfl⟩ := integer?_of_value? hv
  cases h with
  | const hdenotes => rw [hdenotes.unique (.literal hs hi)]
  | global _ hrefers => exact absurd hrefers hs.not_refers

end Plan

namespace Literal

open Resolution Plan

/-! ### What a program makes of a literal -/

section Consumers

variable {s : SourceSet} {t : Tree} {next : NodeId} {root : Bytes} {r : Resolution} {d : Declared}
  {e : Expr} {digits : Bytes}

/-- The literal in the definition `d` is taken as `v` everywhere. -/
structure TakenAs (s : SourceSet) (r : Resolution) (d : Declared) (e : Expr) (v : Int32) :
    Prop where
  checked : Validation.checkValue r d = []
  value : ∀ cache, r.exprValue e cache = (some v, cache)
  constant : d.definition.kind = .const →
    ∀ cache, Faithful r cache → (r.constant d.item cache).1 = some v
  initial : ∀ cache, Plan.initValue r d.item cache = .ok (.const v, cache)
  lowered : ∀ p, Plan.lower s r = .ok p → d.definition.kind = .var →
    ⟨d.definition.node, .const v⟩ ∈ p.inits ∧
      ∀ i ∈ p.inits, i.target = d.definition.node → i.value = .const v

/-- The literal in the definition `d` is refused everywhere. -/
structure Refused (s : SourceSet) (r : Resolution) (d : Declared) (e : Expr) : Prop where
  checked : Validation.checkValue r d =
    [Diagnostic.error Code.literalOutOfBounds e.span "`i32` literal out of bounds"]
  value : ∀ cache, r.exprValue e cache = (none, cache)
  constant : ∀ cache, Faithful r cache → (r.constant d.item cache).1 = none
  initial : ∀ cache, Plan.initValue r d.item cache = .error (.initializerNotConstant e.span)
  lowered : d.definition.kind = .var → ∃ f, Plan.lower s r = .error f

variable (h : t.Numbered s.size next) (hr : Resolved s t root r)
  (hd : t.definition? d.item = some d) (he : t.expr? d.definition.value = some e)
  (hb : e.body = .literal digits)

include h hr hd he hb

lemma takenAs {v : Int32} (hv : value? digits = some v) : TakenAs s r d e v := by
  have hspells : Spells r d.item digits := ⟨d, e, hr.tree ▸ hd, hr.tree ▸ he, hb⟩
  have hvalue : ∀ cache, r.exprValue e cache = (some v, cache) := fun cache => by
    simp only [exprValue, hb, hv]
  constructor
  case checked =>
    simp [Validation.checkValue, hr.tree, he, hb, hv]
  case value => exact hvalue
  case constant =>
    intro hk cache hcache
    exact ((constant_spec hcache d.item).1 v).2 (.literal ⟨d, hr.tree ▸ hd, hk⟩ hspells hv)
  case initial =>
    intro cache
    simp [Plan.initValue, hr.tree, hd, he, hb, hvalue cache]
  case lowered =>
    intro p hp hk
    rcases Plan.lower_cases h hr with ⟨_, -, f, -, hfail⟩ | ⟨-, inits, seq, hok, hperm, hall, -⟩
    · rw [hfail] at hp
      cases hp
    obtain rfl := Except.ok.inj (hok.symm.trans hp)
    have hset : ∀ {value}, Plan.Sets t r d value → value = .const v :=
      fun hsets => sets_of_spells hspells hv hsets
    obtain ⟨i, hi, htarget, hsets⟩ :=
      hall.exists_init (hperm.mem_iff.2 (h.mem_vars_iff.2 ⟨hd, hk⟩))
    refine ⟨?_, fun j hj hnode => ?_⟩
    · rw [← htarget, ← hset hsets]
      exact hi
    · obtain ⟨d', hd', htarget', hsets'⟩ := hall.exists_variable hj
      obtain ⟨hd', -⟩ := h.mem_vars_iff.1 (hperm.mem_iff.1 hd')
      obtain rfl := h.node_inj hd' hd (htarget'.symm.trans hnode)
      exact hset hsets'

lemma refused {i : Int} (hi : integer? digits = some i) (hout : ¬ InRange i) :
    Refused s r d e := by
  have hspells : Spells r d.item digits := ⟨d, e, hr.tree ▸ hd, hr.tree ▸ he, hb⟩
  have hbounds : i < -2 ^ 31 ∨ 2 ^ 31 - 1 < i := by
    unfold InRange at hout
    omega
  have hv : value? digits = none := (Validation.value?_eq_none hi).2 hbounds
  constructor
  case checked =>
    simp [Validation.checkValue, hr.tree, he, hb, hv]
  case value =>
    intro cache
    simp only [exprValue, hb, hv]
  case constant =>
    intro cache hcache
    cases hconstant : (r.constant d.item cache).1 with
    | none => rfl
    | some v =>
      have hfolds := ((constant_spec hcache d.item).1 v).1 hconstant
      rw [folds_literal_iff hfolds.isConst hspells, hv] at hfolds
      cases hfolds
  case initial =>
    intro cache
    simp [Plan.initValue, hr.tree, hd, he, hb, exprValue, hv]
  case lowered =>
    intro hk
    have hrefuses : Plan.Refuses s t r d (.initializerNotConstant e.span) :=
      .unvalued (.outOfBounds he hb hi hbounds)
    rcases Plan.lower_cases h hr with ⟨_, -, f, -, hfail⟩ | ⟨hfree, -⟩
    · exact ⟨f, hfail⟩
    · exact absurd hrefuses (hfree d (h.mem_vars_iff.2 ⟨hd, hk⟩) _)

end Consumers

end Literal

namespace Project

open Resolution

lemma exists_literal (texts : List SourceText)
    (hsize : ∀ f ∈ (sourcesOf texts).files.toList, f.content.length < 2 ^ 32) {d : Declared}
    (hd : (treeOf texts).definition? d.item = some d) {e : Expr}
    (he : (treeOf texts).expr? d.definition.value = some e) {digits : Bytes}
    (hb : e.body = .literal digits) : ∃ text, (sourcesOf texts).text e.span = .ok text ∧
      IsLiteral text ∧ digits = text.filter (· ≠ 0x5F) := by
  obtain ⟨span, hi, -⟩ := Tree.definition?_eq_some.1 hd
  obtain ⟨f, hf, -, node, scope, u, hu, hstands⟩ :=
    (SourceSet.readFrom_parse (sourcesOf texts)).value hi he
  have hget := (ordered_sourcesOf texts).get?_id hf
  have hid : f.id ≠ 0 := by
    intro hzero
    rw [hzero] at hget
    cases hget
  cases hu with
  | literal hliteral =>
    obtain rfl := ExprBody.literal.inj hb
    refine ⟨u.text, ?_, hliteral, rfl⟩
    have hfile : (u.span f.id).file = f.id := rfl
    have hvalid : (u.span f.id).isValid = true := by simpa [Span.isValid, hfile] using hid
    rw [SourceSet.text, hvalid, SourceSet.get, hfile, hget]
    exact congrArg Except.ok (hstands.take_drop (hsize f hf) f.id)
  | name => cases hb

/-- **Literals mean what they say.** The texts of the pattern of literals are those of a minus sign
if any, a digit, and further digits and underscores. Where one comes next it is read, and stored
without its underscores; what is stored has the value `v` exactly if the integer that the text
denotes fits into 32 bits and is `v`, and no value otherwise. In all files of a set, each shorter
than `2 ^ 32` bytes, the value of a definition that is a literal stands so in the text of its place;
the check, the values of initializers and of constants and the plan all take the integer that this
text denotes, or all refuse it, according to whether it fits. -/
theorem literals_exact (texts : List SourceText) (root : Bytes)
    (hsize : ∀ f ∈ (sourcesOf texts).files.toList, f.content.length < 2 ^ 32) :
    (∀ text, Grammar.literalPattern.rest? text = some [] ↔ IsLiteral text) ∧
      (∀ (c : Cursor) (text rest : Bytes), c.skipTrivia.rest = text ++ rest →
        Grammar.literalPattern.rest? (text ++ rest) = some rest → IsLiteral text ∧
          ∃ e c', Grammar.literal c = (.ok e, c') ∧
            e.body = .literal (text.filter (· ≠ 0x5F)) ∧ c'.rest = rest) ∧
      (∀ text, IsLiteral text → ∀ v, Literal.value? (text.filter (· ≠ 0x5F)) = some v ↔
        Literal.InRange (Literal.denoted text) ∧ v.toInt = Literal.denoted text) ∧
      ∃ r, Resolution.ofTree (sourcesOf texts) (treeOf texts) root = .ok r ∧
        ∀ d e digits, (treeOf texts).definition? d.item = some d →
          (treeOf texts).expr? d.definition.value = some e → e.body = .literal digits →
          ∃ text, (sourcesOf texts).text e.span = .ok text ∧ IsLiteral text ∧
            digits = text.filter (· ≠ 0x5F) ∧
            (Literal.InRange (Literal.denoted text) →
              Literal.TakenAs (sourcesOf texts) r d e (Int32.ofInt (Literal.denoted text))) ∧
            (¬ Literal.InRange (Literal.denoted text) →
              Literal.Refused (sourcesOf texts) r d e) := by
  obtain ⟨next, h⟩ := numbered_treeOf texts
  obtain ⟨r, hr, hres⟩ := ofTree_resolved h root
  refine ⟨fun text => ?_, fun c text rest hs hm => ⟨?_, Grammar.literal_ok hs hm⟩,
    fun text hliteral v => Literal.value?_denoted hliteral, r, hr, fun d e digits hd he hb => ?_⟩
  · rw [literal_rest?]
    constructor
    · rintro ⟨text', htext, hliteral, -⟩
      rw [List.append_nil] at htext
      rwa [htext]
    · exact fun hliteral => ⟨text, (List.append_nil text).symm, hliteral,
        by simp [← runsOn_iff, runsOn, Utf8.next]⟩
  · obtain ⟨text', htext, hliteral, -⟩ := (literal_rest? _ _).1 hm
    rwa [List.append_cancel_right htext]
  · obtain ⟨text, hplace, hliteral, rfl⟩ := exists_literal texts hsize hd he hb
    refine ⟨text, hplace, hliteral, rfl, fun hfits => ?_, fun hout => ?_⟩
    · refine Literal.takenAs h hres hd he hb ((Literal.value?_denoted hliteral).2 ⟨hfits, ?_⟩)
      exact Int32.toInt_ofInt_of_le hfits.1 (by have := hfits.2; omega)
    · exact Literal.refused h hres hd he hb (Literal.integer?_denoted hliteral) hout

/-- A literal with zeros and underscores, and one that is too large by one. -/
def underscored : List SourceText :=
  [⟨"m.gpex", "m", "var a=-0_0_7_;const B=2147483648;", false⟩]

/-- The first is taken as minus seven, the second is refused. -/
theorem literals_exact_underscored :
    (∀ f ∈ (sourcesOf underscored).files.toList, f.content.length < 2 ^ 32) ∧
      ∃ r d e d' e', Resolution.ofTree (sourcesOf underscored) (treeOf underscored) "" = .ok r ∧
        (sourcesOf underscored).text e.span = .ok ("-0_0_7_" : Bytes) ∧
        Literal.TakenAs (sourcesOf underscored) r d e (-7) ∧
        (sourcesOf underscored).text e'.span = .ok ("2147483648" : Bytes) ∧
        Literal.Refused (sourcesOf underscored) r d' e' := by
  have hsize : ∀ f ∈ (sourcesOf underscored).files.toList, f.content.length < 2 ^ 32 := by
    decide +kernel
  obtain ⟨-, -, -, r, hr, hall⟩ := literals_exact underscored "" hsize
  obtain ⟨d, e, hd, he, hb, htext⟩ : ∃ d e, (treeOf underscored).definition? d.item = some d ∧
      (treeOf underscored).expr? d.definition.value = some e ∧
      e.body = .literal ("-007" : Bytes) ∧
      (sourcesOf underscored).text e.span = .ok ("-0_0_7_" : Bytes) :=
    ⟨⟨1, 1, ⟨.var, 0, [0], false, Span.none, ⟨1, 0, 3⟩, "a", ⟨1, 4, 5⟩, 1⟩⟩,
      ⟨1, ⟨1, 6, 13⟩, [0], .literal ("-007" : Bytes)⟩, by decide +kernel, by decide +kernel, rfl,
      by decide +kernel⟩
  obtain ⟨d', e', hd', he', hb', htext'⟩ : ∃ d e,
      (treeOf underscored).definition? d.item = some d ∧
      (treeOf underscored).expr? d.definition.value = some e ∧
      e.body = .literal ("2147483648" : Bytes) ∧
      (sourcesOf underscored).text e.span = .ok ("2147483648" : Bytes) :=
    ⟨⟨2, 1, ⟨.const, 2, [2], false, Span.none, ⟨1, 14, 19⟩, "B", ⟨1, 20, 21⟩, 2⟩⟩,
      ⟨3, ⟨1, 22, 32⟩, [2], .literal ("2147483648" : Bytes)⟩, by decide +kernel, by decide +kernel,
      rfl, by decide +kernel⟩
  have hseven : Literal.denoted ("-0_0_7_" : Bytes) = -7 := by decide +kernel
  have hlarge : Literal.denoted ("2147483648" : Bytes) = 2147483648 := by decide +kernel
  obtain ⟨text, hplace, -, -, htaken, -⟩ := hall d e _ hd he hb
  obtain rfl := Except.ok.inj (hplace.symm.trans htext)
  obtain ⟨text', hplace', -, -, -, hrefused⟩ := hall d' e' _ hd' he' hb'
  obtain rfl := Except.ok.inj (hplace'.symm.trans htext')
  rw [hseven] at htaken
  rw [hlarge] at hrefused
  exact ⟨hsize, r, d, e, d', e', hr, htext, htaken (by unfold Literal.InRange; omega), htext',
    hrefused (by unfold Literal.InRange; omega)⟩

end Project

end StateBuffer
