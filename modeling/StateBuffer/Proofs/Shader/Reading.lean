import Mathlib.Tactic.SplitIfs
import StateBuffer.Shader.Reader

/-!
What readers of tokens give. Every reader is executed on the tokens that it takes, with any tokens
behind them that do not continue what is read.
-/

namespace StateBuffer

namespace Wgsl

namespace Reader

/-- What a reader gives, and the tokens it leaves. -/
def exec {α : Type} (p : Reading α) (ts : List Token) : Option α × List Token := p.run ts

section Exec

variable {α β : Type} (ts : List Token)

@[simp] lemma exec_pure (a : α) : exec (pure a) ts = (some a, ts) := rfl

@[simp] lemma exec_bind (p : Reading α) (f : α → Reading β) : exec (p >>= f) ts =
    match exec p ts with
    | (some a, ts') => exec (f a) ts'
    | (none, ts') => (none, ts') := by
  have hrun : exec (p >>= f) ts =
      (((p.run ts).1.elim (pure none) fun a => (f a).run : StateM (List Token) (Option β))
        (p.run ts).2) := by
    rw [exec, OptionT.run_bind]
    rfl
  rw [hrun, exec]
  rcases p.run ts with ⟨_ | a, ts'⟩
  · rfl
  · rfl

@[simp] lemma exec_tried (p : Reading α) :
    exec (tried p) ts = (some (exec p ts).1, (exec p ts).2) := rfl

@[simp] lemma exec_peek : exec peek ts = (some ts.head?, ts) := rfl

@[simp] lemma exec_advance : exec advance ts = (some (), ts.tail) := rfl

lemma exec_acceptToken (t : Token) : exec (acceptToken t) ts =
    if ts.head? = some t then (some true, ts.tail) else (some false, ts) := by
  unfold acceptToken
  rw [exec_bind, exec_peek]
  simp only
  split_ifs <;> rfl

@[simp] lemma exec_accept (text : Bytes) : exec (accept text) ts =
    if ts.head? = some (.symbol text) then (some true, ts.tail) else (some false, ts) :=
  exec_acceptToken ts (.symbol text)

@[simp] lemma exec_skip (text : Bytes) : exec (skip text) ts =
    (some (), if ts.head? = some (.symbol text) then ts.tail else ts) := by
  unfold skip
  rw [exec_bind, exec_accept]
  split_ifs <;> rfl

@[simp] lemma exec_expect (text : Bytes) :
    exec (expect text) (.symbol text :: ts) = (some (), ts) := by
  unfold expect
  rw [exec_bind, exec_accept, List.head?_cons, if_pos rfl]
  rfl

@[simp] lemma exec_listEnds (close : Bytes) : exec (listEnds close) ts =
    (some (decide (ts.head? = some (.symbol close)) || ts.head?.isNone), ts) := rfl

@[simp] lemma exec_name? {w : Bytes} (h : isName w = true) :
    exec name? (.word w :: ts) = (some (some w), ts) := by
  unfold name?
  rw [exec_bind, exec_peek]
  simp only [List.head?_cons, h, if_true]
  rfl

@[simp] lemma exec_name {w : Bytes} (h : isName w = true) :
    exec name (.word w :: ts) = (some w, ts) := by
  unfold name
  rw [exec_bind, exec_name? ts h]
  rfl

end Exec

/-! ### Expressions -/

/-- No binary operator comes next. -/
def Stops (ts : List Token) : Prop :=
  ∀ s, ts.head? = some (.symbol s) → ∀ operators ∈ levels, operators.contains s = false

/-- No suffix comes next. -/
def Bare (ts : List Token) : Prop :=
  ts.head? ≠ some (.symbol ".") ∧ ts.head? ≠ some (.symbol "[") ∧ ts.head? ≠ some (.symbol "(")

section Expressions

variable {ts rest : List Token} {e : ExprTree}

lemma exec_suffixes (hbare : Bare ts) (fuel : Nat) :
    exec (suffixes (fuel + 1) e) ts = (some e, ts) := by
  simp [suffixes, hbare.1, hbare.2.1, hbare.2.2]

lemma exec_binaryRest (h : Stops ts) {operators : List Bytes} (hmem : operators ∈ levels)
    (tighter : List (List Bytes)) (fuel : Nat) :
    exec (binaryRest (fuel + 1) operators tighter e) ts = (some e, ts) := by
  rw [binaryRest, exec_bind, exec_peek]
  simp only
  split
  · rename_i s hs
    rw [h s hs operators hmem]
    rfl
  · rfl

lemma exec_binary {k : Nat} (h : ∀ fuel, exec (unary (fuel + k)) ts = (some e, rest))
    (hstops : Stops rest) {operators : List (List Bytes)} (hsub : ∀ o ∈ operators, o ∈ levels)
    (fuel : Nat) :
    exec (binary (fuel + k + operators.length + 1) operators) ts = (some e, rest) := by
  induction operators with
  | nil =>
    rw [binary]
    exact h fuel
  | cons o operators ih =>
    -- one step of fuel for the level, and none of its operators follows
    have hrest := exec_binaryRest (e := e) hstops (hsub o List.mem_cons_self) operators
      (fuel + k + operators.length)
    rw [List.length_cons, binary, exec_bind, ← Nat.add_assoc,
      ih fun o' ho' => hsub o' (List.mem_cons_of_mem _ ho')]
    exact hrest

lemma exec_expression {k : Nat} (h : ∀ fuel, exec (unary (fuel + k)) ts = (some e, rest))
    (hstops : Stops rest) (fuel : Nat) :
    exec (expression (fuel + k + 12)) ts = (some e, rest) :=
  exec_binary h hstops (fun _ ho => ho) fuel

lemma exec_unary {k : Nat} (hhead : ∀ s, ts.head? = some (.symbol s) → s ∉ unaryOperators)
    (h : ∀ fuel, exec (primary (fuel + k) >>= suffixes (fuel + k)) ts = (some e, rest))
    (fuel : Nat) : exec (unary (fuel + k + 1)) ts = (some e, rest) := by
  rw [unary, exec_bind, exec_peek]
  simp only
  split
  · rename_i s hs
    rw [if_neg (by simpa using hhead s hs)]
    exact h fuel
  · exact h fuel

lemma exec_integer (digits : Bytes) (hbare : Bare rest) (fuel : Nat) :
    exec (unary (fuel + 2)) (.integer digits :: rest) =
      (some (.literal .integer digits), rest) := by
  refine exec_unary (k := 1) (by simp) (fun fuel => ?_) fuel
  rw [exec_bind, primary]
  simp only [exec_bind, exec_peek, List.head?_cons, exec_advance, List.tail_cons, exec_pure]
  exact exec_suffixes hbare fuel

lemma exec_minus {k : Nat} (h : ∀ fuel, exec (unary (fuel + k)) ts = (some e, rest)) (fuel : Nat) :
    exec (unary (fuel + k + 1)) (.symbol "-" :: ts) = (some (.unary "-" e), rest) := by
  rw [unary]
  simp only [exec_bind, exec_peek, List.head?_cons]
  rw [if_pos (by decide)]
  simp only [exec_bind, exec_advance, List.tail_cons, h, exec_pure]

lemma isName_iff {w : Bytes} :
    isName w = true ↔ keywords.contains w = false ∧ typeNames.contains w = false := by
  simp [isName]

lemma exec_ident {w : Bytes} (h : isName w = true) (fuel : Nat) :
    exec (primary (fuel + 1)) (.word w :: ts) = (some (.ident w), ts) := by
  obtain ⟨hk, ht⟩ := isName_iff.1 h
  have hbool : ¬ (w = "true" ∨ w = "false") := by
    rintro (rfl | rfl)
    · exact absurd hk (by decide)
    · exact absurd hk (by decide)
  rw [primary]
  simp only [exec_bind, exec_peek, List.head?_cons, if_neg hbool, ht, hk, Bool.false_eq_true,
    if_false, exec_advance, List.tail_cons, exec_pure]

lemma exec_member {base member : Bytes} (hbase : isName base = true)
    (hmember : isName member = true) (hbare : Bare rest) (fuel : Nat) :
    exec (unary (fuel + 3)) (.word base :: .symbol "." :: .word member :: rest) =
      (some (.member (.ident base) member), rest) := by
  refine exec_unary (k := 2) (by simp) (fun fuel => ?_) fuel
  rw [exec_bind, exec_ident hbase]
  simp only
  rw [suffixes]
  simp only [exec_bind, exec_accept, List.head?_cons, if_true, List.tail_cons, exec_name _ hmember]
  exact exec_suffixes hbare fuel

lemma exec_type {w : Bytes} (hk : keywords.contains w = false) (harray : w ≠ "array")
    (hptr : w ≠ "ptr") (hnext : ts.head? ≠ some (.symbol "<")) (fuel : Nat) :
    exec (type (fuel + 1)) (.word w :: ts) = (some (.named w []), ts) := by
  rw [type]
  simp only [exec_bind, exec_peek, List.head?_cons, hk, Bool.false_eq_true, if_false, exec_pure,
    exec_advance, List.tail_cons, if_neg harray, if_neg hptr, exec_accept, if_neg hnext]

lemma exec_convert {k : Nat}
    (h : ∀ fuel, exec (unary (fuel + k)) ts = (some e, .symbol ")" :: rest)) (hne : ts ≠ [])
    (hhead : ts.head? ≠ some (.symbol ")")) (hbare : Bare rest) (fuel : Nat) :
    exec (unary (fuel + k + 15)) (.word "i32" :: .symbol "(" :: ts) =
      (some (.construct (.named "i32" []) [e]), rest) := by
  have hstops : Stops (.symbol ")" :: rest) := by
    intro s hs operators hmem
    obtain rfl := Token.symbol.inj (Option.some.inj hs)
    exact (by decide : ∀ o ∈ levels, o.contains (Bytes.ofString ")") = false) operators hmem
  have hsome : ts.head?.isNone = false := by
    cases ts <;> simp at hne ⊢
  refine exec_unary (k := k + 14) (by simp) (fun fuel => ?_) fuel
  show exec (primary (fuel + k + 13 + 1) >>= suffixes (fuel + k + 13 + 1)) _ = _
  have hprimary : exec (primary (fuel + k + 13 + 1)) (.word "i32" :: .symbol "(" :: ts) =
      (some (.construct (.named "i32" []) []), .symbol "(" :: ts) := by
    rw [primary, exec_bind, exec_peek]
    simp only [List.head?_cons]
    rw [if_neg (by decide), if_pos (by decide), exec_bind,
      exec_type (by decide) (by decide) (by decide) (by simp +decide)]
    rfl
  have harguments : exec (arguments (fuel + k + 12 + 1)) ts = (some [e], .symbol ")" :: rest) := by
    rw [arguments]
    simp +decide only [exec_bind, exec_listEnds, hhead, decide_false, hsome, Bool.or_self,
      if_false, exec_expression h hstops, exec_accept, List.head?_cons,
      exec_pure]
  rw [exec_bind, hprimary]
  simp only
  rw [suffixes]
  simp +decide only [exec_bind, exec_accept, List.head?_cons, if_true, if_false, List.tail_cons,
    harguments, exec_skip, applied]
  exact exec_suffixes hbare _

end Expressions

/-! ### Statements -/

lemma stops_of_symbol {s : Bytes} (h : ∀ operators ∈ levels, operators.contains s = false)
    (ts : List Token) : Stops (.symbol s :: ts) := by
  intro s' hs'
  obtain rfl := Token.symbol.inj (Option.some.inj hs')
  exact h

lemma bare_of_symbol {s : Bytes} (h : s ≠ "." ∧ s ≠ "[" ∧ s ≠ "(") (ts : List Token) :
    Bare (.symbol s :: ts) := by
  simp [Bare, h]

section Statements

variable {ts rest : List Token} {e : ExprTree}

lemma exec_assign {base member : Bytes} (hbase : isName base = true)
    (hmember : isName member = true) {k : Nat}
    (h : ∀ fuel, exec (unary (fuel + k)) ts = (some e, .symbol ";" :: rest)) (fuel : Nat) :
    exec (simple (fuel + k + 15))
        (.word base :: .symbol "." :: .word member :: .symbol "=" :: ts) =
      (some (.assign (.member (.ident base) member) "=" e), rest) := by
  have hleft := exec_expression
    (exec_member hbase hmember (bare_of_symbol (s := "=") (by decide) ts))
    (stops_of_symbol (by decide) ts) (fuel + k)
  have hright := exec_expression h (stops_of_symbol (by decide) rest) (fuel + 3)
  rw [Nat.add_right_comm fuel 3 k] at hright
  rw [simple]
  simp +decide only [exec_bind, hleft, exec_peek, List.head?_cons, if_true, exec_advance,
    List.tail_cons, hright, exec_skip, exec_pure]

/-- A statement that begins with a name is an assignment or an expression. -/
lemma exec_statement {w : Bytes} (h : isName w = true) (fuel : Nat) :
    exec (statement (fuel + 1)) (.word w :: ts) = exec (simple fuel) (.word w :: ts) := by
  have hne : ∀ keyword ∈ keywords, w ≠ keyword := by
    rintro keyword hmem rfl
    have hk := (isName_iff.1 h).1
    rw [List.contains_iff_mem.2 hmem] at hk
    simp at hk
  rw [statement, exec_bind, exec_peek]
  simp only [List.head?_cons]
  rw [if_neg (hne "var" (by decide)), if_neg (hne "let" (by decide)),
    if_neg (hne "return" (by decide)), if_neg (hne "if" (by decide)),
    if_neg (hne "while" (by decide)), if_neg (hne "loop" (by decide)),
    if_neg (hne "for" (by decide)), if_neg (hne "break" (by decide)),
    if_neg (hne "continue" (by decide)), if_neg (hne "discard" (by decide))]

lemma exec_statements_nil (fuel : Nat) :
    exec (statements (fuel + 1)) (.symbol "\x7d" :: ts) = (some [], ts) := by
  rw [statements]
  simp only [exec_bind, exec_accept, List.head?_cons, if_true, List.tail_cons, exec_pure]

lemma exec_statements_cons {fuel : Nat} {s : Stmt} {body : List Stmt} {middle : List Token}
    (hhead : ts.head? ≠ some (.symbol "\x7d")) (hs : exec (statement fuel) ts = (some s, middle))
    (hbody : exec (statements fuel) middle = (some body, rest)) :
    exec (statements (fuel + 1)) ts = (some (s :: body), rest) := by
  rw [statements]
  simp only [exec_bind, exec_accept, if_neg hhead, Bool.false_eq_true, if_false, exec_pure, hs,
    hbody]

end Statements

/-! ### Declarations -/

section Declarations

variable {ts rest : List Token}

lemma exec_attributes_word (w : Bytes) (ts : List Token) (fuel : Nat) :
    exec (attributes (fuel + 1)) (.word w :: ts) = (some [], .word w :: ts) := by
  have hne : (Token.word w :: ts).head? ≠ some (.symbol "@") := by simp
  rw [attributes]
  simp only [exec_bind, exec_accept, if_neg hne, Bool.not_false, if_true, exec_pure]

lemma exec_attributes_cons {n : Bytes} (hn : isName n = true)
    (hnext : ts.head? ≠ some (.symbol "(")) {fuel : Nat} {marks : List AttributeTree}
    (h : exec (attributes fuel) ts = (some marks, rest)) :
    exec (attributes (fuel + 1)) (.symbol "@" :: .word n :: ts) =
      (some (⟨n, []⟩ :: marks), rest) := by
  rw [attributes]
  simp only [exec_bind, exec_accept, List.head?_cons, if_true, Bool.not_true, Bool.false_eq_true,
    if_false, exec_pure, List.tail_cons, exec_name? _ hn, if_neg hnext, h]

lemma exec_attributes_values {n : Bytes} (hn : isName n = true) {fuel : Nat}
    {values : List ExprTree} {middle : List Token} {marks : List AttributeTree}
    (hvalues : exec (attributeValues fuel) ts = (some values, .symbol ")" :: middle))
    (h : exec (attributes fuel) middle = (some marks, rest)) :
    exec (attributes (fuel + 1)) (.symbol "@" :: .word n :: .symbol "(" :: ts) =
      (some (⟨n, values⟩ :: marks), rest) := by
  rw [attributes]
  simp only [exec_bind, exec_accept, List.head?_cons, if_true, Bool.not_true, Bool.false_eq_true,
    if_false, exec_pure, List.tail_cons, exec_name? _ hn, hvalues, exec_skip, h]

lemma exec_value (digits : Bytes) {s : Bytes} (hs : s = ")" ∨ s = ",") (fuel : Nat) :
    exec (expression (fuel + 14)) (.integer digits :: .symbol s :: ts) =
      (some (.literal .integer digits), .symbol s :: ts) := by
  have hbare : Bare (.symbol s :: ts) := by
    rcases hs with rfl | rfl
    · exact bare_of_symbol (by decide) ts
    · exact bare_of_symbol (by decide) ts
  have hstops : Stops (.symbol s :: ts) := by
    rcases hs with rfl | rfl
    · exact stops_of_symbol (by decide) ts
    · exact stops_of_symbol (by decide) ts
  exact exec_expression (exec_integer digits hbare) hstops fuel

lemma exec_listEnds_integer (close digits : Bytes) :
    exec (listEnds close) (.integer digits :: ts) = (some false, .integer digits :: ts) := by
  simp

lemma exec_attributeValues_single (digits : Bytes) (ts : List Token) (fuel : Nat) :
    exec (attributeValues (fuel + 15)) (.integer digits :: .symbol ")" :: ts) =
      (some [.literal .integer digits], .symbol ")" :: ts) := by
  rw [attributeValues]
  simp +decide only [exec_bind, exec_listEnds_integer, if_false, exec_pure, exec_tried,
    exec_value digits (.inl rfl), exec_accept, List.head?_cons]

lemma exec_attributeValues_cons (digits : Bytes) {fuel : Nat} {values : List ExprTree}
    (h : exec (attributeValues (fuel + 14)) ts = (some values, rest)) :
    exec (attributeValues (fuel + 15)) (.integer digits :: .symbol "," :: ts) =
      (some (.literal .integer digits :: values), rest) := by
  rw [attributeValues]
  simp +decide only [exec_bind, exec_listEnds_integer, if_false, if_true, exec_pure, exec_tried,
    exec_value digits (.inr rfl), exec_accept, List.head?_cons, List.tail_cons, h]

lemma exec_field {n w : Bytes} (hn : isName n = true) (hk : keywords.contains w = false)
    (harray : w ≠ "array") (hptr : w ≠ "ptr") (hnext : ts.head? ≠ some (.symbol "<"))
    (fuel : Nat) : exec (member (fuel + 1)) (.word n :: .symbol ":" :: .word w :: ts) =
      (some ⟨[], n, .named w []⟩, ts) := by
  rw [member]
  simp only [exec_bind, exec_attributes_word, exec_name _ hn,
    exec_expect, exec_type hk harray hptr hnext, exec_pure]

lemma exec_members_nil (fuel : Nat) :
    exec (members (fuel + 1)) (.symbol "\x7d" :: ts) = (some [], ts) := by
  rw [members]
  simp only [exec_bind, exec_accept, List.head?_cons, if_true, List.tail_cons, exec_pure]

lemma exec_members_cons {fuel : Nat} {m : Member} {ms : List Member} {middle : List Token}
    (hhead : ts.head? ≠ some (.symbol "\x7d"))
    (hm : exec (member fuel) ts = (some m, .symbol "," :: middle))
    (hms : exec (members fuel) middle = (some ms, rest)) :
    exec (members (fuel + 1)) ts = (some (m :: ms), rest) := by
  rw [members]
  simp only [exec_bind, exec_accept, if_neg hhead, Bool.false_eq_true, if_false, exec_pure, hm,
    exec_skip, List.head?_cons, if_true, List.tail_cons, hms]

lemma exec_struct {n : Bytes} (hn : isName n = true) {fuel : Nat} {ms : List Member}
    (h : exec (members (fuel + 1)) ts = (some ms, rest)) :
    exec (declaration (fuel + 1)) (.word "struct" :: .word n :: .symbol "\x7b" :: ts) =
      (some (some (.struct ⟨n, ms⟩)), rest) := by
  rw [declaration]
  simp +decide only [exec_bind, exec_attributes_word,
    exec_peek, List.head?_cons, exec_advance, List.tail_cons, if_true, exec_name _ hn, exec_expect,
    h, exec_pure]

lemma exec_variable {space mode n w : Bytes} (hspace : isName space = true)
    (hmode : isName mode = true) (hn : isName n = true) (hk : keywords.contains w = false)
    (harray : w ≠ "array") (hptr : w ≠ "ptr") {fuel : Nat} {marks : List AttributeTree}
    {front : List Token} (hmarks : exec (attributes (fuel + 1)) front = (some marks,
      .word "var" :: .symbol "<" :: .word space :: .symbol "," :: .word mode :: .symbol ">" ::
        .word n :: .symbol ":" :: .word w :: .symbol ";" :: ts)) :
    exec (declaration (fuel + 1)) front =
      (some (some (.variable ⟨marks, n, some (.named w []), none⟩)), ts) := by
  have htype : exec (type (fuel + 1)) (.word w :: .symbol ";" :: ts) =
      (some (.named w []), .symbol ";" :: ts) :=
    exec_type hk harray hptr (by simp +decide) fuel
  rw [declaration]
  simp +decide only [exec_bind, hmarks, exec_peek, List.head?_cons, exec_advance, List.tail_cons,
    if_true, if_false, declaredVariable, addressSpace, declaredType, initializer, exec_accept,
    exec_name? _ hspace, exec_name? _ hmode, exec_skip, exec_name _ hn, htype, exec_pure]

lemma exec_function {n : Bytes} (hn : isName n = true) {fuel : Nat} {body : List Stmt}
    (h : exec (statements fuel) ts = (some body, rest)) (marks : List AttributeTree)
    {front : List Token} (hmarks : exec (attributes (fuel + 1)) front = (some marks,
      .word "fn" :: .word n :: .symbol "(" :: .symbol ")" :: .symbol "\x7b" :: ts)) :
    exec (declaration (fuel + 1)) front =
      (some (some (.function ⟨marks, n, [], none, body⟩)), rest) := by
  rw [declaration]
  simp +decide only [exec_bind, hmarks, exec_peek, List.head?_cons, exec_advance, List.tail_cons,
    if_true, if_false, exec_name _ hn, exec_expect, parameters, exec_accept, exec_pure, result,
    block, h]

lemma exec_declarations_cons {fuel : Nat} {d : Declaration} {ds : List Declaration}
    {middle : List Token} (hne : ts ≠ [])
    (hd : exec (declaration fuel) ts = (some (some d), middle))
    (hds : exec (declarations fuel) middle = (some ds, rest)) :
    exec (declarations (fuel + 1)) ts = (some (d :: ds), rest) := by
  have hsome : ts.head?.isNone = false := by
    cases ts with
    | nil => exact absurd rfl hne
    | cons => rfl
  rw [declarations]
  simp only [exec_bind, exec_peek, hsome, Bool.false_eq_true, if_false, exec_pure, hd, hds,
    Option.toList_some, List.singleton_append]

lemma exec_declarations_nil (fuel : Nat) : exec (declarations (fuel + 1)) [] = (some [], []) := by
  rw [declarations]
  rfl

end Declarations

end Reader

end Wgsl

end StateBuffer
