import StateBuffer.Data.Json
import StateBuffer.Proofs.Text.Encoding
import StateBuffer.Proofs.Text.Numerals

/-!
Reading back what was written as JSON. Every escape in a string stands for one character, so a
well-formed text is read back whatever it holds. A value in its document form is read back whatever
follows it, if its strings are well-formed, its numbers are numerals and it is not nested too deep.
-/

namespace StateBuffer

namespace Json

open Utf8

/-! ### Strings -/

/-- The text is read as one character of a string, in one step. -/
def Stands (p : Nat) (e : Bytes) : Prop :=
  e ≠ [] ∧ ∀ fuel rest, stringBody (fuel + 1) (e ++ rest) =
    (stringBody fuel rest).map fun x => (encode p ++ x.1, x.2)

lemma hexUnit?_append {s : Bytes} {n : Nat} (h : hexUnit? s = some (n, [])) (rest : Bytes) :
    hexUnit? (s ++ rest) = some (n, rest) := by
  rcases s with _ | ⟨a, _ | ⟨b, _ | ⟨c, _ | ⟨d, tail⟩⟩⟩⟩
  · simp [hexUnit?] at h
  · simp [hexUnit?] at h
  · simp [hexUnit?] at h
  · simp [hexUnit?] at h
  · simp only [List.cons_append, hexUnit?, bind, Option.bind_eq_some_iff, pure, Option.some.injEq,
      Prod.mk.injEq] at h ⊢
    obtain ⟨a', ha, b', hb, c', hc, d', hd, hn, rfl⟩ := h
    exact ⟨a', ha, b', hb, c', hc, d', hd, hn, rfl⟩

def numbered : List Nat := List.range 0x20 ++ [0x3C, 0x3E, 0x26, 0x2028, 0x2029]

lemma escape?_number {p : Nat} (hp : p ∈ numbered) (rest : Bytes) :
    escape? (("u" : Bytes) ++ Bytes.hexNat 4 p ++ rest) = some (p, rest) := by
  have hall : ∀ p ∈ numbered, hexUnit? (Bytes.hexNat 4 p) = some (p, []) ∧
      (Utf16.isHigh p || Utf16.isLow p) = false := by decide
  obtain ⟨hunit, hsingle⟩ := hall p hp
  have hread := hexUnit?_append hunit rest
  have hu : ("u" : Bytes) = [0x75] := by decide
  simp only [hu, List.cons_append, List.nil_append, escape?, hread, bind, Option.bind_some, hsingle,
    Bool.false_eq_true, if_false, pure]

lemma stands_escape {p : Nat} {e : Bytes} (h : ∀ rest, escape? (e ++ rest) = some (p, rest)) :
    Stands p (0x5C :: e) := by
  refine ⟨by simp, fun fuel rest => ?_⟩
  have hmark : ¬ (0x5C : UInt8) = 0x22 := by decide
  have hprintable : ¬ (0x5C : UInt8) < 0x20 := by decide
  rw [List.cons_append, stringBody, if_neg hmark, if_neg hprintable, if_pos rfl, h rest]
  simp only [bind, Option.bind_some, pure]
  cases stringBody fuel rest <;> rfl

lemma head_encode {p : Nat} (h : IsScalar p) : ∃ b tail, encode p = b :: tail ∧
    (p < 0x80 ∧ b.toNat = p ∧ tail = [] ∨ 0x80 ≤ b.toNat ∧ tail ≠ []) := by
  have hp : p < 0x110000 := by unfold IsScalar at h; omega
  unfold encode
  split_ifs with h1 h2 h3
  · exact ⟨_, [], rfl, .inl ⟨h1, toNat_toUInt8 (by omega), rfl⟩⟩
  · refine ⟨_, _, rfl, .inr ⟨?_, by simp⟩⟩
    rw [toNat_toUInt8 (by omega)]
    omega
  · refine ⟨_, _, rfl, .inr ⟨?_, by simp⟩⟩
    rw [toNat_toUInt8 (by omega)]
    omega
  · refine ⟨_, _, rfl, .inr ⟨?_, by simp⟩⟩
    rw [toNat_toUInt8 (by omega)]
    omega

lemma stands_plain {p : Nat} (h : IsScalar p) (h1 : 0x20 ≤ p) (h2 : p ≠ 0x22) (h3 : p ≠ 0x5C) :
    Stands p (encode p) := by
  refine ⟨encode_ne_nil p, fun fuel rest => ?_⟩
  obtain ⟨b, tail, hb, hhead⟩ := head_encode h
  have hnext := next_encode h rest
  rw [hb, List.cons_append] at hnext ⊢
  have hquote : b ≠ 0x22 := by
    rintro rfl
    simp at hhead
    omega
  have hslash : b ≠ 0x5C := by
    rintro rfl
    simp at hhead
    omega
  have hprintable : ¬ b < 0x20 := by
    rw [UInt8.lt_iff_toNat_lt]
    show ¬ b.toNat < 0x20
    omega
  rw [stringBody, if_neg hquote, if_neg hprintable, if_neg hslash, hnext]
  simp only [List.length_cons, Nat.add_sub_cancel, List.drop_left]
  cases stringBody fuel rest with
  | none => rfl
  | some x => simp [hb]

lemma stands_escapePoint {p : Nat} (h : IsScalar p) : Stands p (escapePoint p (encode p)) := by
  -- the seven that have a letter of their own
  have hletter : ∀ {c : UInt8} {text : Bytes}, text = [0x5C, c] →
      (∀ rest, escape? (c :: rest) = some (p, rest)) → Stands p text := by
    rintro c text rfl hread
    exact stands_escape hread
  unfold escapePoint
  by_cases h1 : p = 0x22
  · rw [if_pos h1]
    exact hletter (c := 0x22) (by decide) fun rest => by rw [h1]; rfl
  rw [if_neg h1]
  by_cases h2 : p = 0x5C
  · rw [if_pos h2]
    exact hletter (c := 0x5C) (by decide) fun rest => by rw [h2]; rfl
  rw [if_neg h2]
  by_cases h3 : p = 0x08
  · rw [if_pos h3]
    exact hletter (c := 0x62) (by decide) fun rest => by rw [h3]; rfl
  rw [if_neg h3]
  by_cases h4 : p = 0x0C
  · rw [if_pos h4]
    exact hletter (c := 0x66) (by decide) fun rest => by rw [h4]; rfl
  rw [if_neg h4]
  by_cases h5 : p = 0x0A
  · rw [if_pos h5]
    exact hletter (c := 0x6E) (by decide) fun rest => by rw [h5]; rfl
  rw [if_neg h5]
  by_cases h6 : p = 0x0D
  · rw [if_pos h6]
    exact hletter (c := 0x72) (by decide) fun rest => by rw [h6]; rfl
  rw [if_neg h6]
  by_cases h7 : p = 0x09
  · rw [if_pos h7]
    exact hletter (c := 0x74) (by decide) fun rest => by rw [h7]; rfl
  rw [if_neg h7]
  by_cases h8 : p ∈ numbered
  · have hcond : (p < 0x20 || p = 0x3C || p = 0x3E || p = 0x26 || p = 0x2028 || p = 0x2029) =
        true := by
      simpa [numbered, or_assoc] using h8
    have hu : ("\\u" : Bytes) = 0x5C :: ("u" : Bytes) := by decide
    rw [if_pos hcond, hu]
    exact stands_escape (escape?_number h8)
  · have hcond : ¬ (p < 0x20 || p = 0x3C || p = 0x3E || p = 0x26 || p = 0x2028 || p = 0x2029) =
        true := by
      simpa [numbered, or_assoc] using h8
    have hplain : Stands p (encode p) := by
      refine stands_plain h ?_ h1 h2
      simp only [numbered, List.mem_append, List.mem_range, not_or] at h8
      omega
    rw [if_neg hcond]
    obtain ⟨b, tail, hb, ⟨hlt, hbp, rfl⟩ | ⟨-, hne⟩⟩ := head_encode h
    · have hlow : ¬ (0x80 : UInt8) ≤ b := by
        rw [UInt8.le_iff_toNat_le, hbp]
        show ¬ 0x80 ≤ p
        omega
      rw [hb] at hplain ⊢
      simpa [hlow] using hplain
    · obtain ⟨c, tail, rfl⟩ := List.exists_cons_of_ne_nil hne
      rw [hb] at hplain ⊢
      exact hplain

/-- A string after its opening quotation mark. -/
def quoted (s : Bytes) : Bytes :=
  (points s).flatMap (fun x => escapePoint x.1 x.2) ++ [0x22]

lemma quoteString_eq (s : Bytes) : quoteString s = 0x22 :: quoted s := rfl

lemma quoted_encode {p : Nat} (h : IsScalar p) (s : Bytes) :
    quoted (encode p ++ s) = escapePoint p (encode p) ++ quoted s := by
  simp [quoted, points_encode h]

/-- A character takes at least a byte, so the length of a string bounds the steps. -/
lemma length_points_lt {s : Bytes} (h : isValid s = true) :
    (points s).length < (quoted s).length := by
  refine isValid_induction h ?_ ?_
  · simp [points, quoted]
  · intro p s hp ih
    have hpos := List.length_pos_iff.2 (stands_escapePoint hp).1
    rw [points_encode hp, quoted_encode hp, List.length_append, List.length_cons]
    omega

lemma stringBody_of_fuel {s : Bytes} (h : isValid s = true) (rest : Bytes) :
    ∀ fuel, (points s).length < fuel → stringBody fuel (quoted s ++ rest) = some (s, rest) := by
  refine isValid_induction h ?_ ?_
  · intro fuel hfuel
    obtain ⟨n, rfl⟩ : ∃ n, fuel = n + 1 := ⟨fuel - 1, by omega⟩
    simp [quoted, points, stringBody]
  · intro p s hp ih fuel hfuel
    rw [points_encode hp, List.length_cons] at hfuel
    obtain ⟨n, rfl⟩ : ∃ n, fuel = n + 1 := ⟨fuel - 1, by omega⟩
    rw [quoted_encode hp, List.append_assoc, (stands_escapePoint hp).2, ih n (by omega)]
    rfl

/-- **A well-formed text** is read back from its string. -/
theorem stringBody_quoted {s : Bytes} (h : isValid s = true) (rest : Bytes) :
    stringBody ((quoted s ++ rest).length + 1) (quoted s ++ rest) = some (s, rest) := by
  have hlen := length_points_lt h
  refine stringBody_of_fuel h rest _ ?_
  rw [List.length_append]
  omega

/-! ### Numbers -/

/-- What comes after a value in a document: a comma or a new line. -/
def Ends (rest : Bytes) : Prop := ∃ b tail, rest = b :: tail ∧ (b = 0x2C ∨ b = 0x0A)

/-- A literal that is read as a number up to its end. -/
structure Numeral (literal : Bytes) : Prop where
  head : ∃ b tail, literal = b :: tail ∧ (b = 0x2D ∨ Bytes.isDigit b = true)
  read : ∀ {rest}, Ends rest → number? (literal ++ rest) = some (literal, rest)

lemma takeWhile_ofNat (n : Nat) {rest : Bytes} (h : Ends rest) :
    (Bytes.ofNat n ++ rest).takeWhile Bytes.isDigit = Bytes.ofNat n ∧
      (Bytes.ofNat n ++ rest).dropWhile Bytes.isDigit = rest := by
  have hall : ∀ b ∈ Bytes.ofNat n, Bytes.isDigit b = true :=
    fun b hb => Bytes.isDigit_of_mem_ofNat hb
  obtain ⟨b, tail, rfl, hb⟩ := h
  have hstop : Bytes.isDigit b = false := by
    rcases hb with rfl | rfl
    · rfl
    · rfl
  rw [List.takeWhile_append_of_pos hall, List.dropWhile_append_of_pos hall]
  simp [hstop]

lemma numeral_ofNat (n : Nat) : Numeral (Bytes.ofNat n) := by
  obtain ⟨b, tail, hb⟩ := List.exists_cons_of_ne_nil (Bytes.ofNat_ne_nil n)
  have hdigit : Bytes.isDigit b = true := Bytes.isDigit_of_mem_ofNat (n := n) (by simp [hb])
  refine ⟨⟨b, tail, hb, .inr hdigit⟩, fun {rest} h => ?_⟩
  have hminus : b ≠ 0x2D := by
    rintro rfl
    simp [Bytes.isDigit] at hdigit
  have hfraction : fraction? rest = some ([], rest) := by
    obtain ⟨c, tail, rfl, rfl | rfl⟩ := h
    · rfl
    · rfl
  have hexponent : exponent? rest = some ([], rest) := by
    obtain ⟨c, tail, rfl, rfl | rfl⟩ := h
    · rfl
    · rfl
  rcases Nat.eq_zero_or_pos n with rfl | hpos
  · have hzero : Bytes.ofNat 0 = [0x30] := rfl
    rw [hzero]
    show ((fraction? rest).bind fun x => (exponent? x.2).bind fun y =>
      some ([] ++ [0x30] ++ x.1 ++ y.1, y.2)) = _
    simp only [hfraction, hexponent, Option.bind_some, List.append_nil, List.nil_append]
  · have hzero : b ≠ 0x30 := by
      rintro rfl
      exact Bytes.head?_ofNat (Nat.ne_of_gt hpos) (by rw [hb]; rfl)
    obtain ⟨htake, hdrop⟩ := takeWhile_ofNat n h
    have hempty : (Bytes.ofNat n).isEmpty = false := by rw [hb]; rfl
    rw [number?, htake, hdrop, hempty]
    · simp only [Bool.false_eq_true, if_false, bind, Option.bind_some, hfraction, hexponent, pure,
        List.nil_append, List.append_nil]
    · intro rest' he
      rw [hb] at he
      exact hminus (List.cons.inj he).1
    · intro rest' he
      rw [hb] at he
      exact hzero (List.cons.inj he).1

/-! ### Values -/

mutual

/-- A value that can be read back from `depth` open brackets on. -/
def Readable (depth : Nat) : Json → Prop
  | .null => True
  | .bool _ => True
  | .number literal => Numeral literal
  | .string s => isValid s = true
  | .array items => depth < maxDepth ∧ ReadableItems (depth + 1) items
  | .object members => depth < maxDepth ∧ ReadableMembers (depth + 1) members

def ReadableItems (depth : Nat) : List Json → Prop
  | [] => True
  | item :: items => Readable depth item ∧ ReadableItems depth items

def ReadableMembers (depth : Nat) : List (Bytes × Json) → Prop
  | [] => True
  | (name, value) :: members =>
    isValid name = true ∧ Readable depth value ∧ ReadableMembers depth members

end

def isBlank (b : UInt8) : Bool := b = 0x20 || b = 0x09 || b = 0x0A || b = 0x0D

lemma skipBlanks_append {w : Bytes} (h : ∀ b ∈ w, isBlank b = true) (s : Bytes) :
    skipBlanks (w ++ s) = skipBlanks s :=
  List.dropWhile_append_of_pos h

lemma skipBlanks_cons {b : UInt8} (h : isBlank b = false) (s : Bytes) :
    skipBlanks (b :: s) = b :: s :=
  List.dropWhile_cons_of_neg (Bool.eq_false_iff.1 h)

lemma isBlank_of_mem_newline {d : Nat} {b : UInt8} (h : b ∈ newline d) : isBlank b = true := by
  rcases List.mem_cons.1 h with rfl | h
  · rfl
  · obtain ⟨-, rfl⟩ := List.mem_replicate.1 h
    rfl

lemma head_pretty {depth : Nat} {v : Json} (h : Readable depth v) (d : Nat) :
    ∃ b tail, pretty d v = b :: tail ∧ isBlank b = false ∧ b ≠ 0x5D := by
  cases v with
  | null => exact ⟨0x6E, "ull", rfl, rfl, by decide⟩
  | bool b =>
    cases b with
    | true => exact ⟨0x74, "rue", rfl, rfl, by decide⟩
    | false => exact ⟨0x66, "alse", rfl, rfl, by decide⟩
  | number literal =>
    have hnumeral : Numeral literal := by simpa [Readable] using h
    obtain ⟨b, tail, hb, hhead⟩ := hnumeral.head
    refine ⟨b, tail, by rw [pretty, hb], ?_⟩
    rcases hhead with rfl | hdigit
    · decide
    · constructor
      · by_contra hblank
        simp only [isBlank, Bool.not_eq_false, Bool.or_eq_true, decide_eq_true_eq] at hblank
        rcases hblank with ((rfl | rfl) | rfl) | rfl <;> simp [Bytes.isDigit] at hdigit
      · rintro rfl
        simp [Bytes.isDigit] at hdigit
  | string s => exact ⟨0x22, quoted s, by rw [pretty, quoteString_eq], rfl, by decide⟩
  | array items =>
    cases items with
    | nil => exact ⟨0x5B, "]", by rw [pretty]; rfl, rfl, by decide⟩
    | cons item items => exact ⟨0x5B, _, by rw [pretty]; rfl, rfl, by decide⟩
  | object members =>
    cases members with
    | nil => exact ⟨0x7B, "\x7d", by rw [pretty]; rfl, rfl, by decide⟩
    | cons member members => exact ⟨0x7B, _, by rw [pretty]; rfl, rfl, by decide⟩

lemma readValue_blanks {w : Bytes} (h : ∀ b ∈ w, isBlank b = true) (fuel depth : Nat)
    (s : Bytes) : readValue fuel depth (w ++ s) = readValue fuel depth s := by
  cases fuel with
  | zero => rw [readValue, readValue]
  | succ fuel => rw [readValue, readValue, skipBlanks_append h]

lemma readMember_blanks {w : Bytes} (h : ∀ b ∈ w, isBlank b = true) (fuel depth : Nat)
    (s : Bytes) : readMember fuel depth (w ++ s) = readMember fuel depth s := by
  cases fuel with
  | zero => rw [readMember, readMember]
  | succ fuel => rw [readMember, readMember, skipBlanks_append h]

lemma readMember_of_value {fuel depth : Nat} {name text rest : Bytes} {value : Json}
    (hname : isValid name = true) (h : readValue fuel depth (text ++ rest) = some (value, rest)) :
    readMember (fuel + 1) depth (quoteString name ++ (": " ++ (text ++ rest))) =
      some ((name, value), rest) := by
  have hcolon : (": " : Bytes) = [0x3A, 0x20] := by decide
  have hstring := stringBody_quoted hname (0x3A :: 0x20 :: (text ++ rest))
  have hblank : readValue fuel depth (0x20 :: (text ++ rest)) = some (value, rest) := by
    rw [← h]
    exact readValue_blanks (w := [0x20]) (by simp [isBlank]) fuel depth (text ++ rest)
  rw [quoteString_eq, hcolon, List.cons_append, readMember, skipBlanks_cons rfl]
  simp only [List.cons_append, List.nil_append, hstring, bind, Option.bind_some,
    skipBlanks_cons (show isBlank 0x3A = false from rfl), hblank, pure]

lemma readValue_number {literal rest : Bytes} (h : Numeral literal) (he : Ends rest)
    (fuel depth : Nat) :
    readValue (fuel + 1) depth (literal ++ rest) = some (.number literal, rest) := by
  obtain ⟨b, tail, hb, hhead⟩ := h.head
  have hother : ∀ c ∈ [0x6E, 0x74, 0x66, 0x22, 0x5B, 0x7B, 0x20, 0x09, 0x0A, 0x0D], b ≠ c := by
    intro c hc heq
    have hno : [0x6E, 0x74, 0x66, 0x22, 0x5B, 0x7B, 0x20, 0x09, 0x0A, 0x0D].all (fun c =>
        c != 0x2D && !Bytes.isDigit c) = true := by decide
    have hc := List.all_eq_true.1 hno c hc
    rw [← heq] at hc
    rcases hhead with rfl | hdigit
    · simp at hc
    · simp [hdigit] at hc
  have hblank : isBlank b = false := by
    simp [isBlank, hother]
  have hread := h.read he
  rw [hb, List.cons_append] at hread
  rw [hb, List.cons_append, readValue, skipBlanks_cons hblank]
  -- no other kind of value begins with a digit or a minus
  split
  case h_7 => simp only [hread, bind, Option.bind_some, pure]
  all_goals
    rename_i heq
    exact absurd (List.cons.inj heq).1 (hother _ (by simp))

lemma readValue_string {s : Bytes} (h : isValid s = true) (rest : Bytes) (fuel depth : Nat) :
    readValue (fuel + 1) depth (quoteString s ++ rest) = some (.string s, rest) := by
  have hread := stringBody_quoted h rest
  rw [quoteString_eq, List.cons_append, readValue, skipBlanks_cons rfl]
  simp only [hread, bind, Option.bind_some, pure]

lemma readValue_array {fuel depth : Nat} {b : UInt8} {s tail rest rest' : Bytes} {item : Json}
    {items : List Json} (hdepth : depth < maxDepth) (hs : skipBlanks s = b :: tail)
    (hb : b ≠ 0x5D) (hitem : readValue fuel (depth + 1) (b :: tail) = some (item, rest'))
    (hitems : readItems fuel (depth + 1) rest' = some (items, rest)) :
    readValue (fuel + 1) depth (0x5B :: s) = some (.array (item :: items), rest) := by
  rw [readValue, skipBlanks_cons rfl]
  simp only [if_neg (Nat.not_le.2 hdepth), hs]
  split
  · rename_i heq
    exact absurd (List.cons.inj heq).1 hb
  · simp only [hitem, hitems, bind, Option.bind_some, pure]

lemma readValue_object {fuel depth : Nat} {b : UInt8} {s tail rest rest' : Bytes}
    {member : Bytes × Json} {members : List (Bytes × Json)} (hdepth : depth < maxDepth)
    (hs : skipBlanks s = b :: tail) (hb : b ≠ 0x7D)
    (hmember : readMember fuel (depth + 1) (b :: tail) = some (member, rest'))
    (hmembers : readMembers fuel (depth + 1) rest' = some (members, rest)) :
    readValue (fuel + 1) depth (0x7B :: s) = some (.object (member :: members), rest) := by
  rw [readValue, skipBlanks_cons rfl]
  simp only [if_neg (Nat.not_le.2 hdepth), hs]
  split
  · rename_i heq
    exact absurd (List.cons.inj heq).1 hb
  · simp only [hmember, hmembers, bind, Option.bind_some, pure]

lemma ends_items (d : Nat) (items : List Json) (rest : Bytes) :
    Ends (prettyItems d items ++ (newline d ++ rest)) := by
  cases items with
  | nil => exact ⟨0x0A, _, by rw [prettyItems]; rfl, .inr rfl⟩
  | cons item items => exact ⟨0x2C, _, by rw [prettyItems]; rfl, .inl rfl⟩

lemma ends_members (d : Nat) (members : List (Bytes × Json)) (rest : Bytes) :
    Ends (prettyMembers d members ++ (newline d ++ rest)) := by
  cases members with
  | nil => exact ⟨0x0A, _, by rw [prettyMembers]; rfl, .inr rfl⟩
  | cons member members => exact ⟨0x2C, _, by rw [prettyMembers]; rfl, .inl rfl⟩

mutual

/-- **A value** spread over lines is read back. -/
theorem readValue_pretty (v : Json) {fuel depth d : Nat} {rest : Bytes} (h : Readable depth v)
    (hfuel : (pretty d v).length ≤ fuel) (he : Ends rest) :
    readValue fuel depth (pretty d v ++ rest) = some (v, rest) := by
  obtain ⟨first, tail, hfirst, hblank, -⟩ := head_pretty h d
  -- a value takes at least a byte, so there is a step left for it
  obtain ⟨n, rfl⟩ : ∃ n, fuel = n + 1 := by
    rw [hfirst, List.length_cons] at hfuel
    exact ⟨fuel - 1, by omega⟩
  match v with
  | .null => rw [pretty, readValue]; rfl
  | .bool true => rw [pretty, readValue]; rfl
  | .bool false => rw [pretty, readValue]; rfl
  | .number literal =>
    rw [pretty]
    exact readValue_number (by simpa [Readable] using h) he n depth
  | .string s =>
    rw [pretty]
    exact readValue_string (by simpa [Readable] using h) rest n depth
  | .array [] =>
    have hdepth : depth < maxDepth := by
      rw [Readable] at h
      exact h.1
    rw [pretty, readValue]
    show (if maxDepth ≤ depth then _ else _) = _
    rw [if_neg (Nat.not_le.2 hdepth)]
    rfl
  | .array (item :: items) =>
    rw [Readable, ReadableItems] at h
    obtain ⟨hdepth, hitem, hitems⟩ := h
    obtain ⟨b, tail, hb, hopen, hclose⟩ := head_pretty hitem (d + 1)
    have hopening : ("[" : Bytes) = [0x5B] := by decide
    rw [pretty, hopening] at hfuel ⊢
    simp only [List.length_append, List.length_singleton] at hfuel
    simp only [List.append_assoc, List.cons_append, List.nil_append]
    have hone : readValue n (depth + 1) (pretty (d + 1) item ++
        (prettyItems d items ++ (newline d ++ (("]" : Bytes) ++ rest)))) = some (item, _) :=
      readValue_pretty item hitem (by omega) (ends_items d items _)
    have hmore : readItems n (depth + 1)
        (prettyItems d items ++ (newline d ++ (("]" : Bytes) ++ rest))) = some (items, rest) := by
      have hnewline : 0 < (newline d).length := by simp [newline]
      exact readItems_pretty items hitems (by omega)
    rw [hb, List.cons_append] at hone ⊢
    refine readValue_array hdepth ?_ hclose hone hmore
    rw [skipBlanks_append fun _ => isBlank_of_mem_newline, skipBlanks_cons hopen]
  | .object [] =>
    have hdepth : depth < maxDepth := by
      rw [Readable] at h
      exact h.1
    rw [pretty, readValue]
    show (if maxDepth ≤ depth then _ else _) = _
    rw [if_neg (Nat.not_le.2 hdepth)]
    rfl
  | .object ((name, value) :: members) =>
    rw [Readable, ReadableMembers] at h
    obtain ⟨hdepth, hname, hvalue, hmembers⟩ := h
    have hopening : ("\x7b" : Bytes) = [0x7B] := by decide
    have hlength : 2 ≤ (quoteString name).length := by simp [quoteString]
    rw [pretty, hopening] at hfuel ⊢
    simp only [List.length_append, List.length_singleton] at hfuel
    simp only [List.append_assoc, List.cons_append, List.nil_append]
    obtain ⟨k, rfl⟩ : ∃ k, n = k + 1 := ⟨n - 1, by omega⟩
    have hone : readMember (k + 1) (depth + 1) (quoteString name ++ ((": " : Bytes) ++
        (pretty (d + 1) value ++ (prettyMembers d members ++ (newline d ++ (("\x7d" : Bytes) ++
          rest)))))) = some ((name, value), _) :=
      readMember_of_value hname
        (readValue_pretty value hvalue (by omega) (ends_members d members _))
    have hmore : readMembers (k + 1) (depth + 1)
        (prettyMembers d members ++ (newline d ++ (("\x7d" : Bytes) ++ rest))) =
          some (members, rest) := by
      have hnewline : 0 < (newline d).length := by simp [newline]
      exact readMembers_pretty members hmembers (by omega)
    rw [quoteString_eq, List.cons_append] at hone ⊢
    refine readValue_object hdepth ?_ (by decide) hone hmore
    rw [skipBlanks_append fun _ => isBlank_of_mem_newline, skipBlanks_cons rfl]

/-- **The further items** of an array, up to the closing bracket. -/
theorem readItems_pretty (items : List Json) {fuel depth d : Nat} {rest : Bytes}
    (h : ReadableItems depth items) (hfuel : (prettyItems d items).length < fuel) :
    readItems fuel depth (prettyItems d items ++ (newline d ++ (("]" : Bytes) ++ rest))) =
      some (items, rest) := by
  obtain ⟨n, rfl⟩ : ∃ n, fuel = n + 1 := ⟨fuel - 1, by omega⟩
  match items with
  | [] =>
    have hclosing : ("]" : Bytes) = [0x5D] := by decide
    rw [prettyItems, List.nil_append, readItems, skipBlanks_append fun _ => isBlank_of_mem_newline,
      hclosing]
    rfl
  | item :: items =>
    rw [ReadableItems] at h
    have hcomma : ("," : Bytes) = [0x2C] := by decide
    rw [prettyItems, hcomma] at hfuel ⊢
    simp only [List.length_append, List.length_singleton] at hfuel
    simp only [List.append_assoc, List.cons_append, List.nil_append]
    have hone : readValue n depth (newline (d + 1) ++ (pretty (d + 1) item ++
        (prettyItems d items ++ (newline d ++ (("]" : Bytes) ++ rest))))) = some (item, _) :=
      (readValue_blanks (fun _ => isBlank_of_mem_newline) n depth _).trans
        (readValue_pretty item h.1 (by omega) (ends_items d items _))
    have hmore : readItems n depth
        (prettyItems d items ++ (newline d ++ (("]" : Bytes) ++ rest))) = some (items, rest) :=
      readItems_pretty items h.2 (by omega)
    rw [readItems, skipBlanks_cons rfl]
    simp only [hone, hmore, bind, Option.bind_some, pure]

/-- **The further members** of an object, up to the closing brace. -/
theorem readMembers_pretty (members : List (Bytes × Json)) {fuel depth d : Nat} {rest : Bytes}
    (h : ReadableMembers depth members) (hfuel : (prettyMembers d members).length < fuel) :
    readMembers fuel depth (prettyMembers d members ++ (newline d ++ (("\x7d" : Bytes) ++ rest))) =
      some (members, rest) := by
  obtain ⟨n, rfl⟩ : ∃ n, fuel = n + 1 := ⟨fuel - 1, by omega⟩
  match members with
  | [] =>
    have hclosing : ("\x7d" : Bytes) = [0x7D] := by decide
    rw [prettyMembers, List.nil_append, readMembers,
      skipBlanks_append fun _ => isBlank_of_mem_newline, hclosing]
    rfl
  | (name, value) :: members =>
    rw [ReadableMembers] at h
    obtain ⟨hname, hvalue, hmembers⟩ := h
    have hcomma : ("," : Bytes) = [0x2C] := by decide
    have hlength : 2 ≤ (quoteString name).length := by simp [quoteString]
    rw [prettyMembers, hcomma] at hfuel ⊢
    simp only [List.length_append, List.length_singleton] at hfuel
    simp only [List.append_assoc, List.cons_append, List.nil_append]
    obtain ⟨k, rfl⟩ : ∃ k, n = k + 1 := ⟨n - 1, by omega⟩
    have hone : readMember (k + 1) depth (newline (d + 1) ++ (quoteString name ++
        ((": " : Bytes) ++ (pretty (d + 1) value ++ (prettyMembers d members ++ (newline d ++
          (("\x7d" : Bytes) ++ rest))))))) = some ((name, value), _) :=
      (readMember_blanks (fun _ => isBlank_of_mem_newline) (k + 1) depth _).trans
        (readMember_of_value hname
          (readValue_pretty value hvalue (by omega) (ends_members d members _)))
    have hmore : readMembers (k + 1) depth
        (prettyMembers d members ++ (newline d ++ (("\x7d" : Bytes) ++ rest))) =
          some (members, rest) :=
      readMembers_pretty members hmembers (by omega)
    rw [readMembers, skipBlanks_cons rfl]
    simp only [hone, hmore, bind, Option.bind_some, pure]

end

/-- **A document** is read back, whatever follows it. -/
theorem read?_document {v : Json} (h : Readable 0 v) (rest : Bytes) :
    read? (v.document ++ rest) = some (v, 0x0A :: rest) := by
  have hends : Ends (0x0A :: rest) := ⟨0x0A, rest, rfl, .inr rfl⟩
  rw [read?, document, List.append_assoc, List.singleton_append]
  refine readValue_pretty v h ?_ hends
  rw [List.length_append]
  omega

end Json

end StateBuffer
