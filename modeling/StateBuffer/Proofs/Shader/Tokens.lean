import StateBuffer.Proofs.Text.Encoding
import StateBuffer.Shader.Token

/-!
Tokens that are written out and scanned again. A text made of words, integers and single symbols in
which every token ends where the next one begins, with blanks between some of them, scans as these
tokens.
-/

namespace StateBuffer

namespace Wgsl

abbrev Chunk := List Token

namespace Token

/-- Symbols that begin no other symbol. -/
def brackets : List Bytes :=
  (["(", ")", "\x7b", "\x7d", ",", ".", ";", ":", "@"] : List String).map Bytes.ofString

/-- Symbols that begin others. -/
def openers : List Bytes := (["<", ">", "=", "-"] : List String).map Bytes.ofString

def isWordByte (b : UInt8) : Bool := b < 0x80 && continuesWord b.toNat

/-- Is this an ASCII word, an integer in decimal without a suffix or one of the symbols? -/
def isPlain : Token → Bool
  | .word w => w.all isWordByte && (w.head?.map fun b => startsWord b.toNat).getD false
  | .integer digits => !digits.isEmpty && digits.all Bytes.isDigit
  | .symbol s => brackets.contains s || openers.contains s
  | _ => false

/-- Does a token end before this byte, or at the end of the text? -/
def endsBefore (next : Option UInt8) : Token → Bool
  | .word _ => next.all fun b => b < 0x80 && !continuesWord b.toNat
  | .integer _ => next.all fun b => b = 0x20 || b = 0x29 || b = 0x2C
  | .symbol s =>
    brackets.contains s || next.all fun b => b = 0x20 || Bytes.isLetter b || Bytes.isDigit b
  | _ => false

/-! ### Words -/

lemma wordSize_cons {b : UInt8} (hb : b < 0x80) (rest : Bytes) :
    wordSize (b :: rest) = if continuesWord b.toNat then 1 + wordSize rest else 0 := by
  rw [wordSize, Utf8.next_ascii hb]
  rfl

lemma wordSize_append {w rest : Bytes} (hw : w.all isWordByte = true)
    (hend : rest.head?.all (fun b => b < 0x80 && !continuesWord b.toNat) = true) :
    wordSize (w ++ rest) = w.length := by
  induction w with
  | nil =>
    cases rest with
    | nil => rw [List.append_nil, wordSize]; rfl
    | cons b rest =>
      obtain ⟨hb, hc⟩ : b < 0x80 ∧ continuesWord b.toNat = false := by simpa using hend
      rw [List.nil_append, wordSize_cons hb, hc]
      rfl
  | cons b w ih =>
    rw [List.all_cons, Bool.and_eq_true] at hw
    obtain ⟨hb, hc⟩ : b < 0x80 ∧ continuesWord b.toNat = true := by simpa [isWordByte] using hw.1
    rw [List.cons_append, wordSize_cons hb, if_pos hc, ih hw.2, List.length_cons, Nat.add_comm]

lemma lead_word {w rest : Bytes} (hw : (word w).isPlain = true)
    (hend : (word w).endsBefore rest.head? = true) : lead (w ++ rest) = .word w := by
  obtain ⟨hall, hstart⟩ : w.all isWordByte = true ∧
      (w.head?.map fun b => startsWord b.toNat).getD false = true := by
    simpa only [isPlain, Bool.and_eq_true] using hw
  cases w with
  | nil => simp at hstart
  | cons b w =>
    have hb : b < 0x80 := by
      have hbyte := List.all_eq_true.1 hall b List.mem_cons_self
      simp only [isWordByte, Bool.and_eq_true, decide_eq_true_eq] at hbyte
      exact hbyte.1
    have hs : startsWord b.toNat = true := by simpa using hstart
    have hnext : Utf8.next (b :: w ++ rest) = (b.toNat, 1) := Utf8.next_ascii hb (w ++ rest)
    rw [lead, hnext, if_pos hs, wordSize_append hall hend, List.take_left]

/-! ### Integers -/

lemma digit_bounds {b : UInt8} (h : Bytes.isDigit b = true) : 0x30 ≤ b.toNat ∧ b.toNat ≤ 0x39 := by
  simpa [Bytes.isDigit, UInt8.le_iff_toNat_le] using h

lemma isWordByte_of_isDigit {b : UInt8} (h : Bytes.isDigit b = true) :
    isWordByte b = true := by
  obtain ⟨h1, h2⟩ := digit_bounds h
  have hdigit : CodePoint.isAsciiDigit b.toNat = true := by
    simp only [CodePoint.isAsciiDigit, Bool.and_eq_true, decide_eq_true_eq]
    omega
  have hascii : b < 0x80 := by
    rw [UInt8.lt_iff_toNat_lt]
    show b.toNat < 0x80
    omega
  simp only [isWordByte, continuesWord, hascii, decide_true, hdigit, Bool.or_true,
    Bool.and_true]

lemma startsWord_digit {b : UInt8} (h : Bytes.isDigit b = true) : startsWord b.toNat = false := by
  obtain ⟨h1, h2⟩ := digit_bounds h
  have hletter : CodePoint.isLetter b.toNat = false := by
    rw [CodePoint.isLetter, if_pos (by omega)]
    simp only [CodePoint.isAsciiLetter, Bool.or_eq_false_iff, Bool.and_eq_false_iff,
      decide_eq_false_iff_not]
    omega
  simp only [startsWord, hletter, Bool.or_false, decide_eq_false_iff_not]
  omega

lemma oneOf_of_head {choices s : Bytes} (h : ∀ b ∈ s.head?, choices.contains b = false) :
    oneOf choices s = [] := by
  cases s with
  | nil => rfl
  | cons b s => simpa [oneOf] using h b (by simp)

lemma digits_append {ds rest : Bytes} (hds : ds.all Bytes.isDigit = true)
    (hrest : ∀ b ∈ rest.head?, Bytes.isDigit b = false) : digits (ds ++ rest) = ds := by
  rw [digits, List.takeWhile_append_of_pos (List.all_eq_true.1 hds)]
  cases rest with
  | nil => simp
  | cons b rest => simp [hrest b (by simp)]

lemma after_integer {b : UInt8} (h : b = 0x20 ∨ b = 0x29 ∨ b = 0x2C) :
    Bytes.isDigit b = false ∧ (Bytes.ofString ".").contains b = false ∧
      (Bytes.ofString "eE").contains b = false ∧ (Bytes.ofString "iu").contains b = false ∧
      b ≠ 0x78 ∧ b ≠ 0x58 := by
  rcases h with rfl | rfl | rfl <;> decide +kernel

lemma number_append {ds rest : Bytes} (hne : ds ≠ []) (hall : ds.all Bytes.isDigit = true)
    (hrest : ∀ b ∈ rest.head?, b = 0x20 ∨ b = 0x29 ∨ b = 0x2C) :
    number (ds ++ rest) = .integer ds := by
  obtain ⟨d, ds', rfl⟩ := List.exists_cons_of_ne_nil hne
  have hsecond : ∀ b ∈ (ds' ++ rest).head?, b ≠ 0x78 ∧ b ≠ 0x58 := by
    intro b hb
    cases ds' with
    | nil => exact (after_integer (hrest b hb)).2.2.2.2
    | cons d' ds' =>
      obtain rfl : d' = b := by simpa using hb
      have hdigit : Bytes.isDigit d' = true := List.all_eq_true.1 hall d' (by simp)
      constructor <;> (rintro rfl; exact absurd hdigit (by decide))
  have hhex : ∀ x : UInt8, (∀ b ∈ (ds' ++ rest).head?, b ≠ x) →
      Bytes.startsWith (d :: ds' ++ rest) [0x30, x] = false := by
    intro x hx
    rw [Bytes.startsWith, List.cons_append, ← Bool.not_eq_true, List.isPrefixOf_iff_prefix,
      List.cons_prefix_cons]
    rintro ⟨-, s, hs⟩
    exact hx x (by rw [← hs]; rfl) rfl
  have hx : Bytes.startsWith (d :: ds' ++ rest) "0x" = false :=
    hhex 0x78 fun b hb => (hsecond b hb).1
  have hX : Bytes.startsWith (d :: ds' ++ rest) "0X" = false :=
    hhex 0x58 fun b hb => (hsecond b hb).2
  have hpoint : point rest = [] := by
    rw [point]
    split_ifs
    · exact oneOf_of_head fun b hb => (after_integer (hrest b hb)).2.1
    · rfl
  have hexponent : exponent rest = [] := by
    rw [exponent, oneOf_of_head fun b hb => (after_integer (hrest b hb)).2.2.1]
  have hsuffix : oneOf "iu" rest = [] :=
    oneOf_of_head fun b hb => (after_integer (hrest b hb)).2.2.2.1
  have hwhole := digits_append hall fun b hb => (after_integer (hrest b hb)).1
  rw [number, hx, hX, decimal]
  simp only [hwhole, List.drop_left, hpoint, hexponent, hsuffix, List.append_nil]
  rfl

lemma lead_integer {ds rest : Bytes} (hds : (integer ds).isPlain = true)
    (hend : (integer ds).endsBefore rest.head? = true) : lead (ds ++ rest) = .integer ds := by
  obtain ⟨hne, hall⟩ : ds.isEmpty = false ∧ ds.all Bytes.isDigit = true := by
    simpa only [isPlain, Bool.and_eq_true, Bool.not_eq_true'] using hds
  have hrest : ∀ b ∈ rest.head?, b = 0x20 ∨ b = 0x29 ∨ b = 0x2C := by
    intro b hb
    rw [Option.mem_def.1 hb] at hend
    simpa [endsBefore, or_assoc] using hend
  have hne : ds ≠ [] := by simpa using hne
  obtain ⟨d, ds', rfl⟩ := List.exists_cons_of_ne_nil hne
  have hdigit : Bytes.isDigit d = true := List.all_eq_true.1 hall d List.mem_cons_self
  have hascii : d < 0x80 := by
    have := digit_bounds hdigit
    rw [UInt8.lt_iff_toNat_lt]
    show d.toNat < 0x80
    omega
  have hnext : Utf8.next (d :: ds' ++ rest) = (d.toNat, 1) := Utf8.next_ascii hascii (ds' ++ rest)
  rw [lead, hnext, if_neg (by simp [startsWord_digit hdigit])]
  rw [if_pos (show ((d :: ds' ++ rest).head?.map Bytes.isDigit).getD false = true from hdigit)]
  exact number_append hne hall hrest

/-! ### Symbols -/

lemma find?_symbols {c : UInt8} {rest : Bytes} (hmem : [c] ∈ symbols)
    (honly : ∀ s ∈ symbols, Bytes.startsWith (c :: rest) s = true → s = [c]) :
    symbols.find? (Bytes.startsWith (c :: rest)) = some [c] := by
  cases hfind : symbols.find? (Bytes.startsWith (c :: rest)) with
  | none =>
    have := List.find?_eq_none.1 hfind [c] hmem
    simp [Bytes.startsWith] at this
  | some s =>
    rw [honly s (List.mem_of_find?_eq_some hfind) (List.find?_some hfind)]

lemma symbol_spec : ∀ s ∈ brackets ++ openers, s ∈ symbols ∧ s.length = 1 ∧
    s.all (fun c => c < 0x80 && !startsWord c.toNat && !Bytes.isDigit c && !isBlank c && c ≠ 0x2F)
      = true := by
  decide +kernel

lemma brackets_only : ∀ s ∈ brackets, ∀ s' ∈ symbols, s'.head? = s.head? → s' = s := by
  decide +kernel

lemma openers_only : ∀ s ∈ openers, ∀ s' ∈ symbols, s'.head? = s.head? →
    s' = s ∨ ∃ b ∈ s'[1]?, b ≠ 0x20 ∧ Bytes.isLetter b = false ∧ Bytes.isDigit b = false := by
  decide +kernel

lemma head?_symbols : ∀ s ∈ symbols, s ≠ [] := by decide +kernel

lemma lead_symbol {s rest : Bytes} (hs : (symbol s).isPlain = true)
    (hend : (symbol s).endsBefore rest.head? = true) : lead (s ++ rest) = .symbol s := by
  have hmem : s ∈ brackets ∨ s ∈ openers := by simpa [isPlain] using hs
  obtain ⟨hsym, hlen, hall⟩ := symbol_spec s (List.mem_append.2 hmem)
  obtain ⟨c, rfl⟩ := List.length_eq_one_iff.1 hlen
  obtain ⟨⟨⟨⟨hascii, hword⟩, hdigit⟩, -⟩, -⟩ : (((c < 0x80 ∧ startsWord c.toNat = false) ∧
      Bytes.isDigit c = false) ∧ isBlank c = false) ∧ c ≠ 0x2F := by simpa using hall
  have hfind : symbols.find? (Bytes.startsWith (c :: rest)) = some [c] := by
    refine find?_symbols hsym fun s' hs' hstart => ?_
    obtain ⟨b, s'', rfl⟩ := List.exists_cons_of_ne_nil (head?_symbols s' hs')
    obtain ⟨rfl, hrest⟩ := List.cons_prefix_cons.1 (List.isPrefixOf_iff_prefix.1 hstart)
    rcases hmem with hmem | hmem
    · exact brackets_only [b] hmem _ hs' rfl
    · rcases openers_only [b] hmem _ hs' rfl with heq | ⟨b', hb', hblank, hletter, hdigit'⟩
      · exact heq
      · -- a longer symbol does not go on with what follows
        obtain ⟨t, rfl⟩ := hrest
        have hhead : (s'' ++ t).head? = some b' := by
          cases s'' with
          | nil => simp at hb'
          | cons b'' s'' => simpa using hb'
        have hnot : brackets.contains [b] = false := by
          have hdisjoint : ∀ s ∈ openers, brackets.contains s = false := by decide +kernel
          exact hdisjoint [b] hmem
        rw [hhead, endsBefore, hnot] at hend
        simp [hblank, hletter, hdigit'] at hend
  have hnext : Utf8.next ([c] ++ rest) = (c.toNat, 1) := Utf8.next_ascii hascii rest
  rw [lead, hnext, if_neg (by simp [hword])]
  rw [if_neg (show ¬ (([c] ++ rest).head?.map Bytes.isDigit).getD false = true by simp [hdigit]),
    show symbols.find? (Bytes.startsWith ([c] ++ rest)) = _ from hfind]

/-! ### Scanning -/

lemma lead_plain {t : Token} {rest : Bytes} (ht : t.isPlain = true)
    (hend : t.endsBefore rest.head? = true) : lead (t.text ++ rest) = t := by
  cases t with
  | word w => exact lead_word ht hend
  | integer ds => exact lead_integer ht hend
  | symbol s => exact lead_symbol ht hend
  | float => simp [isPlain] at ht
  | stray => simp [isPlain] at ht

lemma head_plain {t : Token} (ht : t.isPlain = true) :
    ∃ b rest, t.text = b :: rest ∧ isBlank b = false ∧ b ≠ 0x2F := by
  have hother : ∀ b : UInt8, startsWord b.toNat = true ∨ Bytes.isDigit b = true →
      isBlank b = false ∧ b ≠ 0x2F := by
    intro b hb
    have hnot : ∀ c ∈ ([0x20, 0x09, 0x0A, 0x0D, 0x2F] : Bytes),
        ¬ (startsWord c.toNat = true ∨ Bytes.isDigit c = true) := by decide +kernel
    have hmem : b ∉ ([0x20, 0x09, 0x0A, 0x0D, 0x2F] : Bytes) := fun hmem => hnot b hmem hb
    simp only [List.mem_cons, List.not_mem_nil, or_false, not_or] at hmem
    simp [isBlank, hmem]
  cases t with
  | word w =>
    cases w with
    | nil => simp [isPlain] at ht
    | cons b w =>
      have hs : startsWord b.toNat = true := by simpa [isPlain] using (Bool.and_eq_true_iff.1 ht).2
      exact ⟨b, w, rfl, hother b (.inl hs)⟩
  | integer ds =>
    cases ds with
    | nil => simp [isPlain] at ht
    | cons b ds =>
      simp only [isPlain, Bool.and_eq_true, List.all_cons] at ht
      exact ⟨b, ds, rfl, hother b (.inr ht.2.1)⟩
  | symbol s =>
    have hmem : s ∈ brackets ∨ s ∈ openers := by simpa [isPlain] using ht
    obtain ⟨-, hlen, hall⟩ := symbol_spec s (List.mem_append.2 hmem)
    obtain ⟨c, rfl⟩ := List.length_eq_one_iff.1 hlen
    obtain ⟨⟨-, hblank⟩, hslash⟩ : ((((c < 0x80 ∧ startsWord c.toNat = false) ∧
        Bytes.isDigit c = false) ∧ isBlank c = false) ∧ c ≠ 0x2F) := by simpa using hall
    exact ⟨c, [], rfl, hblank, hslash⟩
  | float => simp [isPlain] at ht
  | stray => simp [isPlain] at ht

lemma scan_plain {t : Token} {rest : Bytes} (ht : t.isPlain = true)
    (hend : t.endsBefore rest.head? = true) : scan (t.text ++ rest) = t :: scan rest := by
  obtain ⟨b, r, htext, hblank, hslash⟩ := head_plain ht
  have hlead := lead_plain ht hend
  have hcomment : ∀ c : UInt8, Bytes.startsWith (t.text ++ rest) [0x2F, c] = false := by
    intro c
    rw [htext, Bytes.startsWith, List.cons_append, ← Bool.not_eq_true, List.isPrefixOf_iff_prefix,
      List.cons_prefix_cons]
    rintro ⟨hb, -⟩
    exact hslash hb.symm
  have hfirst : first (t.text ++ rest) = (some t, t.text.length) := by
    rw [first, if_neg (by rw [htext]; simp [hblank]),
      show Bytes.startsWith (t.text ++ rest) "//" = false from hcomment 0x2F,
      show Bytes.startsWith (t.text ++ rest) "/*" = false from hcomment 0x2A, hlead]
    rfl
  rw [htext, List.cons_append] at hfirst ⊢
  rw [scan, hfirst]
  simp

lemma scan_blank (rest : Bytes) : scan (0x20 :: rest) = scan rest := by
  rw [scan]
  rfl

def chunkText (c : Chunk) : Bytes := c.flatMap text

@[simp] lemma chunkText_nil : chunkText [] = [] := rfl

@[simp] lemma chunkText_cons (t : Token) (c : Chunk) :
    chunkText (t :: c) = t.text ++ chunkText c := rfl

lemma chunkText_append (c c' : Chunk) : chunkText (c ++ c') = chunkText c ++ chunkText c' :=
  List.flatMap_append

/-- Every token is plain and ends where the next begins. -/
def fits : Chunk → Bool
  | [] => true
  | t :: c => t.isPlain && t.endsBefore (chunkText c).head? && fits c

lemma fits_cons {t : Token} {c : Chunk} (ht : t.isPlain = true)
    (hend : t.endsBefore (chunkText c).head? = true) (hc : fits c = true) :
    fits (t :: c) = true := by
  rw [fits, ht, hend, hc]
  rfl

lemma endsBefore_blank {t : Token} (ht : t.isPlain = true) :
    t.endsBefore (some 0x20) = true := by
  cases t with
  | word => exact (by decide : (word []).endsBefore (some 0x20) = true)
  | integer => rfl
  | symbol => simp [endsBefore]
  | float => simp [isPlain] at ht
  | stray => simp [isPlain] at ht

/-- **Tokens without blanks** are scanned up to the next blank. -/
lemma scan_chunk {c : Chunk} (hc : fits c = true) {rest : Bytes}
    (hrest : rest.head? = none ∨ rest.head? = some 0x20) :
    scan (chunkText c ++ rest) = c ++ scan rest := by
  induction c with
  | nil => rfl
  | cons t c ih =>
    obtain ⟨⟨ht, hend⟩, hc⟩ : (t.isPlain = true ∧ t.endsBefore (chunkText c).head? = true) ∧
        fits c = true := by simpa only [fits, Bool.and_eq_true] using hc
    have hend' : t.endsBefore (chunkText c ++ rest).head? = true := by
      cases htext : chunkText c with
      | nil =>
        rw [htext] at hend
        rcases hrest with h | h
        · rw [List.nil_append, h]
          exact hend
        · rw [List.nil_append, h]
          exact endsBefore_blank ht
      | cons b r => rwa [htext] at hend
    rw [chunkText_cons, List.append_assoc, scan_plain ht hend', ih hc]
    rfl

/-- **Chunks with blanks behind them** are scanned one after the other. -/
theorem scan_chunks {cs : List Chunk} (h : ∀ c ∈ cs, fits c = true) (rest : Bytes) :
    scan (cs.flatMap (fun c => chunkText c ++ [0x20]) ++ rest) = cs.flatten ++ scan rest := by
  induction cs with
  | nil => rfl
  | cons c cs ih =>
    rw [List.flatMap_cons, List.append_assoc, List.append_assoc,
      scan_chunk (h c List.mem_cons_self) (.inr rfl), List.singleton_append, scan_blank,
      ih fun c' hc' => h c' (List.mem_cons_of_mem _ hc'), List.flatten_cons, List.append_assoc]

end Token

end Wgsl

end StateBuffer
