import Mathlib
import StateBuffer.Diagnostic.Render
import StateBuffer.Proofs.ParsedTree
import StateBuffer.Proofs.Text.Numerals
import StateBuffer.Proofs.Text.Split

/-!
Lines and columns. The lines of a file are the parts of its text between newlines, and the place of
an offset counts the newlines before it and the characters between the last of them and the offset.
So the place leads back to the offset, later characters have later places, and the caret under a
line stands below the character that it means.
-/

namespace StateBuffer

/-! ### Characters -/

namespace Utf8

lemma count_append {s : Bytes} (h : isValid s = true) (t : Bytes) :
    count (s ++ t) = count s + count t := by
  refine isValid_induction h ?nil fun p s hp ih => ?cons
  case nil => simp [count, points]
  case cons =>
    simp only [count] at ih ⊢
    rw [List.append_assoc, points_encode hp, points_encode hp, List.length_cons, List.length_cons,
      ih]
    omega

lemma count_le_length (s : Bytes) : count s ≤ s.length := by
  rw [count]
  fun_induction points s with
  | case1 => exact Nat.le_refl _
  | case2 => simp_all; omega

lemma count_pos {s : Bytes} (h : s ≠ []) : 0 < count s := by
  obtain ⟨b, rest, rfl⟩ := List.exists_cons_of_ne_nil h
  rw [count, points]
  exact Nat.succ_pos _

lemma count_ascii {s : Bytes} (h : ∀ b ∈ s, b < 0x80) (t : Bytes) :
    count (s ++ t) = s.length + count t := by
  induction s with
  | nil => simp
  | cons b s ih =>
    have hstep := ih fun c hc => h c (List.mem_cons_of_mem b hc)
    rw [count] at hstep ⊢
    rw [List.cons_append, points, next_ascii (h b List.mem_cons_self)]
    simp only [Nat.sub_self, List.drop_zero, List.length_cons]
    rw [hstep]
    omega

lemma encode_of_mem {p : Nat} (hp : IsScalar p) {b : UInt8} (hb : b < 0x80) (h : b ∈ encode p) :
    encode p = [b] := by
  have hp : p < 0x110000 := by unfold IsScalar at hp; omega
  have hlow : ∀ n, 0x80 ≤ n → n < 256 → b ≠ n.toUInt8 := by
    rintro n hn hn' rfl
    rw [UInt8.lt_iff_toNat_lt, toNat_toUInt8 hn'] at hb
    exact absurd hb (Nat.not_lt.2 hn)
  unfold encode at h ⊢
  split_ifs at h ⊢ with h1 h2 h3
  · rw [List.mem_singleton.1 h]
  all_goals
    refine absurd h ?_
    simp only [List.mem_cons, List.not_mem_nil, or_false, not_or]
  · exact ⟨hlow _ (by omega) (by omega), hlow _ (by omega) (by omega)⟩
  · exact ⟨hlow _ (by omega) (by omega), hlow _ (by omega) (by omega),
      hlow _ (by omega) (by omega)⟩
  · exact ⟨hlow _ (by omega) (by omega), hlow _ (by omega) (by omega),
      hlow _ (by omega) (by omega), hlow _ (by omega) (by omega)⟩

lemma isValid_encode {p : Nat} (hp : IsScalar p) (s : Bytes) :
    isValid (encode p ++ s) = isValid s := by
  obtain ⟨b, tail, hb⟩ := List.exists_cons_of_ne_nil (encode_ne_nil p)
  have hnext := next_encode hp s
  rw [hb, List.cons_append] at hnext ⊢
  rw [isValid]
  rw [next] at hnext
  split at hnext
  · rename_i count point hseq
    obtain ⟨-, hcount⟩ := Prod.mk.inj hnext
    obtain rfl : count = tail.length := Nat.succ.inj hcount
    simp only [List.drop_left]
  · -- the replacement character itself is three bytes long
    obtain ⟨rfl, hlength⟩ := Prod.mk.inj hnext
    rw [← hb] at hlength
    exact absurd hlength (by decide)

lemma isValid_of_mem_split {sep : UInt8} (hsep : sep < 0x80) {s : Bytes} (h : isValid s = true) :
    ∀ part ∈ Bytes.split sep s, isValid part = true := by
  refine isValid_induction h ?nil fun p s hp ih => ?cons
  case nil =>
    intro part hpart
    obtain rfl := List.mem_singleton.1 hpart
    rw [isValid]
  case cons =>
    intro part hpart
    by_cases hmem : sep ∈ encode p
    · rw [encode_of_mem hp hsep hmem, List.singleton_append, Bytes.split_cons_self] at hpart
      rcases List.mem_cons.1 hpart with rfl | hpart
      · rw [isValid]
      · exact ih part hpart
    · obtain ⟨first, rest, hrest⟩ := Bytes.split_eq_cons sep s
      have hsplit : Bytes.split sep (encode p ++ s) = [] ++ (encode p ++ first) :: rest :=
        Bytes.split_append (Bytes.split_of_notMem hmem) hrest
      rw [hsplit, List.nil_append] at hpart
      rw [hrest] at ih
      rcases List.mem_cons.1 hpart with rfl | hpart
      · rw [isValid_encode hp]
        exact ih first List.mem_cons_self
      · exact ih part (List.mem_cons_of_mem _ hpart)

/-- The text is well-formed, and the offset does not cut a character of it. -/
structure IsBoundary (s : Bytes) (offset : Nat) : Prop where
  le : offset ≤ s.length
  front : isValid (s.take offset) = true
  back : isValid (s.drop offset) = true

end Utf8

/-! ### Newlines -/

namespace SourceFile

lemma toNat_toUInt32 {n : Nat} (h : n < 2 ^ 32) : n.toUInt32.toNat = n := by
  rw [show n.toUInt32.toNat = n % 2 ^ 32 from rfl, Nat.mod_eq_of_lt h]

lemma toUInt32_toNat (n : UInt32) : n.toNat.toUInt32 = n := UInt32.ofNat_toNat

lemma newlinesFrom_append (offset : Nat) (s t : Bytes) :
    newlinesFrom offset (s ++ t) = newlinesFrom offset s ++ newlinesFrom (offset + s.length) t := by
  induction s generalizing offset with
  | nil => rfl
  | cons b s ih =>
    have hlength : offset + 1 + s.length = offset + (b :: s).length := by
      rw [List.length_cons]
      omega
    rw [List.cons_append, newlinesFrom, newlinesFrom, ih, hlength]
    split_ifs <;> rfl

lemma length_newlinesFrom (offset : Nat) (s : Bytes) :
    (newlinesFrom offset s).length = s.count 0x0A := by
  induction s generalizing offset with
  | nil => rfl
  | cons b s ih =>
    rw [newlinesFrom]
    split_ifs with hb
    · rw [hb, List.length_cons, ih, List.count_cons_self]
    · rw [ih, List.count_cons_of_ne hb]

lemma mem_newlinesFrom {offset : Nat} {s : Bytes} (hsize : offset + s.length ≤ 2 ^ 32) {n : UInt32}
    (h : n ∈ newlinesFrom offset s) : offset ≤ n.toNat ∧ n.toNat < offset + s.length := by
  induction s generalizing offset with
  | nil => exact absurd h List.not_mem_nil
  | cons b s ih =>
    rw [List.length_cons] at hsize ⊢
    have hrest : n ∈ newlinesFrom (offset + 1) s → offset ≤ n.toNat ∧
        n.toNat < offset + (s.length + 1) := fun h => by
      have := ih (by omega) h
      omega
    rw [newlinesFrom] at h
    split_ifs at h
    · rcases List.mem_cons.1 h with rfl | h
      · rw [toNat_toUInt32 (by omega)]
        omega
      · exact hrest h
    · exact hrest h

lemma newlines_before {s : Bytes} (hsize : s.length < 2 ^ 32) {offset : Nat}
    (h : offset ≤ s.length) :
    (newlinesFrom 0 s).filter (fun n => n.toNat < offset) = newlinesFrom 0 (s.take offset) := by
  have hlength : (s.take offset).length = offset := by rw [List.length_take]; omega
  conv_lhs => rw [← List.take_append_drop offset s]
  rw [newlinesFrom_append, List.filter_append, hlength, Nat.zero_add]
  have hbefore : ∀ n ∈ newlinesFrom 0 (s.take offset), decide (n.toNat < offset) = true :=
    fun n hn => by
      have := mem_newlinesFrom (by omega) hn
      exact decide_eq_true (by omega)
  have hafter : ∀ n ∈ newlinesFrom offset (s.drop offset), ¬ decide (n.toNat < offset) = true :=
    fun n hn => by
      have := mem_newlinesFrom (by rw [List.length_drop]; omega) hn
      simp only [decide_eq_true_iff]
      omega
  rw [List.filter_eq_self.2 hbefore, List.filter_eq_nil_iff.2 hafter, List.append_nil]

/-! ### Lines -/

/-- The length of lines with their newlines. -/
def extent (lines : List Bytes) : Nat := (lines.map fun line => line.length + 1).sum

lemma length_flatMap_newline (lines : List Bytes) :
    (lines.flatMap fun line => line ++ [0x0A]).length = extent lines := by
  induction lines with
  | nil => rfl
  | cons line lines ih =>
    rw [List.flatMap_cons, List.length_append, ih, extent, extent, List.map_cons, List.sum_cons,
      List.length_append, List.length_singleton]

lemma extent_concat (lines : List Bytes) (line : Bytes) :
    extent (lines ++ [line]) = extent lines + line.length + 1 := by
  simp only [extent, List.map_append, List.map_cons, List.map_nil, List.sum_append,
    List.sum_singleton]
  omega

lemma length_le_extent (lines : List Bytes) : lines.length ≤ extent lines := by
  induction lines with
  | nil => exact Nat.le_refl _
  | cons line lines ih =>
    rw [extent, List.map_cons, List.sum_cons, ← extent, List.length_cons]
    omega

variable {s line : Bytes} {before after : List Bytes}

lemma eq_of_split (h : Bytes.split 0x0A s = before ++ line :: after) :
    s = (before.flatMap fun line => line ++ [0x0A]) ++ Bytes.join [0x0A] (line :: after) := by
  rw [← Bytes.join_middle, ← h, Bytes.join_split]

lemma notMem_line (h : Bytes.split 0x0A s = before ++ line :: after) :
    ∀ part ∈ before ++ [line], 0x0A ∉ part := fun part hpart => by
  refine Bytes.notMem_of_mem_split (s := s) ?_
  rw [h, List.append_cons]
  exact List.mem_append_left after hpart

lemma split_upTo (h : ∀ part ∈ before ++ [line], 0x0A ∉ part) :
    Bytes.split 0x0A ((before.flatMap fun line => line ++ [0x0A]) ++ line) = before ++ [line] := by
  have hjoin := Bytes.join_middle [0x0A] before line []
  rw [Bytes.join] at hjoin
  rw [← hjoin]
  exact Bytes.split_join (by simp) h

lemma exists_behind (h : Bytes.split 0x0A s = before ++ line :: after) :
    ∃ tail, s = (before.flatMap fun line => line ++ [0x0A]) ++ (line ++ tail) := by
  rw [eq_of_split h]
  cases after with
  | nil => exact ⟨[], by rw [List.append_nil, Bytes.join]⟩
  | cons next after => exact ⟨_, by rw [Bytes.join, List.append_assoc]⟩

lemma length_of_split (h : Bytes.split 0x0A s = before ++ line :: after) :
    extent before + line.length ≤ s.length := by
  obtain ⟨tail, rfl⟩ := exists_behind h
  rw [List.length_append, List.length_append, length_flatMap_newline]
  omega

lemma newline_behind {next : Bytes} (h : Bytes.split 0x0A s = before ++ line :: next :: after) :
    (newlinesFrom 0 s)[before.length]? = some (extent before + line.length).toUInt32 := by
  have hsplit : Bytes.split 0x0A ((before.flatMap fun line => line ++ [0x0A]) ++ line) =
      before ++ [line] := split_upTo (notMem_line h)
  have hcount : ((before.flatMap fun line => line ++ [0x0A]) ++ line).count 0x0A =
      before.length := by
    have := congrArg List.length hsplit
    rw [Bytes.length_split, List.length_append, List.length_singleton] at this
    omega
  have hs : s = ((before.flatMap fun line => line ++ [0x0A]) ++ line) ++
      0x0A :: Bytes.join [0x0A] (next :: after) := by
    rw [eq_of_split h, Bytes.join]
    simp
  have hlength := length_newlinesFrom 0 ((before.flatMap fun line => line ++ [0x0A]) ++ line)
  rw [hcount] at hlength
  rw [hs, newlinesFrom_append, List.getElem?_append_right (by omega), hlength, Nat.sub_self,
    newlinesFrom, if_pos rfl, List.getElem?_cons_zero, List.length_append, length_flatMap_newline,
    Nat.zero_add]

/-! ### Places -/

/-- The newlines of a file are as files are stored, and every line and column of it is a word. -/
structure Indexed (f : SourceFile) : Prop where
  newlines : f.newlines = newlinesFrom 0 f.content
  size : f.content.length < 2 ^ 32 - 1

variable {f : SourceFile}

/-- Where a line starts, by the newline before it. -/
def startOfLine (newlines : List UInt32) (earlier : Nat) : Nat :=
  if earlier = 0 then 0 else (newlines[earlier - 1]?.elim 0 fun n => n.toNat + 1)

lemma startOfLine_eq (hs : s.length < 2 ^ 32)
    (h : Bytes.split 0x0A s = before ++ line :: after) :
    startOfLine (newlinesFrom 0 s) before.length = extent before := by
  rcases List.eq_nil_or_concat' before with rfl | ⟨earlier, last, rfl⟩
  · rfl
  · have hlength := length_of_split h
    rw [List.append_assoc, List.singleton_append] at h
    rw [extent_concat] at hlength ⊢
    rw [startOfLine, if_neg (by simp), List.length_append, List.length_singleton,
      Nat.add_sub_cancel, newline_behind h, Option.elim_some, toNat_toUInt32 (by omega)]

/-- **The lines of a file** are the parts of its text between newlines. -/
lemma Indexed.line_eq (hf : f.Indexed) (h : Bytes.split 0x0A f.content = before ++ line :: after) :
    f.line (before.length + 1) = line := by
  have hlength := length_of_split h
  have hsize := hf.size
  have htext := eq_of_split h
  have hcount : f.newlines.length = before.length + after.length := by
    have := congrArg List.length h
    rw [Bytes.length_split, List.length_append, List.length_cons] at this
    rw [hf.newlines, length_newlinesFrom]
    omega
  have hline : f.line (before.length + 1) =
      (f.content.take (f.newlines[before.length]?.elim f.content.length UInt32.toNat)).drop
        (startOfLine f.newlines before.length) := by
    rw [SourceFile.line, if_neg (by omega), startOfLine]
    simp only [Nat.add_eq_right, Nat.reduceSubDiff, Nat.add_sub_cancel]
    cases f.newlines[before.length]? <;> cases f.newlines[before.length - 1]? <;> rfl
  rw [hline, hf.newlines, startOfLine_eq (hsize.trans (by decide)) h]
  cases after with
  | nil =>
    rw [List.getElem?_eq_none (by rw [← hf.newlines, hcount]; simp), Option.elim_none,
      List.take_length]
    conv_lhs => rw [htext]
    rw [← length_flatMap_newline, List.drop_left, Bytes.join]
  | cons next after =>
    rw [newline_behind h, Option.elim_some, toNat_toUInt32 (by omega)]
    conv_lhs => rw [htext]
    rw [Bytes.join, List.append_assoc line, ← List.append_assoc _ line, ← length_flatMap_newline,
      ← List.length_append, List.take_left, List.drop_left]

/-- **The place of an offset**: one more than the newlines before it, and one more than the
characters behind the last of them. -/
lemma Indexed.position_eq (hf : f.Indexed) {offset : UInt32} (hle : offset.toNat ≤ f.content.length)
    (h : Bytes.split 0x0A (f.content.take offset.toNat) = before ++ [line]) :
    f.position offset = ⟨(before.length + 1).toUInt32, (Utf8.count line + 1).toUInt32⟩ := by
  have hsize := hf.size
  have hcount : (newlinesFrom 0 (f.content.take offset.toNat)).length = before.length := by
    have := congrArg List.length h
    rw [Bytes.length_split, List.length_append, List.length_singleton] at this
    rw [length_newlinesFrom]
    omega
  have hstart := startOfLine_eq (by rw [List.length_take]; omega) h
  have hdrop : (f.content.take offset.toNat).drop (extent before) = line := by
    conv_lhs => rw [eq_of_split h]
    rw [← length_flatMap_newline, List.drop_left, Bytes.join]
  have hposition : f.position offset = ⟨(before.length + 1).toUInt32, (Utf8.count ((f.content.take
      offset.toNat).drop (startOfLine (newlinesFrom 0 (f.content.take offset.toNat))
        before.length)) + 1).toUInt32⟩ := by
    rw [position, startOfLine]
    simp only [Nat.min_eq_left hle, hf.newlines, newlines_before (by omega) hle, hcount,
      List.getLast?_eq_getElem?]
    split_ifs with hnone
    · rw [hnone] at hcount
      rw [List.eq_nil_of_length_eq_zero hcount]
      rfl
    · cases (newlinesFrom 0 (f.content.take offset.toNat))[before.length - 1]? <;> rfl
  rw [hposition, hstart, hdrop]

lemma Indexed.toNat_position (hf : f.Indexed) {offset : UInt32}
    (hle : offset.toNat ≤ f.content.length)
    (h : Bytes.split 0x0A (f.content.take offset.toNat) = before ++ [line]) :
    (f.position offset).line.toNat = before.length + 1 ∧
      (f.position offset).column.toNat = Utf8.count line + 1 := by
  have hsize := hf.size
  have hlength := congrArg List.length (eq_of_split h)
  rw [List.length_take, Nat.min_eq_left hle, List.length_append, length_flatMap_newline,
    Bytes.join] at hlength
  have hlines := length_le_extent before
  have hcount := Utf8.count_le_length line
  rw [hf.position_eq hle h]
  exact ⟨toNat_toUInt32 (by omega), toNat_toUInt32 (by omega)⟩

lemma Indexed.lines_eq (hf : f.Indexed) {n : Nat} (hn : n ≤ (Bytes.split 0x0A f.content).length) :
    (List.range n).map (fun k => f.line (k + 1)) = (Bytes.split 0x0A f.content).take n := by
  refine List.ext_getElem (by simpa using hn) fun k hk _ => ?_
  rw [List.length_map, List.length_range] at hk
  have hsplit : Bytes.split 0x0A f.content = (Bytes.split 0x0A f.content).take k ++
      (Bytes.split 0x0A f.content)[k] :: (Bytes.split 0x0A f.content).drop (k + 1) := by
    rw [List.getElem_cons_drop, List.take_append_drop]
  have hline := hf.line_eq hsplit
  rw [List.length_take, Nat.min_eq_left (by omega)] at hline
  rw [List.getElem_map, List.getElem_range, hline, List.getElem_take]

/-- The offset is where the line and the column say: so many whole lines with their newlines are
before it, and on its own line the text `before`, with one character less than the column. -/
structure LiesAt (f : SourceFile) (offset : Nat) (p : Position) (before : Bytes) : Prop where
  line_pos : 1 ≤ p.line.toNat
  line_le : p.line.toNat ≤ f.content.count 0x0A + 1
  onLine : before <+: f.line p.line.toNat
  column : p.column.toNat = Utf8.count before + 1
  offset : offset =
    ((List.range (p.line.toNat - 1)).map fun k => (f.line (k + 1)).length + 1).sum + before.length

lemma exists_lines (s : Bytes) (offset : Nat) : ∃ before last first after,
    Bytes.split 0x0A (s.take offset) = before ++ [last] ∧
      Bytes.split 0x0A s = before ++ (last ++ first) :: after := by
  obtain ⟨before, last, hbefore⟩ := Bytes.split_eq_concat 0x0A (s.take offset)
  obtain ⟨first, after, hafter⟩ := Bytes.split_eq_cons 0x0A (s.drop offset)
  refine ⟨before, last, first, after, hbefore, ?_⟩
  rw [← Bytes.split_append hbefore hafter, List.take_append_drop]

lemma Indexed.extent_eq (hf : f.Indexed)
    (h : Bytes.split 0x0A f.content = before ++ line :: after) :
    ((List.range before.length).map fun k => (f.line (k + 1)).length + 1).sum = extent before := by
  have hlines := hf.lines_eq (n := before.length) (by rw [h, List.length_append]; omega)
  rw [h, List.take_left] at hlines
  rw [extent]
  conv_rhs => rw [← hlines, List.map_map]
  rfl

lemma Indexed.liesAt (hf : f.Indexed) {offset : UInt32}
    (hle : offset.toNat ≤ f.content.length) :
    ∃ before, f.LiesAt offset.toNat (f.position offset) before := by
  obtain ⟨before, last, first, after, hfront, hsplit⟩ := exists_lines f.content offset.toNat
  have hlines := congrArg List.length hsplit
  have hextent := congrArg List.length (eq_of_split hfront)
  rw [List.length_take, Nat.min_eq_left hle, List.length_append, length_flatMap_newline] at hextent
  rw [Bytes.length_split, List.length_append, List.length_cons] at hlines
  obtain ⟨hline, hcolumn⟩ := hf.toNat_position hle hfront
  refine ⟨last, ?_, ?_, ?_, hcolumn, ?_⟩
  · omega
  · omega
  · rw [hline, hf.line_eq hsplit]
    exact List.prefix_append last first
  · rw [hline, Nat.add_sub_cancel, hf.extent_eq hsplit, hextent]
    rfl

lemma position_of_le {offset : UInt32} (hsize : f.content.length < 2 ^ 32)
    (h : f.content.length ≤ offset.toNat) :
    f.position offset = f.position f.content.length.toUInt32 := by
  simp only [position, toNat_toUInt32 hsize, Nat.min_eq_right h, Nat.min_self]

lemma Indexed.liesAt_min (hf : f.Indexed) (offset : UInt32) :
    ∃ before, f.LiesAt (min offset.toNat f.content.length) (f.position offset) before := by
  rcases Nat.le_total offset.toNat f.content.length with hle | hle
  · rw [Nat.min_eq_left hle]
    exact hf.liesAt hle
  · have hsize : f.content.length < 2 ^ 32 := hf.size.trans (by decide)
    have hend := toNat_toUInt32 hsize
    obtain ⟨before, hbefore⟩ := hf.liesAt hend.le
    rw [Nat.min_eq_right hle, position_of_le hsize hle]
    rw [hend] at hbefore
    exact ⟨before, hbefore⟩

/-- **The place leads back to the offset**: only the place of an offset says where it lies. -/
lemma LiesAt.position_eq {offset : UInt32} {p : Position} {start : Bytes} (hf : f.Indexed)
    (h : f.LiesAt offset.toNat p start) : f.position offset = p := by
  have hlt : p.line.toNat - 1 < (Bytes.split 0x0A f.content).length := by
    have := h.line_pos
    have := h.line_le
    rw [Bytes.length_split]
    omega
  obtain ⟨before, line, after, hsplit, hbefore⟩ : ∃ before line after,
      Bytes.split 0x0A f.content = before ++ line :: after ∧ before.length = p.line.toNat - 1 :=
    ⟨_, _, _, by rw [List.getElem_cons_drop (h := hlt), List.take_append_drop],
      by rw [List.length_take, Nat.min_eq_left hlt.le]⟩
  have hline : p.line.toNat = before.length + 1 := by
    have := h.line_pos
    omega
  obtain ⟨rest, hrest⟩ := h.onLine
  rw [hline, hf.line_eq hsplit] at hrest
  have hoffset := h.offset
  rw [← hbefore, hf.extent_eq hsplit] at hoffset
  obtain ⟨tail, htail⟩ := exists_behind hsplit
  have hfront : Bytes.split 0x0A (f.content.take offset.toNat) = before ++ [start] := by
    have htake : f.content.take offset.toNat =
        (before.flatMap fun line => line ++ [0x0A]) ++ start := by
      rw [htail, ← hrest, hoffset, List.append_assoc, ← List.append_assoc,
        ← length_flatMap_newline, ← List.length_append, List.take_left]
    have hclean := notMem_line hsplit
    rw [htake]
    refine split_upTo fun part hpart => ?_
    rcases List.mem_append.1 hpart with hpart | hpart
    · exact hclean part (List.mem_append_left _ hpart)
    · obtain rfl := List.mem_singleton.1 hpart
      have := hclean line (List.mem_append_right _ (List.mem_singleton_self line))
      rw [← hrest, List.mem_append, not_or] at this
      exact this.1
  have hle : offset.toNat ≤ f.content.length := by
    have := length_of_split hsplit
    rw [← hrest, List.length_append] at this
    omega
  rw [hf.position_eq hle hfront, ← hline, ← h.column, toUInt32_toNat, toUInt32_toNat]

/-- **Later characters have later places.** -/
lemma Indexed.position_lt (hf : f.Indexed) {a b : UInt32}
    (ha : Utf8.IsBoundary f.content a.toNat) (hb : Utf8.IsBoundary f.content b.toNat)
    (hab : a < b) :
    toLex ((f.position a).line, (f.position a).column) <
      toLex ((f.position b).line, (f.position b).column) := by
  have hlt : a.toNat < b.toNat := UInt32.lt_iff_toNat_lt.1 hab
  obtain ⟨before, last, hlast⟩ := Bytes.split_eq_concat 0x0A (f.content.take a.toNat)
  -- the text between the two offsets
  have hbetween : f.content.take b.toNat =
      f.content.take a.toNat ++ (f.content.drop a.toNat).take (b.toNat - a.toNat) := by
    rw [← List.take_add, Nat.add_sub_cancel' hlt.le]
  have hnonempty : (f.content.drop a.toNat).take (b.toNat - a.toNat) ≠ [] := by
    have := hb.le
    rw [← List.length_pos_iff, List.length_take, List.length_drop]
    omega
  obtain ⟨first, after, hfirst⟩ := Bytes.split_eq_cons 0x0A
    ((f.content.drop a.toNat).take (b.toNat - a.toNat))
  have hsplit := Bytes.split_append hlast hfirst
  rw [← hbetween] at hsplit
  obtain ⟨hline, hcolumn⟩ := hf.toNat_position ha.le hlast
  rw [Prod.Lex.toLex_lt_toLex, UInt32.lt_iff_toNat_lt, UInt32.lt_iff_toNat_lt, ← UInt32.toNat_inj,
    hline, hcolumn]
  rcases List.eq_nil_or_concat' after with rfl | ⟨middle, other, rfl⟩
  · right
    obtain ⟨hline', hcolumn'⟩ := hf.toNat_position hb.le hsplit
    refine ⟨hline'.symm, ?_⟩
    have hvalid : Utf8.isValid last = true :=
      Utf8.isValid_of_mem_split (show (0x0A : UInt8) < 0x80 by decide) ha.front last
        (by rw [hlast]; exact List.mem_append_right _ (List.mem_singleton_self last))
    have hmore : 0 < Utf8.count first := Utf8.count_pos fun hnil => hnonempty (by
      rw [← Bytes.join_split 0x0A (List.take _ _), hfirst, hnil]
      rfl)
    rw [hcolumn', Utf8.count_append hvalid]
    omega
  · left
    rw [← List.cons_append, ← List.append_assoc] at hsplit
    rw [(hf.toNat_position hb.le hsplit).1, List.length_append, List.length_cons]
    omega

end SourceFile

/-! ### The caret -/

/-- What stands in front of a line of source text. -/
def Diagnostic.gutter (number : Nat) : Bytes := Bytes.padLeft 4 (Bytes.ofNat number) ++ " | "

lemma Diagnostic.gutter_ascii (number : Nat) : ∀ b ∈ gutter number, b < 0x80 := by
  intro b hb
  have hdigit : Bytes.isDigit b = true → b < 0x80 := fun h => by
    simp only [Bytes.isDigit, Bool.and_eq_true, decide_eq_true_iff] at h
    exact UInt8.lt_of_le_of_lt h.2 (by decide)
  rw [gutter, Bytes.padLeft, List.mem_append, List.mem_append] at hb
  rcases hb with (hb | hb) | hb
  · rw [(List.mem_replicate.1 hb).2]
    decide
  · exact hdigit (Bytes.isDigit_of_mem_ofNat hb)
  · have hbar : ∀ b ∈ (" | " : Bytes), b < 0x80 := by decide +kernel
    exact hbar b hb

namespace SourceFile

/-- **The caret** stands under the character that it means: in front of it are as many spaces as
there are characters in front of that character, those before the line included. -/
lemma Indexed.context_eq {f : SourceFile} (hf : f.Indexed) {s : SourceSet} {span : Span}
    (hfile : s.get? span.file = some f) :
    ∃ before width,
      f.LiesAt (min span.start.toNat f.content.length) (f.position span.start) before ∧
      Diagnostic.context (some s) span =
        if f.line (f.position span.start).line.toNat = [] then []
        else (Diagnostic.gutter (f.position span.start).line.toNat ++
          f.line (f.position span.start).line.toNat ++ "\n" ++
          Bytes.spaces
            (Utf8.count (Diagnostic.gutter (f.position span.start).line.toNat ++ before)) ++
          "^" ++ List.replicate width (Bytes.byte '~') ++ "\n" : Bytes) := by
  obtain ⟨before, hbefore⟩ := hf.liesAt_min span.start
  have hlocate : Diagnostic.locate (some s) span = some (f, f.position span.start) := by
    simp [Diagnostic.locate, hfile]
  have hspaces : (Diagnostic.gutter (f.position span.start).line.toNat).length +
      (f.position span.start).column.toNat - 1 =
      Utf8.count (Diagnostic.gutter (f.position span.start).line.toNat ++ before) := by
    rw [Utf8.count_ascii (Diagnostic.gutter_ascii _), hbefore.column]
    omega
  refine ⟨before, (if (f.position span.stop).line = (f.position span.start).line ∧
    (f.position span.start).column < (f.position span.stop).column then
      ((f.position span.stop).column - (f.position span.start).column).toNat else 1) - 1, hbefore,
    ?_⟩
  rw [← hspaces, Diagnostic.context, hlocate]
  simp only [List.isEmpty_iff, Diagnostic.gutter]

end SourceFile

/-! ### Stored files -/

lemma Project.newlines_sourcesOf (texts : List SourceText) :
    ∀ f ∈ (sourcesOf texts).files.toList, f.newlines = SourceFile.newlinesFrom 0 f.content := by
  have hfold : ∀ (texts : List SourceText) (s : SourceSet),
      (∀ f ∈ s.files.toList, f.newlines = SourceFile.newlinesFrom 0 f.content) →
      ∀ f ∈ (texts.foldl storeSource s).files.toList,
        f.newlines = SourceFile.newlinesFrom 0 f.content := by
    intro texts
    induction texts with
    | nil => exact fun s h => h
    | cons text texts ih =>
      refine fun s h => ih _ fun f hf => ?_
      rw [storeSource, SourceSet.store, Array.toList_push, List.mem_append, List.mem_singleton] at hf
      rcases hf with hf | rfl
      · exact h f hf
      · rfl
  exact hfold texts SourceSet.empty fun f hf => absurd hf List.not_mem_nil

/-- **Places are exact** in every stored file, well-formed or not, that is so short that all its
lines and columns are words: one of `2 ^ 32 - 1` bytes may have its end on line or in column `2 ^
32`. Its lines make up its text. Every offset lies where its line and column say and has the only
place that says so; offsets past the end have the place of the end, and in a well-formed text later
characters have later places. The caret below a line is preceded by as many spaces as there are
characters before the start of the span, the gutter included; nothing is shown for an empty line. -/
theorem Project.places_exact (texts : List SourceText)
    (hsize : ∀ f ∈ (sourcesOf texts).files.toList, f.content.length < 2 ^ 32 - 1) :
    ∀ f ∈ (sourcesOf texts).files.toList,
      Bytes.join [0x0A] ((List.range (f.content.count 0x0A + 1)).map fun k => f.line (k + 1)) =
          f.content ∧
        (∀ offset : UInt32, offset.toNat ≤ f.content.length →
          ∃ before, f.LiesAt offset.toNat (f.position offset) before) ∧
        (∀ (offset : UInt32) (p : Position) (before : Bytes),
          f.LiesAt offset.toNat p before → f.position offset = p) ∧
        (∀ offset : UInt32, f.content.length ≤ offset.toNat →
          f.position offset = f.position f.content.length.toUInt32) ∧
        (∀ a b : UInt32, Utf8.IsBoundary f.content a.toNat → Utf8.IsBoundary f.content b.toNat →
          a < b → toLex ((f.position a).line, (f.position a).column) <
            toLex ((f.position b).line, (f.position b).column)) ∧
        ∀ span : Span, span.file = f.id → ∃ before width,
          f.LiesAt (min span.start.toNat f.content.length) (f.position span.start) before ∧
            Diagnostic.context (some (sourcesOf texts)) span =
              if f.line (f.position span.start).line.toNat = [] then []
              else (Diagnostic.gutter (f.position span.start).line.toNat ++
                f.line (f.position span.start).line.toNat ++ "\n" ++
                Bytes.spaces
                  (Utf8.count (Diagnostic.gutter (f.position span.start).line.toNat ++ before)) ++
                "^" ++ List.replicate width (Bytes.byte '~') ++ "\n" : Bytes) := by
  intro f hmem
  have hf : f.Indexed := ⟨newlines_sourcesOf texts f hmem, hsize f hmem⟩
  refine ⟨?_, fun offset => hf.liesAt, fun offset p before h => h.position_eq hf,
    fun offset => SourceFile.position_of_le (hf.size.trans (by decide)),
    fun a b => hf.position_lt, ?_⟩
  · have hlines := hf.lines_eq (Nat.le_refl _)
    rw [List.take_length, Bytes.length_split] at hlines
    rw [hlines, Bytes.join_split]
  · intro span hspan
    exact hf.context_eq (by rw [hspan]; exact (ordered_sourcesOf texts).get?_id hmem)

/-- Two lines, the first with a character of two bytes and a byte that is no character, the second
without a newline. -/
def unevenLines : List SourceText :=
  [⟨"a.gpex", "a", [0xC3, 0xA4, 0xFF, 0x62, 0x0A, 0x63], false⟩]

/-- The caret stands under the third character of the first line. -/
theorem Project.places_exact_unevenLines :
    (∀ f ∈ (sourcesOf unevenLines).files.toList, f.content.length < 2 ^ 32 - 1) ∧
      ∃ f ∈ (sourcesOf unevenLines).files.toList, ∃ before width,
        f.LiesAt 3 ⟨1, 3⟩ before ∧ f.position 6 = ⟨2, 2⟩ ∧ f.position 7 = f.position 6 ∧
          Diagnostic.context (some (sourcesOf unevenLines)) ⟨f.id, 3, 4⟩ =
            (Diagnostic.gutter 1 ++ ([0xC3, 0xA4, 0xFF, 0x62] : Bytes) ++ "\n" ++
              Bytes.spaces 9 ++ "^" ++ List.replicate width (Bytes.byte '~') ++ "\n" : Bytes) := by
  have hsize : ∀ f ∈ (sourcesOf unevenLines).files.toList, f.content.length < 2 ^ 32 - 1 := by
    decide +kernel
  obtain ⟨f, hfile⟩ : ∃ f, (sourcesOf unevenLines).files.toList = [f] :=
    List.length_eq_one_iff.1 (by decide +kernel)
  have hmem : f ∈ (sourcesOf unevenLines).files.toList := by simp [hfile]
  have hread : (sourcesOf unevenLines).files.toList.map
      (fun f => (f.content.length, f.position 3, f.position 6, f.line 1)) =
        [(6, ⟨1, 3⟩, ⟨2, 2⟩, [0xC3, 0xA4, 0xFF, 0x62])] := by decide +kernel
  rw [hfile, List.map_cons, List.map_nil, List.singleton_inj] at hread
  obtain ⟨hlength, hthird, hend, hline⟩ : _ ∧ _ ∧ _ ∧ _ := by simpa using hread
  obtain ⟨-, -, -, hpast, -, hcaret⟩ := places_exact unevenLines hsize f hmem
  obtain ⟨before, width, hbefore, hcontext⟩ := hcaret ⟨f.id, 3, 4⟩ rfl
  have hspaces : Utf8.count (Diagnostic.gutter 1 ++ before) = 9 := by
    have hcolumn := hbefore.column
    rw [hthird, show (⟨1, 3⟩ : Position).column.toNat = 3 from rfl] at hcolumn
    have hgutter : (Diagnostic.gutter 1).length = 7 := by decide +kernel
    rw [Utf8.count_ascii (Diagnostic.gutter_ascii 1), hgutter]
    omega
  rw [hthird, show (1 : UInt32).toNat = 1 from rfl, hline, if_neg (by simp), hspaces] at hcontext
  rw [hthird, hlength] at hbefore
  have hbeyond := hpast 7 (by rw [hlength]; decide)
  rw [hlength] at hbeyond
  exact ⟨hsize, f, hmem, before, width, hbefore, hend, hbeyond, hcontext⟩

end StateBuffer
