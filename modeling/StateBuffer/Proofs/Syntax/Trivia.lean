import StateBuffer.Proofs.Text.Encoding
import StateBuffer.Syntax.Cursor

/-!
What stands between tokens: white space, and comments from two slashes to the end of their line or
of the text. `Trivia s rest` says so without a word on how it is skipped; skipping goes as far as
any such reading can go, and stops where neither white space nor a comment begins.
-/

namespace StateBuffer

open StateBuffer.Utf8

/-- Does a line end here, at a newline or at the end of the text? -/
def LineEnds (s : Bytes) : Prop := ∀ b ∈ s.head?, b = 0x0A

/-- White space and comments stand in front of `rest` in `s`. -/
inductive Trivia : Bytes → Bytes → Prop where
  | none (rest : Bytes) : Trivia rest rest
  | space {p : Nat} {s rest : Bytes} (hp : CodePoint.isSpace p = true) (h : Trivia s rest) :
      Trivia (encode p ++ s) rest
  | comment {text s rest : Bytes} (ht : 0x0A ∉ text) (hs : LineEnds s) (h : Trivia s rest) :
      Trivia (0x2F :: 0x2F :: (text ++ s)) rest

/-- Neither white space nor a comment begins here. -/
def Solid (s : Bytes) : Prop :=
  CodePoint.isSpace (next s).1 = false ∧ ∀ r, s ≠ 0x2F :: 0x2F :: r

lemma Trivia.trans {s t u : Bytes} (h : Trivia s t) (h' : Trivia t u) : Trivia s u := by
  induction h with
  | none => exact h'
  | space hp _ ih => exact .space hp (ih h')
  | comment ht hs _ ih => exact .comment ht hs (ih h')

lemma Trivia.suffix {s rest : Bytes} (h : Trivia s rest) : rest <:+ s := by
  induction h with
  | none => exact List.suffix_rfl
  | space _ _ ih => exact ih.trans (List.suffix_append _ _)
  | @comment text s rest _ _ _ ih =>
    have h1 : s <:+ text ++ s := List.suffix_append text s
    have h2 : text ++ s <:+ 0x2F :: 0x2F :: (text ++ s) := ⟨[0x2F, 0x2F], rfl⟩
    exact (ih.trans h1).trans h2

/-! ### Skipping white space -/

lemma isSpace_replacement : CodePoint.isSpace replacement = false := by decide

lemma next_size_pos (b : UInt8) (rest : Bytes) : 1 ≤ (next (b :: rest)).2 := by
  rcases hs : sequence b rest with ⟨count, _ | q⟩ <;> simp [next, hs]

@[simp] lemma dropSpaces_nil : dropSpaces [] = [] := by rw [dropSpaces.eq_def]

lemma dropSpaces_cons (b : UInt8) (rest : Bytes) :
    dropSpaces (b :: rest) =
      if CodePoint.isSpace (next (b :: rest)).1 then
        dropSpaces ((b :: rest).drop (next (b :: rest)).2)
      else b :: rest := by
  obtain ⟨n, hn⟩ := Nat.exists_eq_add_of_le' (next_size_pos b rest)
  rcases hnext : next (b :: rest) with ⟨point, size⟩
  rw [hnext] at hn
  simp only at hn
  rw [dropSpaces.eq_def]
  simp only [hnext, hn, List.drop_succ_cons, Nat.add_sub_cancel]

lemma dropSpaces_encode {p : Nat} (hp : CodePoint.isSpace p = true) (s : Bytes) :
    dropSpaces (encode p ++ s) = dropSpaces s := by
  have hn := next_encode (CodePoint.isScalar_of_isSpace hp) s
  cases he : encode p ++ s with
  | nil => exact absurd (List.append_eq_nil_iff.1 he).1 (encode_ne_nil p)
  | cons b rest => rw [dropSpaces_cons, ← he, hn, if_pos hp, List.drop_left]

lemma dropSpaces_of_not {s : Bytes} (h : CodePoint.isSpace (next s).1 = false) :
    dropSpaces s = s := by
  cases s with
  | nil => exact dropSpaces_nil
  | cons b rest => rw [dropSpaces_cons, if_neg (by simp [h])]

lemma encode_of_isSpace {s : Bytes} (h : CodePoint.isSpace (next s).1 = true) :
    ∃ tail, s = encode (next s).1 ++ tail ∧ tail.length < s.length := by
  have hne : (next s).1 ≠ replacement := by
    intro he
    rw [he, isSpace_replacement] at h
    simp at h
  have hnext : next s = ((next s).1, (next s).2) := rfl
  obtain ⟨tail, ht, -⟩ := encode_of_next hnext hne
  refine ⟨tail, ht, ?_⟩
  have := List.length_pos_iff.2 (encode_ne_nil (next s).1)
  have := congrArg List.length ht
  rw [List.length_append] at this
  omega

lemma trivia_dropSpaces (s : Bytes) :
    Trivia s (dropSpaces s) ∧ CodePoint.isSpace (next (dropSpaces s)).1 = false := by
  induction hn : s.length using Nat.strongRecOn generalizing s with
  | _ n ih =>
    by_cases h : CodePoint.isSpace (next s).1 = true
    · obtain ⟨tail, ht, hlt⟩ := encode_of_isSpace h
      obtain ⟨h1, h2⟩ := ih _ (hn ▸ hlt) tail rfl
      rw [ht, dropSpaces_encode h]
      exact ⟨.space h h1, h2⟩
    · have h' : CodePoint.isSpace (next s).1 = false := by simpa using h
      rw [dropSpaces_of_not h']
      exact ⟨.none s, h'⟩

/-! ### Skipping all of it -/

lemma dropComment_of_not {s : Bytes} (h : ∀ r, s ≠ 0x2F :: 0x2F :: r) : dropComment s = s := by
  unfold dropComment
  split
  · exact absurd rfl (h _)
  · rfl

lemma dropComment_text {text s : Bytes} (ht : 0x0A ∉ text) (hs : LineEnds s) :
    dropComment (0x2F :: 0x2F :: (text ++ s)) = s := by
  show (text ++ s).dropWhile (· ≠ 0x0A) = s
  rw [List.dropWhile_append_of_pos fun b hb => by simpa using ne_of_mem_of_not_mem hb ht]
  cases s with
  | nil => rfl
  | cons b r => rw [List.dropWhile_cons_of_neg (by simpa using hs b rfl)]

lemma trivia_dropComment (s : Bytes) : Trivia s (dropComment s) := by
  by_cases h : ∃ r, s = 0x2F :: 0x2F :: r
  · obtain ⟨r, rfl⟩ := h
    have ht : 0x0A ∉ r.takeWhile (· ≠ (0x0A : UInt8)) := fun hm => by
      simpa using List.all_eq_true.1 (List.all_takeWhile (p := (· ≠ (0x0A : UInt8))) (l := r)) _ hm
    have hs : LineEnds (r.dropWhile (· ≠ (0x0A : UInt8))) := by
      intro b hb
      have := List.head?_dropWhile_not (p := (· ≠ (0x0A : UInt8))) (l := r)
      rw [Option.mem_def.1 hb] at this
      simpa using this
    have hc := Trivia.comment ht hs (.none _)
    rwa [List.takeWhile_append_dropWhile] at hc
  · rw [dropComment_of_not fun r he => h ⟨r, he⟩]
    exact .none s

lemma dropComment_length (s : Bytes) : (dropComment s).length ≤ s.length :=
  (trivia_dropComment s).suffix.length_le

lemma dropTrivia_eq (s : Bytes) : dropTrivia s =
    if (dropComment (dropSpaces s)).length < s.length then dropTrivia (dropComment (dropSpaces s))
    else s :=
  dropTrivia.eq_def s

/-- One round of skipping changes nothing in the end. -/
lemma dropTrivia_round (s : Bytes) :
    dropTrivia (dropComment (dropSpaces s)) = dropTrivia s := by
  conv_rhs => rw [dropTrivia_eq]
  split_ifs with h
  · rfl
  · -- nothing was taken, so both texts are the same
    have hsuf := ((trivia_dropSpaces s).1.trans (trivia_dropComment _)).suffix
    have he : dropComment (dropSpaces s) = s := hsuf.eq_of_length_le (by omega)
    rw [he, dropTrivia_eq, he, if_neg (Nat.lt_irrefl _)]

lemma dropTrivia_solid {s : Bytes} (h : Solid s) : dropTrivia s = s := by
  rw [dropTrivia_eq, dropSpaces_of_not h.1, dropComment_of_not h.2, if_neg (Nat.lt_irrefl _)]

/-- **Skipping is trivia**: what is skipped is white space and comments, and neither is left. -/
theorem trivia_dropTrivia (s : Bytes) : Trivia s (dropTrivia s) ∧ Solid (dropTrivia s) := by
  induction hn : s.length using Nat.strongRecOn generalizing s with
  | _ n ih =>
    have h1 := (trivia_dropSpaces s).1.trans (trivia_dropComment _)
    rw [dropTrivia_eq]
    split_ifs with h
    · obtain ⟨h2, h3⟩ := ih _ (hn ▸ h) (dropComment (dropSpaces s)) rfl
      exact ⟨h1.trans h2, h3⟩
    · have he : dropComment (dropSpaces s) = s := h1.suffix.eq_of_length_le (by omega)
      have hd : dropSpaces s = s :=
        (trivia_dropSpaces s).1.suffix.eq_of_length_le (by
          have := dropComment_length (dropSpaces s)
          rw [he] at this
          exact this)
      refine ⟨.none s, hd ▸ (trivia_dropSpaces s).2, ?_⟩
      rintro r rfl
      rw [hd] at he
      have hlen := congrArg List.length he
      have hw := (List.dropWhile_suffix (p := (· ≠ (0x0A : UInt8))) (l := r)).length_le
      change (r.dropWhile (· ≠ (0x0A : UInt8))).length = _ at hlen
      simp only [List.length_cons] at hlen
      omega

/-- **All trivia is skipped**: trivia in front does not change what is left. -/
theorem dropTrivia_of_trivia {s rest : Bytes} (h : Trivia s rest) :
    dropTrivia s = dropTrivia rest := by
  induction h with
  | none => rfl
  | @space p s rest hp _ ih => rw [← dropTrivia_round, dropSpaces_encode hp, dropTrivia_round, ih]
  | @comment text s rest ht hs _ ih =>
    have hslash : CodePoint.isSpace (next (0x2F :: 0x2F :: (text ++ s))).1 = false := by
      rw [next_ascii (by decide)]
      decide
    rw [← dropTrivia_round, dropSpaces_of_not hslash, dropComment_text ht hs, ih]

end StateBuffer
