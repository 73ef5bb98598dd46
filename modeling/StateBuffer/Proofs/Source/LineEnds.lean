import Mathlib
import StateBuffer.Analysis
import StateBuffer.Diagnostic.Render
import StateBuffer.Plan
import StateBuffer.Source.Fingerprint

/-!
Line ends. A carriage return is dropped from a stored text exactly where a newline comes next, so
a text whose newlines have all been given one is stored as it was before. Two sets of files that
differ in nothing but the marks on their files are read, resolved, shown and fingerprinted alike:
how the lines of a file end can not be told from anything but its mark.
-/

namespace StateBuffer

namespace SourceFile

/-! ### Carriage returns -/

/-- The text with a carriage return before every newline. -/
def withCarriageReturns (s : Bytes) : Bytes :=
  s.flatMap fun b => if b = 0x0A then [0x0D, 0x0A] else [b]

/-- There is a carriage return at the offset, and a newline right behind it. -/
def EndsLine (s : Bytes) (i : Nat) : Prop := s[i]? = some 0x0D ∧ s[i + 1]? = some 0x0A

instance (s : Bytes) (i : Nat) : Decidable (EndsLine s i) := inferInstanceAs (Decidable (_ ∧ _))

lemma dropCarriageReturns_cons (b : UInt8) (s : Bytes) :
    dropCarriageReturns (b :: s) =
      if b = 0x0D ∧ s.head? = some 0x0A then dropCarriageReturns s
      else b :: dropCarriageReturns s := by
  cases s with
  | nil => simp [dropCarriageReturns]
  | cons c rest =>
    by_cases h : b = 0x0D ∧ c = 0x0A
    · obtain ⟨rfl, rfl⟩ := h
      simp [dropCarriageReturns]
    · rw [if_neg (by simpa using h), dropCarriageReturns]
      simpa using h

lemma endsLine_zero (b : UInt8) (s : Bytes) :
    EndsLine (b :: s) 0 ↔ b = 0x0D ∧ s.head? = some 0x0A := by
  simp [EndsLine, List.head?_eq_getElem?]

lemma endsLine_succ (b : UInt8) (s : Bytes) (i : Nat) :
    EndsLine (b :: s) (i + 1) ↔ EndsLine s i := Iff.rfl

/-- **What is stored**: the bytes of the text in order, but for the carriage returns that have a
newline right behind them. -/
lemma dropCarriageReturns_eq (s : Bytes) :
    dropCarriageReturns s =
      (List.range s.length).filterMap fun i => if EndsLine s i then none else s[i]? := by
  induction s with
  | nil => rfl
  | cons b s ih =>
    rw [List.length_cons, List.range_succ_eq_map, List.filterMap_cons, List.filterMap_map,
      dropCarriageReturns_cons, ih]
    have hrest : (fun i => if EndsLine (b :: s) i then none else (b :: s)[i]?) ∘ Nat.succ =
        fun i => if EndsLine s i then none else s[i]? := rfl
    simp only [hrest, endsLine_zero, List.getElem?_cons_zero]
    split_ifs <;> rfl

lemma dropCarriageReturns_sublist (s : Bytes) : (dropCarriageReturns s).Sublist s := by
  induction s with
  | nil => exact List.Sublist.refl _
  | cons b s ih =>
    rw [dropCarriageReturns_cons]
    split_ifs
    · exact ih.cons b
    · exact ih.cons_cons b

lemma length_dropCarriageReturns_iff (s : Bytes) :
    (dropCarriageReturns s).length = s.length ↔ ∀ i, ¬ EndsLine s i := by
  induction s with
  | nil => simp [dropCarriageReturns, EndsLine]
  | cons b s ih =>
    have hle := (dropCarriageReturns_sublist s).length_le
    rw [dropCarriageReturns_cons, ← Nat.and_forall_add_one, endsLine_zero]
    simp only [endsLine_succ, ← ih]
    split_ifs with h
    · exact iff_of_false (by rw [List.length_cons]; omega) fun hnot => hnot.1 h
    · rw [List.length_cons, List.length_cons, Nat.add_right_cancel_iff, and_iff_right h]

lemma head?_withCarriageReturns (s : Bytes) : (withCarriageReturns s).head? ≠ some 0x0A := by
  cases s with
  | nil => simp [withCarriageReturns]
  | cons b s =>
    rw [withCarriageReturns, List.flatMap_cons]
    split_ifs with hb
    · simp
    · simpa using hb

/-- **A carriage return before every newline** is not stored. -/
lemma dropCarriageReturns_withCarriageReturns (s : Bytes) :
    dropCarriageReturns (withCarriageReturns s) = s := by
  induction s with
  | nil => rfl
  | cons b s ih =>
    have hcons : withCarriageReturns (b :: s) =
        (if b = 0x0A then [0x0D, 0x0A] else [b]) ++ withCarriageReturns s := by
      rw [withCarriageReturns, List.flatMap_cons, withCarriageReturns]
    rw [hcons]
    split_ifs with hb
    · rw [List.cons_append, List.singleton_append, dropCarriageReturns_cons,
        if_pos (by simp), dropCarriageReturns_cons, if_neg (by simp), ih, hb]
    · rw [List.singleton_append, dropCarriageReturns_cons,
        if_neg (fun h => head?_withCarriageReturns s h.2), ih]

/-- The file holds all bytes of a text in order, but for the carriage returns that have a newline
right behind them, and is marked if there was one. -/
structure StoredFrom (f : SourceFile) (raw : Bytes) (flags : FileFlags) : Prop where
  content : f.content =
    (List.range raw.length).filterMap fun i => if EndsLine raw i then none else raw[i]?
  newlines : f.newlines = newlinesFrom 0 f.content
  hash : f.hash = sha256 f.content
  flags : f.flags =
    if ∃ i < raw.length, EndsLine raw i then flags ||| FileFlags.carriageReturns else flags

lemma StoredFrom.marked_iff {f : SourceFile} {content : Bytes} {flags : FileFlags}
    (h : f.StoredFrom content flags) (hflags : flags &&& FileFlags.carriageReturns = 0) :
    f.flags &&& FileFlags.carriageReturns ≠ 0 ↔ ∃ i, EndsLine content i := by
  have hset : ∀ flags : FileFlags, (flags ||| FileFlags.carriageReturns) &&&
      FileFlags.carriageReturns = FileFlags.carriageReturns := by
    intro flags
    apply UInt8.toBitVec_inj.1
    ext i hi
    simp only [UInt8.toBitVec_and, UInt8.toBitVec_or, BitVec.getElem_and, BitVec.getElem_or,
      Bool.and_eq_right_iff_imp]
    exact fun hbit => by rw [hbit, Bool.or_true]
  rw [h.flags]
  split_ifs with hany
  · rw [hset]
    exact iff_of_true (by decide) (hany.imp fun _ => And.right)
  · refine iff_of_false (not_not.2 hflags) fun ⟨i, hi⟩ => hany ⟨i, ?_, hi⟩
    exact (List.getElem?_eq_some_iff.1 hi.1).1

/-- The file without its marks. -/
def unmarked (f : SourceFile) : SourceFile := { f with flags := 0 }

end SourceFile

/-! ### Files that differ in their marks -/

namespace SourceSet

open SourceFile

/-- The two sets have the same files in the same order, marks apart. -/
def Alike (s t : SourceSet) : Prop :=
  s.files.toList.map unmarked = t.files.toList.map unmarked

namespace Alike

variable {s t : SourceSet}

lemma size_eq (h : s.Alike t) : s.size = t.size := by
  have := congrArg List.length h
  simpa [size] using this

lemma get?_cases (h : s.Alike t) (id : FileId) :
    s.get? id = none ∧ t.get? id = none ∨
      ∃ f g, s.get? id = some f ∧ t.get? id = some g ∧ f.unmarked = g.unmarked := by
  have hget : (s.get? id).map unmarked = (t.get? id).map unmarked := by
    unfold get?
    split_ifs
    · rfl
    · rw [← Array.getElem?_toList, ← Array.getElem?_toList, ← List.getElem?_map, h,
        List.getElem?_map]
  cases hs : s.get? id with
  | none =>
    rw [hs] at hget
    exact .inl ⟨rfl, Option.map_eq_none_iff.1 hget.symm⟩
  | some f =>
    rw [hs] at hget
    obtain ⟨g, hg, hfg⟩ := Option.map_eq_some_iff.1 hget.symm
    exact .inr ⟨f, g, rfl, hg, hfg.symm⟩

lemma get_bind {α : Type} {next : SourceFile → Except Fault α}
    (hnext : ∀ f, next f.unmarked = next f) (h : s.Alike t) (id : FileId) :
    s.get id >>= next = t.get id >>= next := by
  unfold SourceSet.get
  rcases h.get?_cases id with ⟨hs, ht⟩ | ⟨f, g, hs, ht, hfg⟩
  · rw [hs, ht]
  · rw [hs, ht]
    show next f = next g
    rw [← hnext f, hfg, hnext g]

lemma find?_eq (h : s.Alike t) (dotPath : Bytes) : s.find? dotPath = t.find? dotPath := by
  have hfind : ∀ u : SourceSet, u.find? dotPath =
      ((u.files.toList.map unmarked).find? fun f => f.dotPath = dotPath).map SourceFile.id := by
    intro u
    rw [find?, List.find?_map, Option.map_map, ← Array.find?_toList]
    rfl
  rw [hfind, hfind, h]

/-- **Reading** does not depend on marks. -/
lemma parse_eq (h : s.Alike t) : s.parse = t.parse := by
  have hparse : ∀ u : SourceSet,
      u.parse = (u.files.toList.map unmarked).foldl ParsedSources.add ParsedSources.empty := by
    intro u
    rw [List.foldl_map]
    rfl
  rw [hparse, hparse, h]

lemma fingerprint_eq (h : s.Alike t) : s.fingerprint = t.fingerprint := by
  have hprint : ∀ u : SourceSet, u.fingerprint =
      Digest.combine Digest.zero ((u.files.toList.map unmarked).map SourceFile.fingerprint) := by
    intro u
    rw [List.map_map]
    rfl
  rw [hprint, hprint, h]

lemma resolve_eq (h : s.Alike t) : ImportIndex.resolve s = ImportIndex.resolve t := by
  funext root file i
  simp only [ImportIndex.resolve, h.find?_eq]
  split_ifs
  · rfl
  · exact h.get_bind (fun _ => rfl) file

/-- **Resolving** does not depend on marks. -/
lemma ofTree_eq (h : s.Alike t) : Resolution.ofTree s = Resolution.ofTree t := by
  have hregister : Resolution.registerItem s = Resolution.registerItem t := by
    funext root file r item
    simp only [Resolution.registerItem, ImportIndex.register, h.resolve_eq]
  have hconsolidate : ∀ x : ImportIndex, x.consolidate s = x.consolidate t := by
    intro x
    simp only [ImportIndex.consolidate, ids, h.size_eq]
  funext tree root
  simp only [Resolution.ofTree, Resolution.index, hregister, hconsolidate]

lemma lower_eq (h : s.Alike t) : Plan.lower s = Plan.lower t := by
  have hglobals : Plan.globalsOf s = Plan.globalsOf t := by
    funext tree m
    unfold Plan.globalsOf
    exact congrArg (List.mapM · _) (funext fun d => h.get_bind (fun _ => rfl) m.file)
  funext r
  simp only [Plan.lower, Plan.placed, hglobals]

lemma positions_eq (h : s.Alike t) (span : Span) : s.positions span = t.positions span :=
  h.get_bind (fun _ => rfl) span.file

lemma text_eq (h : s.Alike t) (span : Span) : s.text span = t.text span := by
  unfold SourceSet.text
  split_ifs
  · rfl
  · exact h.get_bind (fun _ => rfl) span.file

/-! ### What is shown -/

lemma lineText_eq (h : s.Alike t) :
    Diagnostic.lineText (some s) = Diagnostic.lineText (some t) := by
  funext colored severity message span
  unfold Diagnostic.lineText Diagnostic.locate
  rcases h.get?_cases span.file with ⟨hs, ht⟩ | ⟨f, g, hs, ht, hfg⟩
  · simp only [Option.bind_eq_bind, Option.bind_some, hs, ht]
  · have hposition : f.position = g.position := (congrArg SourceFile.position hfg :)
    have hplace : Diagnostic.placeText f = Diagnostic.placeText g :=
      (congrArg Diagnostic.placeText hfg :)
    simp only [Option.bind_eq_bind, Option.bind_some, hs, ht, Option.pure_def, hposition, hplace]

lemma context_eq (h : s.Alike t) : Diagnostic.context (some s) = Diagnostic.context (some t) := by
  funext span
  unfold Diagnostic.context Diagnostic.locate
  rcases h.get?_cases span.file with ⟨hs, ht⟩ | ⟨f, g, hs, ht, hfg⟩
  · simp only [Option.bind_eq_bind, Option.bind_some, hs, ht, Option.bind_none]
  · have hposition : f.position = g.position := (congrArg SourceFile.position hfg :)
    have hline : f.line = g.line := (congrArg SourceFile.line hfg :)
    simp only [Option.bind_eq_bind, Option.bind_some, hs, ht, Option.pure_def, hposition, hline]

lemma placeMember_eq (h : s.Alike t) : Bag.placeMember (some s) = Bag.placeMember (some t) := by
  funext positions span
  unfold Bag.placeMember Diagnostic.locate
  rcases h.get?_cases span.file with ⟨hs, ht⟩ | ⟨f, g, hs, ht, hfg⟩
  · simp only [Option.bind_eq_bind, Option.bind_some, hs, ht]
  · have hposition : f.position = g.position := (congrArg SourceFile.position hfg :)
    have hpath : f.path = g.path := (congrArg SourceFile.path hfg :)
    simp only [Option.bind_eq_bind, Option.bind_some, hs, ht, Option.pure_def, hposition, hpath]

lemma store (h : s.Alike t) (path dotPath : Bytes) {content content' : Bytes}
    (hc : dropCarriageReturns content = dropCarriageReturns content') (flags flags' : FileFlags) :
    (s.store path dotPath content flags).1 = (t.store path dotPath content' flags').1 ∧
      (s.store path dotPath content flags).2.Alike (t.store path dotPath content' flags').2 := by
  have hsize : s.files.size = t.files.size := h.size_eq
  unfold SourceSet.store Alike
  simp only [Array.toList_push, List.map_append, List.map_cons, List.map_nil, hsize, hc]
  exact ⟨trivial, congrArg (· ++ _) h⟩

end Alike

/-- Nothing that is made of the two sets tells one from the other: neither the items with their
spans and the errors, nor what names mean, nor the plan, nor places and texts of spans, nor the
written forms of diagnostics, nor the fingerprint. -/
structure ReadAlike (s t : SourceSet) : Prop where
  parse : s.parse = t.parse
  resolution : ∀ tree root, Resolution.ofTree s tree root = Resolution.ofTree t tree root
  plan : ∀ r, Plan.lower s r = Plan.lower t r
  positions : ∀ span, s.positions span = t.positions span
  text : ∀ span, s.text span = t.text span
  display : ∀ (b : Bag) colored, b.display (some s) colored = b.display (some t) colored
  pretty : ∀ (b : Bag) colored notes context,
    b.pretty (some s) colored notes context = b.pretty (some t) colored notes context
  json : ∀ (b : Bag) positions notes most,
    b.json (some s) positions notes most = b.json (some t) positions notes most
  fingerprint : s.fingerprint = t.fingerprint

lemma Alike.readAlike {s t : SourceSet} (h : s.Alike t) : s.ReadAlike t where
  parse := h.parse_eq
  resolution tree root := by rw [h.ofTree_eq]
  plan r := by rw [h.lower_eq]
  positions := h.positions_eq
  text := h.text_eq
  display b colored := by
    have hdisplay : Diagnostic.display (some s) = Diagnostic.display (some t) := by
      funext colored d
      simp only [Diagnostic.display, Diagnostic.notesText, h.lineText_eq]
    rw [Bag.display, Bag.display, hdisplay]
  pretty b colored notes context := by
    simp only [Bag.pretty, Diagnostic.notesText, h.lineText_eq, h.context_eq]
  json b positions notes most := by
    have hnote : Bag.noteJson (some s) = Bag.noteJson (some t) := by
      funext positions n
      simp only [Bag.noteJson, h.placeMember_eq]
    have hjson : Bag.diagnosticJson (some s) = Bag.diagnosticJson (some t) := by
      funext positions notes d
      simp only [Bag.diagnosticJson, hnote, h.placeMember_eq]
    simp only [Bag.json, hjson]
  fingerprint := h.fingerprint_eq

lemma add_of_fits {s : SourceSet} {content : Bytes} (hcontent : content.length < 2 ^ 32)
    (hsize : s.size + 1 < 2 ^ 32) (path dotPath : Bytes) (flags : FileFlags) :
    s.add path dotPath content flags = .ok (s.store path dotPath content flags) := by
  have hsmall : ¬ UInt32.size ≤ content.length := Nat.not_le.2 hcontent
  have hfew : ¬ UInt32.size ≤ s.size + 1 := Nat.not_le.2 hsize
  rw [SourceSet.add, if_neg hsmall, if_neg hfew]

lemma get?_store (s : SourceSet) (path dotPath content : Bytes) (flags : FileFlags) :
    ∃ f, (s.store path dotPath content flags).2.get? (s.store path dotPath content flags).1 =
        some f ∧
      f.content = dropCarriageReturns content ∧ f.StoredFrom content flags := by
  refine ⟨_, by
    rw [SourceSet.store, get?, if_neg (Nat.succ_ne_zero _), Nat.add_sub_cancel,
      Array.getElem?_push_size], rfl, dropCarriageReturns_eq content, rfl, rfl, ?_⟩
  have hmarked : (dropCarriageReturns content).length = content.length ↔
      ¬ ∃ i < content.length, EndsLine content i := by
    rw [length_dropCarriageReturns_iff, not_exists]
    refine forall_congr' fun i => not_congr ⟨fun h => ⟨?_, h⟩, And.right⟩
    exact (List.getElem?_eq_some_iff.1 h.1).1
  simp only [hmarked]
  split_ifs <;> rfl

/-- **The style of line ends is invisible.** Every text with a carriage return before each newline
is stored as that text, and the files of a set can not be told, marks apart, from files stored with
the same texts in whatever way. Of every content all is stored but the carriage returns right
before newlines, and the file is marked exactly if there was one. This holds of contents shorter
than `2 ^ 32` bytes, the carriage returns included, as long as files can be counted in words: others
are refused. -/
theorem add_withCarriageReturns {s t : SourceSet} (h : s.Alike t)
    (path dotPath text content : Bytes) (flags flags' : FileFlags)
    (hc : dropCarriageReturns content = text)
    (hflags : flags' &&& FileFlags.carriageReturns = 0) (hsize : s.size + 1 < 2 ^ 32)
    (htext : (withCarriageReturns text).length < 2 ^ 32) (hcontent : content.length < 2 ^ 32) :
    ∃ a b, s.add path dotPath (withCarriageReturns text) flags = .ok a ∧
      t.add path dotPath content flags' = .ok b ∧
      (∃ f, a.2.get? a.1 = some f ∧ f.content = text ∧ f.newlines = newlinesFrom 0 text ∧
        f.hash = sha256 text) ∧
      a.1 = b.1 ∧ a.2.Alike b.2 ∧ a.2.ReadAlike b.2 ∧
      ∃ g, b.2.get? b.1 = some g ∧ g.content = text ∧ g.StoredFrom content flags' ∧
        (g.flags &&& FileFlags.carriageReturns ≠ 0 ↔ ∃ i, EndsLine content i) := by
  obtain ⟨f, hf, htext', hstored⟩ := get?_store s path dotPath (withCarriageReturns text) flags
  obtain ⟨g, hg, hcontent', hstored'⟩ := get?_store t path dotPath content flags'
  rw [dropCarriageReturns_withCarriageReturns] at htext'
  obtain ⟨hid, halike⟩ := h.store path dotPath
    ((dropCarriageReturns_withCarriageReturns text).trans hc.symm) flags flags'
  refine ⟨_, _, add_of_fits htext hsize path dotPath flags,
    add_of_fits hcontent (h.size_eq ▸ hsize) path dotPath flags', ⟨f, hf, htext', ?_, ?_⟩, hid,
    halike, halike.readAlike, g, hg, hcontent'.trans hc, hstored', hstored'.marked_iff hflags⟩
  · rw [hstored.newlines, htext']
  · rw [hstored.hash, htext']

/-- A text with a carriage return before its first newline and one at its end. -/
def mixedEnds : Bytes := "a\r\nb\n\r"

/-- Stored behind a file whose line ends differ in the two sets: once with a carriage return before
each newline, and once with one before the first newline only. -/
theorem add_withCarriageReturns_mixed :
    let s := (empty.store "z.gpex" "z" "z\r\n" 0).2
    let t := (empty.store "z.gpex" "z" "z\n" FileFlags.inMemory).2
    s.Alike t ∧ dropCarriageReturns ("a\r\r\nb\n\r" : Bytes) = mixedEnds ∧
      FileFlags.inMemory &&& FileFlags.carriageReturns = 0 ∧
      withCarriageReturns mixedEnds = ("a\r\r\nb\r\n\r" : Bytes) ∧
      ∃ a b, s.add "y.gpex" "y" (withCarriageReturns mixedEnds) 0 = .ok a ∧
        t.add "y.gpex" "y" "a\r\r\nb\n\r" FileFlags.inMemory = .ok b ∧
        (∃ f, a.2.get? a.1 = some f ∧ f.content = mixedEnds ∧ f.newlines = [2, 4]) ∧
        a.2.parse = b.2.parse ∧ a.2.fingerprint = b.2.fingerprint ∧
        ∃ g, b.2.get? b.1 = some g ∧ g.content = mixedEnds ∧
          g.flags &&& FileFlags.carriageReturns ≠ 0 := by
  intro s t
  have halike : s.Alike t := ((show empty.Alike empty from rfl).store _ _ (by decide) _ _).2
  have hstored : dropCarriageReturns ("a\r\r\nb\n\r" : Bytes) = mixedEnds := by decide
  have hflags : FileFlags.inMemory &&& FileFlags.carriageReturns = 0 := by decide
  have hsize : s.size + 1 < 2 ^ 32 := by simp [s, SourceSet.store, SourceSet.size, empty]
  obtain ⟨a, b, ha, hb, ⟨f, hf, htext, hnewlines, -⟩, -, -, hread, g, hg, hcontent, -, hmarked⟩ :=
    add_withCarriageReturns halike "y.gpex" "y" mixedEnds "a\r\r\nb\n\r" 0 FileFlags.inMemory
      hstored hflags hsize (by decide) (by decide)
  exact ⟨halike, hstored, hflags, by decide, a, b, ha, hb, ⟨f, hf, htext,
    hnewlines.trans (by decide)⟩, hread.parse, hread.fingerprint, g, hg, hcontent,
    hmarked.2 ⟨2, by decide⟩⟩

end SourceSet

end StateBuffer
