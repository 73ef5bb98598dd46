import Mathlib
import StateBuffer.Source.Fingerprint

/-!
What a fingerprint tells. Every digest has thirty-two bytes, so the text under the outer digest
falls apart into the digests of the files in one way only, and each of those into the digests of a
dot path and of a text. Hence two sets of files with one fingerprint have the same dot paths and
texts in the same order, unless two different texts among those hashed for them have one digest.
-/

namespace StateBuffer

lemma length_sha256 (message : Bytes) : (sha256 message).length = 32 := rfl

namespace Digest

lemma combine_singleton (first second : Digest) :
    combine first [second] = sha256 (first ++ second) := by
  simp [combine]

lemma flatten_inj {ds es : List Digest} (hd : ∀ d ∈ ds, d.length = 32)
    (he : ∀ e ∈ es, e.length = 32) (h : ds.flatten = es.flatten) : ds = es := by
  have hlength : ∀ {ds : List Digest}, (∀ d ∈ ds, d.length = 32) →
      ds.map List.length = List.replicate ds.length 32 := fun hds =>
    List.eq_replicate_iff.2 ⟨List.length_map _, List.forall_mem_map.2 hds⟩
  have hsum := congrArg List.length h
  rw [List.length_flatten, List.length_flatten, hlength hd, hlength he, List.sum_replicate,
    List.sum_replicate, smul_eq_mul, smul_eq_mul] at hsum
  refine List.eq_iff_flatten_eq.2 ⟨h, ?_⟩
  rw [hlength hd, hlength he, Nat.eq_of_mul_eq_mul_right (by decide) hsum]

end Digest

/-- The texts that are hashed for one file, its own digest included. -/
def SourceFile.hashed (f : SourceFile) : List Bytes :=
  [f.content, f.dotPath, sha256 f.dotPath ++ f.hash]

lemma SourceFile.fingerprint_eq (f : SourceFile) :
    f.fingerprint = sha256 (sha256 f.dotPath ++ f.hash) := Digest.combine_singleton _ _

namespace SourceSet

/-- The set was put together by storing one file after another. -/
inductive Built : SourceSet → Prop
  | empty : Built empty
  | store {s : SourceSet} (h : Built s) (path dotPath content : Bytes) (flags : FileFlags) :
      Built (s.store path dotPath content flags).2

/-- The dot paths and texts of the files in order. -/
def listing (s : SourceSet) : List (Bytes × Bytes) :=
  s.files.toList.map fun f => (f.dotPath, f.content)

/-- The text under the outer digest. -/
def outerText (s : SourceSet) : Bytes :=
  Digest.zero ++ (s.files.toList.map SourceFile.fingerprint).flatten

/-- All texts that are hashed for the fingerprint of a set. -/
def hashed (s : SourceSet) : List Bytes :=
  s.files.toList.flatMap SourceFile.hashed ++ [s.outerText]

lemma fingerprint_eq (s : SourceSet) : s.fingerprint = sha256 s.outerText := rfl

variable {s t : SourceSet}

lemma Built.hash_eq (h : s.Built) : ∀ f ∈ s.files.toList, f.hash = sha256 f.content := by
  induction h with
  | empty => exact fun f hf => absurd hf List.not_mem_nil
  | store _ path dotPath content flags ih =>
    intro f hf
    rw [SourceSet.store, Array.toList_push] at hf
    rcases List.mem_append.1 hf with hf | hf
    · exact ih f hf
    · rw [List.mem_singleton.1 hf]

lemma Built.fingerprint_eq (h : s.Built) : s.fingerprint =
    Digest.combine Digest.zero (s.listing.map fun e => sha256 (sha256 e.1 ++ sha256 e.2)) := by
  rw [fingerprint, listing, List.map_map]
  refine congrArg _ (List.map_congr_left fun f hf => ?_)
  rw [f.fingerprint_eq, h.hash_eq f hf]
  rfl

lemma mem_hashed {f : SourceFile} (hf : f ∈ s.files.toList) {x : Bytes} (hx : x ∈ f.hashed) :
    x ∈ s.hashed := List.mem_append_left _ (List.mem_flatMap.2 ⟨f, hf, hx⟩)

/-- No two different texts hashed for the one and for the other set have one digest. -/
def Unmixed (s t : SourceSet) : Prop :=
  ∀ x ∈ s.hashed, ∀ y ∈ t.hashed, sha256 x = sha256 y → x = y

lemma Unmixed.eq (h : Unmixed s t) {f g : SourceFile} (hf : f ∈ s.files.toList)
    (hg : g ∈ t.files.toList) {x y : Bytes} (hx : x ∈ f.hashed) (hy : y ∈ g.hashed)
    (hxy : sha256 x = sha256 y) : x = y :=
  h x (mem_hashed hf hx) y (mem_hashed hg hy) hxy

lemma Unmixed.file (h : Unmixed s t) (hs : s.Built) (ht : t.Built) {f g : SourceFile}
    (hf : f ∈ s.files.toList) (hg : g ∈ t.files.toList) (hfg : f.fingerprint = g.fingerprint) :
    (f.dotPath, f.content) = (g.dotPath, g.content) := by
  rw [f.fingerprint_eq, g.fingerprint_eq] at hfg
  have hboth : sha256 f.dotPath ++ f.hash = sha256 g.dotPath ++ g.hash :=
    h.eq hf hg (by simp [SourceFile.hashed]) (by simp [SourceFile.hashed]) hfg
  obtain ⟨hpath, hhash⟩ := List.append_inj hboth (by rw [length_sha256, length_sha256])
  rw [hs.hash_eq f hf, ht.hash_eq g hg] at hhash
  have hdot : f.dotPath = g.dotPath :=
    h.eq hf hg (by simp [SourceFile.hashed]) (by simp [SourceFile.hashed]) hpath
  have hcontent : f.content = g.content :=
    h.eq hf hg (by simp [SourceFile.hashed]) (by simp [SourceFile.hashed]) hhash
  rw [hdot, hcontent]

/-- **The outer digest**: the digests of the files are the same in the same order. -/
lemma Unmixed.files (h : Unmixed s t) (hst : s.fingerprint = t.fingerprint) :
    s.files.toList.map SourceFile.fingerprint = t.files.toList.map SourceFile.fingerprint := by
  have hlength : ∀ u : SourceSet, ∀ d ∈ u.files.toList.map SourceFile.fingerprint, d.length = 32 :=
    fun u => List.forall_mem_map.2 fun f _ => length_sha256 _
  have houter : s.outerText = t.outerText :=
    h _ (List.mem_append_right _ (List.mem_singleton_self _)) _
      (List.mem_append_right _ (List.mem_singleton_self _)) hst
  exact Digest.flatten_inj (hlength s) (hlength t) (List.append_cancel_left houter)

/-- Lists with the same values of one function have the same values of another, if the values of
the one decide those of the other. -/
lemma map_eq_of_map_eq {α β γ : Type} {f : α → β} {g : α → γ} {as bs : List α}
    (hfg : ∀ a ∈ as, ∀ b ∈ bs, f a = f b → g a = g b) (h : as.map f = bs.map f) :
    as.map g = bs.map g := by
  have hlength : as.length = bs.length := by simpa using congrArg List.length h
  refine List.ext_getElem (by simpa using hlength) fun i hi hi' => ?_
  rw [List.length_map] at hi hi'
  have hat : f as[i] = f bs[i] := by
    have := List.getElem_of_eq h (by simpa using hi)
    simpa using this
  simpa using hfg _ (List.getElem_mem hi) _ (List.getElem_mem hi') hat

/-- **The fingerprint identifies the files.** Two sets with one fingerprint list the same dot paths
with the same texts in the same order, and so are of one size, unless two different texts among
those hashed for them have one digest. -/
theorem listing_of_fingerprint (hs : s.Built) (ht : t.Built) (h : s.fingerprint = t.fingerprint) :
    s.listing = t.listing ∧ s.size = t.size ∨
      ∃ x ∈ s.hashed, ∃ y ∈ t.hashed, x ≠ y ∧ sha256 x = sha256 y := by
  refine or_iff_not_imp_right.2 fun hnone => ?_
  have hmixed : Unmixed s t := fun x hx y hy hxy => by
    by_contra hne
    exact hnone ⟨x, hx, y, hy, hne, hxy⟩
  have hlisting : s.listing = t.listing :=
    map_eq_of_map_eq (fun f hf g hg => hmixed.file hs ht hf hg) (hmixed.files h)
  refine ⟨hlisting, ?_⟩
  simpa [listing, size] using congrArg List.length hlisting

/-- Two files, their texts stored from other line ends and under other paths. -/
theorem listing_of_fingerprint_elsewhere :
    let s := ((empty.store "p/a.gpex" "a" "x\r\n" 0).2.store "p/b.gpex" "b" "" 0).2
    let t := ((empty.store "q/a.gpex" "a" "x\n" 0).2.store "b.gpex" "b" "" FileFlags.inMemory).2
    s.Built ∧ t.Built ∧ s.fingerprint = t.fingerprint ∧
      (s.listing = t.listing ∧ s.size = t.size ∨
        ∃ x ∈ s.hashed, ∃ y ∈ t.hashed, x ≠ y ∧ sha256 x = sha256 y) := by
  intro s t
  have hs : s.Built := (Built.empty.store _ _ _ _).store _ _ _ _
  have ht : t.Built := (Built.empty.store _ _ _ _).store _ _ _ _
  have hlisting : s.listing = t.listing := by decide
  have hst : s.fingerprint = t.fingerprint := by
    rw [hs.fingerprint_eq, ht.fingerprint_eq, hlisting]
  exact ⟨hs, ht, hst, listing_of_fingerprint hs ht hst⟩

end SourceSet

end StateBuffer
