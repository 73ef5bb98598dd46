import StateBuffer.Path
import StateBuffer.Proofs.Text.Split

/-!
Cleaned paths. Cleaning pushes the components of a path on a stack, which holds no empty component
and none with a slash. Components that are not empty, `.` or `..` stay on the stack. So two ways of
such components down from one directory lead to the same path only if they are the same way, however
the directory is written.
-/

namespace StateBuffer

namespace Path

/-! ### The stack -/

section Stack

variable {rooted : Bool} {stack parts : List Bytes} {c : Bytes}

lemma of_mem_push {component : Bytes} (h : c ∈ push rooted stack component) :
    c ∈ stack ∨ c = component ∧ c ≠ [] := by
  unfold push at h
  by_cases hskip : component = [] ∨ component = "."
  · rw [if_pos hskip] at h
    exact .inl h
  rw [if_neg hskip] at h
  have hcons : c ∈ component :: stack → c ∈ stack ∨ c = component ∧ c ≠ [] := by
    intro h
    rcases List.mem_cons.1 h with rfl | h
    · exact .inr ⟨rfl, fun he => hskip (.inl he)⟩
    · exact .inl h
  by_cases hup : component = ".."
  · rw [if_pos hup] at h
    cases stack with
    | nil =>
      cases rooted with
      | true => exact absurd h List.not_mem_nil
      | false => exact hcons h
    | cons top below =>
      simp only at h
      split_ifs at h
      · exact hcons h
      · exact .inl (List.mem_cons_of_mem _ h)
  · rw [if_neg hup] at h
    exact hcons h

lemma of_mem_foldl_push (h : c ∈ parts.foldl (push rooted) stack) :
    c ∈ stack ∨ c ∈ parts ∧ c ≠ [] := by
  induction parts generalizing stack with
  | nil => exact .inl h
  | cons part parts ih =>
    rcases ih h with h | ⟨h, hne⟩
    · rcases of_mem_push h with h | ⟨rfl, hne⟩
      · exact .inl h
      · exact .inr ⟨List.mem_cons_self, hne⟩
    · exact .inr ⟨List.mem_cons_of_mem _ h, hne⟩

lemma of_mem_components {path : Bytes} (h : c ∈ components path) : separator ∉ c ∧ c ≠ [] := by
  rcases of_mem_foldl_push (List.mem_reverse.1 h) with h | ⟨h, hne⟩
  · exact absurd h List.not_mem_nil
  · exact ⟨Bytes.notMem_of_mem_split h, hne⟩

/-- A component that stays on the stack. -/
def Stays (c : Bytes) : Prop := c ≠ [] ∧ c ≠ "." ∧ c ≠ ".."

lemma push_of_stays (h : Stays c) : push rooted stack c = c :: stack := by
  obtain ⟨hne, hdot, hup⟩ := h
  unfold push
  rw [if_neg (not_or.2 ⟨hne, hdot⟩), if_neg hup]

lemma foldl_push_of_stays (h : ∀ part ∈ parts, Stays part) :
    parts.foldl (push rooted) stack = parts.reverse ++ stack := by
  induction parts generalizing stack with
  | nil => rfl
  | cons part parts ih =>
    obtain ⟨hpart, hparts⟩ := List.forall_mem_cons.1 h
    rw [List.foldl_cons, push_of_stays hpart, ih hparts, List.reverse_cons, List.append_assoc,
      List.singleton_append]

end Stack

/-! ### Ways down -/

/-- A path whose components all stay. -/
def IsWay (way : Bytes) : Prop := ∀ part ∈ Bytes.split separator way, Stays part

lemma isAbsolute_append_cons (s t : Bytes) :
    isAbsolute (s ++ separator :: t) = isAbsolute (s ++ [separator]) := by
  cases s <;> rfl

lemma not_isAbsolute_of_isWay {way : Bytes} (h : IsWay way) : isAbsolute way = false := by
  cases way with
  | nil => rfl
  | cons b rest =>
    refine decide_eq_false fun hb => ?_
    obtain rfl : b = separator := Option.some.inj hb
    have hnil : [] ∈ Bytes.split separator (separator :: rest) := by
      rw [Bytes.split_cons_self]
      exact List.mem_cons_self
    exact (h [] hnil).1 rfl

lemma exists_join (root : Bytes) : ∃ rooted above, (∀ c ∈ above, separator ∉ c) ∧
    ∀ way, IsWay way →
      join [root, way] = ofComponents rooted (above ++ Bytes.split separator way) := by
  by_cases hroot : root = []
  · refine ⟨false, [], by simp, fun way h => ?_⟩
    have hway : way ≠ [] := by
      rintro rfl
      exact (h [] List.mem_cons_self).1 rfl
    have hjoin : join [root, way] = clean way := by simp [join, hroot, hway, Bytes.join]
    rw [hjoin, clean, components, not_isAbsolute_of_isWay h, foldl_push_of_stays h,
      List.append_nil, List.reverse_reverse, List.nil_append]
  · refine ⟨isAbsolute (root ++ [separator]), ((Bytes.split separator root).foldl
      (push (isAbsolute (root ++ [separator]))) []).reverse, fun c hc => ?_, fun way h => ?_⟩
    · rcases of_mem_foldl_push (List.mem_reverse.1 hc) with hc | ⟨hc, -⟩
      · exact absurd hc List.not_mem_nil
      · exact Bytes.notMem_of_mem_split hc
    · have hjoin : join [root, way] = clean (root ++ separator :: way) := by
        simp [join, hroot, Bytes.join]
      rw [hjoin, clean, components, isAbsolute_append_cons, Bytes.split_append_cons,
        List.foldl_append, foldl_push_of_stays h, List.reverse_append, List.reverse_reverse]

lemma ofComponents_inj {rooted : Bool} {parts parts' : List Bytes} (hne : parts ≠ [])
    (hne' : parts' ≠ []) (h : ∀ part ∈ parts, separator ∉ part)
    (h' : ∀ part ∈ parts', separator ∉ part)
    (heq : ofComponents rooted parts = ofComponents rooted parts') : parts = parts' := by
  have hjoin : Bytes.join [separator] parts = Bytes.join [separator] parts' := by
    cases rooted with
    | true => exact (List.cons.inj heq).2
    | false => simpa [ofComponents, hne, hne'] using heq
  rw [← Bytes.split_join hne h, hjoin, Bytes.split_join hne' h']

/-- **Ways down** from one directory to one path are the same. -/
theorem join_inj {root way way' : Bytes} (h : IsWay way) (h' : IsWay way') :
    join [root, way] = join [root, way'] ↔ way = way' := by
  refine ⟨fun heq => ?_, fun heq => by rw [heq]⟩
  obtain ⟨rooted, above, habove, hjoin⟩ := exists_join root
  have hslash : ∀ way, ∀ part ∈ above ++ Bytes.split separator way, separator ∉ part :=
    fun way => List.forall_mem_append.2 ⟨habove, fun _ => Bytes.notMem_of_mem_split⟩
  have hne : ∀ way, above ++ Bytes.split separator way ≠ [] :=
    fun way => List.append_ne_nil_of_right_ne_nil _ (Bytes.split_ne_nil separator way)
  rw [hjoin way h, hjoin way' h'] at heq
  have hparts := List.append_cancel_left
    (ofComponents_inj (hne way) (hne way') (hslash way) (hslash way') heq)
  rw [← Bytes.join_split separator way, hparts, Bytes.join_split]

/-! ### Slashes at the end -/

lemma clean_slashes (s t : Bytes) :
    clean (s ++ separator :: separator :: t) = clean (s ++ separator :: t) := by
  rw [clean, clean, components, components, isAbsolute_append_cons, isAbsolute_append_cons s t]
  simp only [Bytes.split_append_cons, Bytes.split_cons_self, List.foldl_append, List.foldl_cons]
  rfl

lemma clean_trimEndOf (s t : Bytes) :
    clean (Bytes.trimEndOf separator s ++ separator :: t) = clean (s ++ separator :: t) := by
  induction s using List.reverseRecOn with
  | nil => rfl
  | append_singleton s b ih =>
    by_cases hb : b = separator
    · have htrim : Bytes.trimEndOf separator (s ++ [b]) = Bytes.trimEndOf separator s := by
        simp [Bytes.trimEndOf, hb]
      rw [htrim, ih, hb, List.append_assoc, List.singleton_append, clean_slashes]
    · have htrim : Bytes.trimEndOf separator (s ++ [b]) = s ++ [b] := by
        simp [Bytes.trimEndOf, hb]
      rw [htrim]

/-! ### From one path to another -/

lemma dropCommon_spec (as bs : List Bytes) :
    ∃ common, as = common ++ (dropCommon as bs).1 ∧ bs = common ++ (dropCommon as bs).2 := by
  fun_induction dropCommon as bs with
  | case1 as a bs ih =>
    obtain ⟨common, has, hbs⟩ := ih
    exact ⟨a :: common, by rw [List.cons_append, ← has], by rw [List.cons_append, ← hbs]⟩
  | case2 => exact ⟨[], rfl, rfl⟩
  | case3 => exact ⟨[], rfl, rfl⟩

lemma relative?_ne_nil {start target way : Bytes} (h : relative? start target = some way) :
    way ≠ [] := by
  unfold relative? at h
  split_ifs at h with hsame habsolute
  · obtain rfl := Option.some.inj h
    simp [Bytes.ofString]
  · obtain ⟨common, hstart, htarget⟩ := dropCommon_spec (components start) (components target)
    split at h
    rename_i up down hdrop
    rw [hdrop] at hstart htarget
    split_ifs at h
    obtain rfl := Option.some.inj h
    refine Bytes.join_ne_nil (fun hnil => ?_) fun hmem => ?_
    · -- nothing is left on either side: the paths are the same
      obtain ⟨hup, rfl⟩ := List.append_eq_nil_iff.1 hnil
      obtain rfl := List.map_eq_nil_iff.1 hup
      exact hsame (by rw [clean, clean, hstart, htarget, not_not.1 habsolute])
    · rcases List.mem_append.1 hmem with hmem | hmem
      · simp [Bytes.ofString] at hmem
      · have hdown : [] ∈ components target := by
          rw [htarget]
          exact List.mem_append_right _ hmem
        exact (of_mem_components hdown).2 rfl

end Path

end StateBuffer
