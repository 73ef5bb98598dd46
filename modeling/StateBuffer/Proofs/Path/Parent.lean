import StateBuffer.Proofs.Path.Within

/-!
Paths and the directories above them. The last component of a path that ends in a name stands behind
the names of its directory, and cleaning the directory loses nothing but dots as long as no `..`
cancels a name.
-/

namespace StateBuffer

namespace Path

variable {path : Bytes}

/-! ### Names -/

lemma names_append_cons (s t : Bytes) : names (s ++ separator :: t) = names s ++ names t := by
  rw [names, Bytes.split_append_cons, List.filter_append, names, names]

lemma names_append_separator (s : Bytes) : names (s ++ [separator]) = names s := by
  rw [names_append_cons]
  exact List.append_nil _

lemma names_of_notMem {c : Bytes} (hne : c ≠ []) (h : separator ∉ c) : names c = [c] := by
  rw [names, Bytes.split_of_notMem h]
  exact List.filter_cons_of_pos (by simpa using hne)

lemma names_trimEndOf (path : Bytes) : names (Bytes.trimEndOf separator path) = names path := by
  induction path using List.reverseRecOn with
  | nil => rfl
  | append_singleton path b ih =>
    by_cases hb : b = separator
    · rw [hb, names_append_separator, ← ih, Bytes.trimEndOf, List.reverse_append]
      simp [Bytes.trimEndOf]
    · simp [Bytes.trimEndOf, hb]

lemma getLast?_trimEndOf_ne (path : Bytes) :
    (Bytes.trimEndOf separator path).getLast? ≠ some separator := by
  rw [Bytes.trimEndOf, List.getLast?_reverse]
  intro hhead
  have hnot := List.head?_dropWhile_not (· = separator) path.reverse
  rw [hhead] at hnot
  exact absurd hnot (by simp)

lemma trimEndOf_isPrefix (path : Bytes) : Bytes.trimEndOf separator path <+: path := by
  rw [Bytes.trimEndOf, ← List.reverse_suffix, List.reverse_reverse]
  exact List.dropWhile_suffix _

lemma isAbsolute_of_isPrefix {s : Bytes} (h : s <+: path) (hne : s ≠ []) :
    isAbsolute s = isAbsolute path := by
  obtain ⟨t, rfl⟩ := h
  obtain ⟨b, rest, rfl⟩ := List.exists_cons_of_ne_nil hne
  rfl

/-! ### Above the last slash -/

/-- A path up to its last slash, this slash included. -/
def above (path : Bytes) : Bytes := (path.reverse.dropWhile (· ≠ separator)).reverse

/-- What comes behind the last slash of a path. -/
def last (path : Bytes) : Bytes := (path.reverse.takeWhile (· ≠ separator)).reverse

lemma above_append_last (path : Bytes) : above path ++ last path = path := by
  rw [above, last, ← List.reverse_append, List.takeWhile_append_dropWhile, List.reverse_reverse]

lemma separator_notMem_last (path : Bytes) : separator ∉ last path := fun hmem => by
  have h := List.mem_takeWhile_imp (List.mem_reverse.1 hmem)
  exact absurd h (by simp)

lemma above_eq_nil_or (path : Bytes) : above path = [] ∨ ∃ s, above path = s ++ [separator] := by
  rw [above]
  cases hdrop : path.reverse.dropWhile (· ≠ separator) with
  | nil => exact .inl rfl
  | cons b rest =>
    have hb : b = separator := by
      have h := List.head?_dropWhile_not (· ≠ separator) path.reverse
      rw [hdrop] at h
      simpa using h
    exact .inr ⟨rest.reverse, by rw [List.reverse_cons, hb]⟩

lemma names_eq (path : Bytes) (hne : last path ≠ []) :
    names path = names (above path) ++ [last path] := by
  have hlast := names_of_notMem hne (separator_notMem_last path)
  conv_lhs => rw [← above_append_last path]
  rcases above_eq_nil_or path with hnil | ⟨s, hs⟩
  · rw [hnil]
    exact hlast
  · rw [hs, List.append_assoc, List.singleton_append, names_append_cons, hlast,
      names_append_separator]

/-! ### Dots -/

/-- Components without `.`, which leads nowhere. -/
def withoutDots (todo : List Bytes) : List Bytes := todo.filter (· ≠ ".")

lemma withoutDots_append (s t : List Bytes) :
    withoutDots (s ++ t) = withoutDots s ++ withoutDots t := List.filter_append ..

lemma withoutDots_dot_cons (todo : List Bytes) : withoutDots ("." :: todo) = withoutDots todo :=
  List.filter_cons_of_neg (by simp)

lemma withoutDots_cons {c : Bytes} (h : c ≠ ".") (todo : List Bytes) :
    withoutDots (c :: todo) = c :: withoutDots todo := List.filter_cons_of_pos (by simpa using h)

/-- A stack on which no `..` lies above a name. -/
def NoUpOnTop (stack : List Bytes) : Prop := ∃ plain ups, stack = plain ++ ups ∧
  (∀ c ∈ plain, Stays c) ∧ ∀ c ∈ ups, c = ".."

lemma NoUpOnTop.push {stack : List Bytes} (h : NoUpOnTop stack) (rooted : Bool) (c : Bytes) :
    NoUpOnTop (push rooted stack c) := by
  obtain ⟨plain, ups, rfl, hplain, hups⟩ := h
  rcases skip_or_up_or_stays c with hskip | rfl | hstays
  · rw [push_of_skip hskip]
    exact ⟨plain, ups, rfl, hplain, hups⟩
  · cases plain with
    | cons top plain =>
      obtain ⟨htop, hplain⟩ := List.forall_mem_cons.1 hplain
      rw [List.cons_append, push_up_cons, if_neg htop.2.2]
      exact ⟨plain, ups, rfl, hplain, hups⟩
    | nil =>
      have hup : NoUpOnTop (".." :: ups) :=
        ⟨[], ".." :: ups, rfl, hplain, List.forall_mem_cons.2 ⟨rfl, hups⟩⟩
      cases ups with
      | cons top ups =>
        rw [List.nil_append, push_up_cons, if_pos (hups top List.mem_cons_self)]
        exact hup
      | nil =>
        cases rooted with
        | true => exact ⟨[], [], rfl, hplain, hups⟩
        | false => exact hup
  · rw [push_of_stays hstays]
    exact ⟨c :: plain, ups, rfl, List.forall_mem_cons.2 ⟨hstays, hplain⟩, hups⟩

/-- **The components** of a path are some `..` and then names. -/
lemma exists_components (path : Bytes) : ∃ ups plain, components path = ups ++ plain ∧
    (∀ c ∈ ups, c = "..") ∧ ∀ c ∈ plain, Stays c := by
  have hfold : ∀ (parts : List Bytes) {stack : List Bytes}, NoUpOnTop stack →
      NoUpOnTop (parts.foldl (Path.push (isAbsolute path)) stack) := by
    intro parts
    induction parts with
    | nil => exact fun h => h
    | cons part parts ih => exact fun h => ih (h.push _ part)
  have hempty : NoUpOnTop [] := ⟨[], [], rfl, by simp, by simp⟩
  obtain ⟨plain, ups, hstack, hplain, hups⟩ := hfold (Bytes.split separator path) hempty
  refine ⟨ups.reverse, plain.reverse, ?_, fun c hc => hups c (List.mem_reverse.1 hc),
    fun c hc => hplain c (List.mem_reverse.1 hc)⟩
  rw [components, hstack, List.reverse_append]

/-- Dots come before all names only. -/
def LeadsDown (path : Bytes) : Prop := ∃ dots plain, names path = dots ++ plain ∧
  (∀ c ∈ dots, c = "." ∨ c = "..") ∧ ∀ c ∈ plain, Stays c

lemma names_clean_eq_or (path : Bytes) : names (clean path) = components path ∨
    names (clean path) = ["."] ∧ components path = [] := by
  have hparts : ∀ c ∈ components path, c ≠ [] ∧ separator ∉ c := fun c hc =>
    (of_mem_components hc).symm
  rw [clean]
  cases isAbsolute path with
  | true => exact .inl (names_ofComponents hparts)
  | false =>
    by_cases hnil : components path = []
    · rw [hnil]
      exact .inr ⟨rfl, rfl⟩
    · have hsplit := Bytes.split_join hnil fun c hc => (hparts c hc).2
      rw [ofComponents, if_neg (by decide), if_neg (by simpa using hnil), names, hsplit]
      exact .inl (List.filter_eq_self.2 fun c hc => by simpa using (hparts c hc).1)

lemma leadsDown_clean (path : Bytes) : LeadsDown (clean path) := by
  rcases names_clean_eq_or path with h | ⟨h, -⟩
  · obtain ⟨ups, plain, hcomponents, hups, hplain⟩ := exists_components path
    exact ⟨ups, plain, h.trans hcomponents, fun c hc => .inr (hups c hc), hplain⟩
  · exact ⟨["."], [], h, by simp, by simp⟩

lemma withoutDots_names_clean (path : Bytes) :
    withoutDots (names (clean path)) = components path := by
  rcases names_clean_eq_or path with h | ⟨h, hnil⟩
  · obtain ⟨ups, plain, hcomponents, hups, hplain⟩ := exists_components path
    rw [h, hcomponents]
    refine List.filter_eq_self.2 fun c hc => ?_
    rcases List.mem_append.1 hc with hc | hc
    · exact hups c hc ▸ by decide
    · simpa using (hplain c hc).2.1
  · rw [h, hnil]
    exact withoutDots_dot_cons []

lemma isAbsolute_clean_eq (path : Bytes) : isAbsolute (clean path) = isAbsolute path := by
  cases habs : isAbsolute path with
  | true => exact isAbsolute_clean habs
  | false =>
    rw [clean, habs, ofComponents, if_neg (by decide)]
    cases hparts : components path with
    | nil => rfl
    | cons c rest =>
      obtain ⟨hsep, hne⟩ := of_mem_components (hparts ▸ List.mem_cons_self : c ∈ components path)
      obtain ⟨b, c, rfl⟩ := List.exists_cons_of_ne_nil hne
      have hb : b ≠ separator := fun hb => hsep (hb ▸ List.mem_cons_self)
      cases rest <;> simpa [isAbsolute, Bytes.join] using hb

/-! ### Paths that end in a name -/

/-- The path ends in a name, and no `..` in it cancels a name. -/
structure EndsInName (path : Bytes) : Prop where
  stays_last : Stays (last path)
  components_eq : components path = withoutDots (names path)

lemma components_eq_append (h : Stays (last path)) :
    isAbsolute path = isAbsolute (above path) ∧
      components path = components (above path) ++ [last path] := by
  have hsep := separator_notMem_last path
  rcases above_eq_nil_or path with hnil | ⟨s, hs⟩
  · have hpath : last path = path := by simpa [hnil] using above_append_last path
    have hsplit := Bytes.split_of_notMem hsep
    rw [hpath] at h hsplit ⊢
    have hrel : isAbsolute path = false := not_isAbsolute_of_isWay fun part hpart => by
      rw [hsplit, List.mem_singleton] at hpart
      exact hpart ▸ h
    rw [hnil, components, hrel, hsplit, List.foldl_cons, push_of_stays h]
    exact ⟨rfl, rfl⟩
  · have hpath : s ++ separator :: last path = path := by
      simpa [hs] using above_append_last path
    have habs : isAbsolute path = isAbsolute (s ++ [separator]) := by
      rw [← hpath]
      exact isAbsolute_append_cons s _
    have hsplit : Bytes.split separator path = Bytes.split separator s ++ [last path] := by
      conv_lhs => rw [← hpath]
      rw [Bytes.split_append_cons, Bytes.split_of_notMem hsep]
    rw [hs, components, components, habs, hsplit, Bytes.split_append_cons, List.foldl_append,
      List.foldl_append, List.foldl_cons, push_of_stays h]
    exact ⟨rfl, List.reverse_cons⟩

namespace EndsInName

lemma isAbsolute_dir (h : EndsInName path) : isAbsolute (dir path) = isAbsolute path :=
  (isAbsolute_clean_eq (above path)).trans (components_eq_append h.stays_last).1.symm

/-- **The last component** comes right behind the directory. -/
lemma withoutDots_names (h : EndsInName path) :
    withoutDots (names path) = withoutDots (names (dir path) ++ [last path]) := by
  rw [← h.components_eq, (components_eq_append h.stays_last).2, withoutDots_append,
    withoutDots_cons h.stays_last.2.1]
  exact congrArg (· ++ [last path]) (withoutDots_names_clean (above path)).symm

lemma getLast?_ne (h : EndsInName path) : path.getLast? ≠ some separator := by
  rw [← above_append_last path, List.getLast?_append_of_ne_nil _ h.stays_last.1]
  exact fun hlast => separator_notMem_last path (List.mem_of_getLast? hlast)

end EndsInName

end Path

end StateBuffer
