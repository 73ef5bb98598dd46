import StateBuffer.Proofs.Path

/-!
Paths followed from directory to directory. A path leads down along its names, up along `..`, and
never above the root; cleaning a path and joining it to an absolute one keep where it leads. So a
path lies at or below a directory exactly if the names on the way to the directory come first on
the way that the path leads.
-/

namespace StateBuffer

namespace Path

/-- The names on a path: its components that are not empty. -/
def names (path : Bytes) : List Bytes := (Bytes.split separator path).filter fun c => !c.isEmpty

/-- One component followed from a directory, which is given by the names from the root down to it.
Above the root there is nothing but the root. -/
def stepFrom (here : List Bytes) (c : Bytes) : List Bytes :=
  if c = [] ∨ c = "." then here else if c = ".." then here.dropLast else here ++ [c]

def leadFrom (here : List Bytes) (path : Bytes) : List Bytes :=
  (Bytes.split separator path).foldl stepFrom here

/-- The path goes on below another one, by at least one component. -/
def LiesBelow (base path : Bytes) : Prop :=
  isAbsolute path = isAbsolute base ∧ ∃ rest, rest ≠ [] ∧ names path = names base ++ rest

/-! ### Following -/

section Following

variable {here stack parts : List Bytes} {c : Bytes}

lemma stepFrom_of_skip (h : c = [] ∨ c = ".") : stepFrom here c = here := if_pos h

lemma stepFrom_up : stepFrom here ".." = here.dropLast := by
  rw [stepFrom, if_neg (by decide), if_pos rfl]

lemma stepFrom_of_stays (h : Stays c) : stepFrom here c = here ++ [c] := by
  rw [stepFrom, if_neg (not_or.2 ⟨h.1, h.2.1⟩), if_neg h.2.2]

lemma leadFrom_append (here : List Bytes) (s t : Bytes) :
    leadFrom here (s ++ separator :: t) = leadFrom (leadFrom here s) t := by
  rw [leadFrom, Bytes.split_append_cons, List.foldl_append, leadFrom, leadFrom]

lemma push_of_skip {rooted : Bool} (h : c = [] ∨ c = ".") : push rooted stack c = stack := if_pos h

lemma push_up_cons (rooted : Bool) (top : Bytes) (below : List Bytes) :
    push rooted (top :: below) ".." =
      if top = ".." then (".." : Bytes) :: top :: below else below := rfl

lemma skip_or_up_or_stays (c : Bytes) : (c = [] ∨ c = ".") ∨ c = ".." ∨ Stays c := by
  unfold Stays
  tauto

lemma push_rooted (h : ∀ c ∈ stack, Stays c) (c : Bytes) :
    (push true stack c).reverse = stepFrom stack.reverse c ∧
      ∀ c' ∈ push true stack c, Stays c' := by
  rcases skip_or_up_or_stays c with hskip | rfl | hstays
  · rw [push_of_skip hskip, stepFrom_of_skip hskip]
    exact ⟨rfl, h⟩
  · rw [stepFrom_up]
    cases stack with
    | nil => exact ⟨rfl, fun c' hc' => absurd hc' List.not_mem_nil⟩
    | cons top below =>
      obtain ⟨htop, hbelow⟩ := List.forall_mem_cons.1 h
      rw [push_up_cons, if_neg htop.2.2, List.reverse_cons, List.dropLast_concat]
      exact ⟨rfl, hbelow⟩
  · rw [push_of_stays hstays, stepFrom_of_stays hstays, List.reverse_cons]
    exact ⟨rfl, List.forall_mem_cons.2 ⟨hstays, h⟩⟩

lemma foldl_push_rooted (h : ∀ c ∈ stack, Stays c) :
    (parts.foldl (push true) stack).reverse = parts.foldl stepFrom stack.reverse ∧
      ∀ c ∈ parts.foldl (push true) stack, Stays c := by
  induction parts generalizing stack with
  | nil => exact ⟨rfl, h⟩
  | cons part parts ih =>
    obtain ⟨hstep, hstays⟩ := push_rooted h part
    rw [List.foldl_cons, List.foldl_cons, ← hstep]
    exact ih hstays

lemma components_of_isAbsolute {path : Bytes} (h : isAbsolute path = true) :
    components path = leadFrom [] path ∧ ∀ c ∈ components path, Stays c := by
  obtain ⟨hlead, hstays⟩ := @foldl_push_rooted [] (Bytes.split separator path)
    fun c hc => absurd hc List.not_mem_nil
  rw [components, h]
  exact ⟨hlead, fun c hc => hstays c (List.mem_reverse.1 hc)⟩

lemma push_unrooted (h : ∀ c ∈ stack, c = ".." ∨ Stays c) (c : Bytes) :
    (push false stack c).reverse.foldl stepFrom here =
        stepFrom (stack.reverse.foldl stepFrom here) c ∧
      ∀ c' ∈ push false stack c, c' = ".." ∨ Stays c' := by
  have hpush : ∀ c' : Bytes, c' = ".." ∨ Stays c' → (c' :: stack).reverse.foldl stepFrom here =
      stepFrom (stack.reverse.foldl stepFrom here) c' ∧ ∀ d ∈ c' :: stack, d = ".." ∨ Stays d :=
    fun c' hc' => ⟨by rw [List.reverse_cons, List.foldl_append]; rfl,
      List.forall_mem_cons.2 ⟨hc', h⟩⟩
  rcases skip_or_up_or_stays c with hskip | rfl | hstays
  · rw [push_of_skip hskip, stepFrom_of_skip hskip]
    exact ⟨rfl, h⟩
  · cases stack with
    | nil => exact hpush ".." (.inl rfl)
    | cons top below =>
      obtain ⟨htop, hbelow⟩ := List.forall_mem_cons.1 h
      rw [push_up_cons]
      split_ifs with hup
      · exact hpush ".." (.inl rfl)
      · -- going down to a name and up again leads nowhere
        rw [List.reverse_cons, List.foldl_append, List.foldl_cons, List.foldl_nil, stepFrom_up,
          stepFrom_of_stays (htop.resolve_left hup), List.dropLast_concat]
        exact ⟨rfl, hbelow⟩
  · rw [push_of_stays hstays]
    exact hpush c (.inr hstays)

lemma foldl_push_unrooted (h : ∀ c ∈ stack, c = ".." ∨ Stays c) :
    (parts.foldl (push false) stack).reverse.foldl stepFrom here =
      parts.foldl stepFrom (stack.reverse.foldl stepFrom here) := by
  induction parts generalizing stack with
  | nil => rfl
  | cons part parts ih =>
    obtain ⟨hstep, hstack⟩ := push_unrooted h part
    rw [List.foldl_cons, List.foldl_cons, ih hstack, hstep]

/-- **Cleaning** a path that is not absolute keeps where it leads. -/
lemma leadFrom_clean (here : List Bytes) {path : Bytes} (h : isAbsolute path = false) :
    leadFrom here (clean path) = leadFrom here path := by
  have hfollow : (components path).foldl stepFrom here = leadFrom here path := by
    rw [components, h]
    exact foldl_push_unrooted fun c hc => absurd hc List.not_mem_nil
  rw [clean, h, ← hfollow]
  by_cases hnil : components path = []
  · rw [hnil]
    rfl
  · have hsplit : Bytes.split separator (Bytes.join [separator] (components path)) =
        components path := Bytes.split_join hnil fun c hc => (of_mem_components hc).1
    rw [leadFrom, ofComponents, if_neg (by decide), if_neg (by simpa using hnil), hsplit]

end Following

/-! ### Absolute paths -/

section Absolute

variable {base path : Bytes} (hbase : isAbsolute base = true)

lemma names_ofComponents {parts : List Bytes} (h : ∀ c ∈ parts, c ≠ [] ∧ separator ∉ c) :
    names (ofComponents true parts) = parts := by
  have hsplit : Bytes.split separator (ofComponents true parts) =
      [] :: Bytes.split separator (Bytes.join [separator] parts) := by
    rw [ofComponents, if_pos rfl, Bytes.split_cons_self]
  rw [names, hsplit]
  by_cases hnil : parts = []
  · rw [hnil]
    rfl
  · rw [Bytes.split_join hnil fun c hc => (h c hc).2, List.filter_cons_of_neg (by simp)]
    exact List.filter_eq_self.2 fun c hc => by simpa using (h c hc).1

lemma notMem_split_ofComponents {parts : List Bytes} (h : ∀ c ∈ parts, c ≠ [] ∧ separator ∉ c)
    {c : Bytes} (hne : c ≠ []) (hc : c ∉ parts) :
    c ∉ Bytes.split separator (ofComponents true parts) := by
  intro hmem
  refine hc ?_
  rw [← names_ofComponents h]
  exact List.mem_filter.2 ⟨hmem, by simpa using hne⟩

include hbase

lemma clean_of_isAbsolute : clean base = ofComponents true (components base) := by
  rw [clean, hbase]

lemma isAbsolute_clean : isAbsolute (clean base) = true := by
  rw [clean_of_isAbsolute hbase]
  rfl

lemma names_clean : names (clean base) = components base := by
  rw [clean_of_isAbsolute hbase]
  exact names_ofComponents fun c hc => (of_mem_components hc).symm

lemma components_clean : components (clean base) = components base := by
  have hstays := (components_of_isAbsolute hbase).2
  rw [clean_of_isAbsolute hbase]
  have hsplit : Bytes.split separator (ofComponents true (components base)) =
      [] :: Bytes.split separator (Bytes.join [separator] (components base)) := by
    rw [ofComponents, if_pos rfl, Bytes.split_cons_self]
  have hrooted : isAbsolute (ofComponents true (components base)) = true := rfl
  rw [components, hsplit, hrooted, List.foldl_cons, push_of_skip (.inl rfl)]
  by_cases hnil : components base = []
  · rw [hnil]
    rfl
  · rw [Bytes.split_join hnil fun c hc => (of_mem_components hc).1, foldl_push_of_stays hstays,
      List.append_nil, List.reverse_reverse]

lemma notMem_split_clean : (".." : Bytes) ∉ Bytes.split separator (clean base) := by
  rw [clean_of_isAbsolute hbase]
  exact notMem_split_ofComponents (fun c hc => (of_mem_components hc).symm) (by decide)
    fun hup => ((components_of_isAbsolute hbase).2 _ hup).2.2 rfl

lemma ne_nil_of_isAbsolute : base ≠ [] := by
  rintro rfl
  exact absurd hbase (by decide)

lemma isAbsolute_append (t : Bytes) : isAbsolute (base ++ t) = true := by
  obtain ⟨b, rest, rfl⟩ := List.exists_cons_of_ne_nil (ne_nil_of_isAbsolute hbase)
  exact hbase

lemma join_of_isAbsolute (path : Bytes) :
    join [base, path] = clean (base ++ separator :: path) := by
  simp [join, ne_nil_of_isAbsolute hbase, Bytes.join]

lemma components_join (path : Bytes) :
    components (base ++ separator :: path) = leadFrom (components base) path := by
  rw [(components_of_isAbsolute (isAbsolute_append hbase _)).1, leadFrom_append,
    (components_of_isAbsolute hbase).1]

lemma join_clean (h : isAbsolute path = false) :
    join [base, clean path] = join [base, path] := by
  rw [join_of_isAbsolute hbase, join_of_isAbsolute hbase,
    clean_of_isAbsolute (isAbsolute_append hbase _),
    clean_of_isAbsolute (isAbsolute_append hbase _),
    components_join hbase, components_join hbase, leadFrom_clean _ h]

end Absolute

/-! ### At or below -/

/-- What is left of two lists without their common beginning does not begin alike. -/
lemma not_isPrefix_dropCommon {as bs : List Bytes} (h : (dropCommon as bs).1 ≠ []) :
    ¬ (dropCommon as bs).1 <+: (dropCommon as bs).2 := by
  fun_induction dropCommon as bs with
  | case1 as a bs ih => exact ih h
  | case2 a as b bs hne => exact fun hbegins => hne (List.cons_prefix_cons.1 hbegins).1
  | case3 as bs hnot =>
    rintro ⟨more, hmore⟩
    obtain ⟨a, as, rfl⟩ := List.exists_cons_of_ne_nil h
    exact hnot a as a (as ++ more) rfl hmore.symm

lemma not_startsWith_up {down : List Bytes} (hne : down ≠ [])
    (h : ∀ c ∈ down, c ≠ ".." ∧ separator ∉ c) :
    Bytes.join [separator] down ≠ ".." ∧
      Bytes.startsWith (Bytes.join [separator] down) "../" = false := by
  have hsplit := Bytes.split_join hne fun c hc => (h c hc).2
  have hup : (".." : Bytes) ∉ down := fun hmem => (h _ hmem).1 rfl
  refine ⟨fun heq => hup ?_, Bool.eq_false_iff.2 fun hstart => hup ?_⟩
  · rw [← hsplit, heq]
    decide
  · obtain ⟨rest, hrest⟩ := List.isPrefixOf_iff_prefix.1 hstart
    have hslash : ("../" : Bytes) ++ rest = ".." ++ separator :: rest := rfl
    rw [← hsplit, ← hrest, hslash, Bytes.split_append_cons]
    exact List.mem_append_left _ (by decide)

lemma up_or_startsWith (parts : List Bytes) :
    Bytes.join [separator] (".." :: parts) = ".." ∨
      Bytes.startsWith (Bytes.join [separator] (".." :: parts)) "../" = true := by
  by_cases hnil : parts = []
  · exact .inl (by rw [hnil, Bytes.join])
  · rw [Bytes.join_cons _ _ hnil]
    exact .inr (List.isPrefixOf_iff_prefix.2 (List.prefix_append _ _))

/-- **One absolute path lies at or below another** exactly if its components begin with those of the
other. -/
lemma within_iff {base path : Bytes} (hbase : isAbsolute base = true)
    (hpath : isAbsolute path = true) :
    within base path = true ↔ components base <+: components path := by
  by_cases hsame : clean base = clean path
  · have hcomponents : components base = components path := by
      rw [← names_clean hbase, hsame, names_clean hpath]
    have hway : relative? base path = some "." := if_pos hsame
    rw [within, hway, hcomponents]
    exact iff_of_true rfl (List.prefix_refl _)
  obtain ⟨common, hfrom, hto⟩ := dropCommon_spec (components base) (components path)
  have hapart := @not_isPrefix_dropCommon (components base) (components path)
  have hway : relative? base path =
      if (dropCommon (components base) (components path)).1.head? = some ".." then none
      else some (Bytes.join [separator] ((dropCommon (components base) (components path)).1.map
        (fun _ => ("..": Bytes)) ++ (dropCommon (components base) (components path)).2)) := by
    rw [relative?, if_neg hsame, if_neg (by rw [hbase, hpath]; decide)]
  rw [within, hway]
  generalize dropCommon (components base) (components path) = left at hfrom hto hapart ⊢
  obtain ⟨up, down⟩ := left
  simp only at hfrom hto hapart ⊢
  have hname : ∀ c ∈ components base, c ≠ ".." := fun c hc =>
    ((components_of_isAbsolute hbase).2 c hc).2.2
  have hhead : up.head? ≠ some ".." := fun hup =>
    hname _ (by rw [hfrom]; exact List.mem_append_right _ (List.mem_of_mem_head? hup)) rfl
  rw [if_neg hhead]
  cases up with
  | nil =>
    have hdown : down ≠ [] := by
      rintro rfl
      exact hsame (by rw [clean_of_isAbsolute hbase, clean_of_isAbsolute hpath, hfrom, hto])
    have hstays : ∀ c ∈ down, c ≠ ".." ∧ separator ∉ c := fun c hc => by
      have hmem : c ∈ components path := by
        rw [hto]
        exact List.mem_append_right _ hc
      exact ⟨((components_of_isAbsolute hpath).2 c hmem).2.2, (of_mem_components hmem).1⟩
    obtain ⟨hup, hstart⟩ := not_startsWith_up hdown hstays
    rw [hfrom, hto, List.append_nil]
    exact iff_of_true (by simp [hup, hstart]) (List.prefix_append common down)
  | cons top up =>
    rw [hfrom, hto, List.prefix_append_right_inj]
    refine iff_of_false ?_ (hapart (List.cons_ne_nil _ _))
    rw [List.map_cons, List.cons_append]
    rcases up_or_startsWith (up.map (fun _ => ("..": Bytes)) ++ down) with heq | hstart
    · rw [heq]
      decide
    · generalize
        Bytes.join [separator] (".." :: (up.map (fun _ => ("..": Bytes)) ++ down)) = way at hstart ⊢
      have hdot : way ≠ "." := by
        rintro rfl
        exact absurd hstart (by decide)
      simp [hdot, hstart]

lemma eq_or_liesBelow_iff {base path : Bytes} (hbase : isAbsolute base = true)
    (hclean : clean base = base) (hpath : isAbsolute path = true) :
    (clean path = base ∨ LiesBelow base (clean path)) ↔ components base <+: components path := by
  have hnames : names base = components base := by rw [← names_clean hbase, hclean]
  rw [LiesBelow, names_clean hpath, hnames, isAbsolute_clean hpath, hbase]
  constructor
  · rintro (heq | ⟨-, rest, -, hrest⟩)
    · rw [← hnames, ← heq, names_clean hpath]
    · rw [hrest]
      exact List.prefix_append _ _
  · rintro ⟨rest, hrest⟩
    by_cases hnil : rest = []
    · left
      rw [hnil, List.append_nil] at hrest
      rw [← hclean, clean_of_isAbsolute hpath, clean_of_isAbsolute hbase, hrest]
    · exact .inr ⟨rfl, rest, hnil, hrest.symm⟩

end Path

end StateBuffer
