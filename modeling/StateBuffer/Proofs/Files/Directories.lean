import StateBuffer.Proofs.Files.Walk

/-!
Directories made along a path. Whether they can all be made or not, everything that was there stays,
and only directories are added. When dots come before all names in the path, nothing can be reached
below the path that was not reached before: either nothing was added, or the last directory that was
made is on the way and nothing is in it.
-/

namespace StateBuffer

open StateBuffer.Path

namespace FileSystem

variable {fs made : FileSystem} {path : Bytes} {place here : Location} {n : Node}

/-! ### One directory -/

/-- Where following a path begins. -/
def origin (fs : FileSystem) (path : Bytes) : Location :=
  if isAbsolute path then [] else fs.workDir

lemma start_eq_ok (h : fs.start path = .ok here) : here = fs.origin path := by
  unfold start at h
  split_ifs at h with hzero hempty hlength habs
  · rw [← Except.ok.inj h, origin, if_pos habs]
  · rw [← Except.ok.inj h, origin, if_neg habs]

lemma resolve_of_start (h : fs.start path = .ok here) (follow : Bool) :
    fs.resolve follow path = fs.walk follow maxLinks here (steps path) := by
  rw [resolve, h]
  rfl

lemma resolve_eq_ok_iff {follow : Bool} {found : Found} : fs.resolve follow path = .ok found ↔
    fs.start path = .ok (fs.origin path) ∧
      fs.walk follow maxLinks (fs.origin path) (steps path) = .ok found := by
  cases hstart : fs.start path with
  | error e => simp [resolve, hstart, bind, Except.bind]
  | ok here =>
    rw [resolve_of_start hstart, start_eq_ok hstart]
    simp

/-- The location a path leads to and the node there, a link at the end not followed. -/
def node? (fs : FileSystem) (path : Bytes) : Option (Location × Node) :=
  match fs.resolve false path with
  | .ok (.node place n) => some (place, n)
  | _ => none

lemma node?_eq_some_iff :
    fs.node? path = some (place, n) ↔ fs.resolve false path = .ok (.node place n) := by
  unfold node?
  split <;> simp_all

lemma Keeps.resolve_eq (h : fs.Keeps made) {follow : Bool}
    (hnode : fs.resolve follow path = .ok (.node place n)) :
    made.resolve follow path = .ok (.node place n) := by
  obtain ⟨hstart, hwalk⟩ := resolve_eq_ok_iff.1 hnode
  have horigin : made.origin path = fs.origin path := by rw [origin, origin, h.workDir_eq]
  refine resolve_eq_ok_iff.2 ⟨?_, horigin ▸ h.walk_eq hwalk⟩
  rw [horigin, ← hstart, start, start, h.workDir_eq]

lemma Keeps.node?_eq (h : fs.Keeps made) (hnode : fs.node? path = some (place, n)) :
    made.node? path = some (place, n) :=
  node?_eq_some_iff.2 (h.resolve_eq (node?_eq_some_iff.1 hnode))

lemma walk_ne_missing_of_dots {follow : Bool} {links : Nat} {todo : List Bytes} {parent : Location}
    {name : Bytes} (h : ∀ c ∈ todo, c = "." ∨ c = "..") :
    fs.walk follow links here todo ≠ .ok (.missing parent name) := by
  induction todo generalizing here with
  | nil =>
    rw [walk]
    split <;> simp
  | cons c todo ih =>
    obtain ⟨hc, htodo⟩ := List.forall_mem_cons.1 h
    by_cases hdir : fs.get? here = some .directory
    · rcases hc with rfl | rfl
      · rw [walk_dot hdir]
        exact ih htodo
      · rw [walk_up hdir]
        exact ih htodo
    · rw [walk]
      simp [isDirectory, hdir]

lemma steps_of_getLast?_ne (h : path.getLast? ≠ some separator) : steps path = names path := by
  rw [steps, if_neg h, List.append_nil, names]

lemma exists_of_makeDirectory (h : fs.makeDirectory path = .ok made) : ∃ parent name,
    fs.walk false maxLinks (fs.origin path) (names path) = .ok (.missing parent name) ∧
      made = fs.put (parent ++ [name]) .directory := by
  unfold makeDirectory at h
  split at h
  · rename_i parent name hresolve
    obtain ⟨hstart, hwalk⟩ := resolve_eq_ok_iff.1 hresolve
    have hne : Bytes.trimEndOf separator path ≠ [] := by
      intro hnil
      rw [hnil] at hstart
      exact absurd hstart (by simp [start])
    have habs := isAbsolute_of_isPrefix (trimEndOf_isPrefix path) hne
    rw [steps_of_getLast?_ne (getLast?_trimEndOf_ne path), names_trimEndOf, origin, habs] at hwalk
    exact ⟨parent, name, hwalk, (Except.ok.inj h).symm⟩
  · exact absurd h (by simp)
  · exact absurd h (by simp)

@[simp] lemma attempt_none {α : Type} (step : Except FileError α) : attempt none step = step := rfl

@[simp] lemma attempt_some {α : Type} (e : FileError) (step : Except FileError α) :
    attempt (some e) step = .error e := rfl

lemma attempt_eq_ok_iff {α : Type} {refusal : Option FileError} {step : Except FileError α}
    {a : α} : attempt refusal step = .ok a ↔ refusal = none ∧ step = .ok a := by
  cases refusal <;> simp

/-- Asked for a directory, the system changes nothing, or makes it where the names on its path lead
to a free name. -/
lemma ensureDirectory_cases (refusal : Option FileError) (fs : FileSystem) (path : Bytes) :
    (fs.ensureDirectory refusal path).1 = fs ∨ ∃ parent name,
      fs.walk false maxLinks (fs.origin path) (names path) = .ok (.missing parent name) ∧
        (fs.ensureDirectory refusal path).1 = fs.put (parent ++ [name]) .directory := by
  unfold ensureDirectory
  cases hstep : attempt refusal (fs.makeDirectory path) with
  | ok made => exact .inr (exists_of_makeDirectory (attempt_eq_ok_iff.1 hstep).2)
  | error e =>
    refine .inl ?_
    dsimp only
    split <;> rfl

lemma ensureDirectory_of_dots {refusal : Option FileError}
    (h : ∀ c ∈ names path, c = "." ∨ c = "..") : (fs.ensureDirectory refusal path).1 = fs :=
  (ensureDirectory_cases refusal fs path).resolve_right fun ⟨_, _, hwalk, _⟩ =>
    walk_ne_missing_of_dots h hwalk

lemma addsDirectories_ensureDirectory (refusal : Option FileError) (fs : FileSystem)
    (path : Bytes) : fs.AddsDirectories (fs.ensureDirectory refusal path).1 := by
  rcases ensureDirectory_cases refusal fs path with h | ⟨parent, name, hwalk, hput⟩
  · rw [h]
    exact .refl fs
  · rw [hput]
    exact .put (free_of_walk_missing hwalk).2

/-! ### All directories on a path -/

lemma exists_names_parentPath (h : parentPath path ≠ []) :
    isAbsolute (parentPath path) = isAbsolute path ∧
      ∃ c, names path = names (parentPath path) ++ [c] := by
  have hparent : parentPath path = above (Bytes.trimEndOf separator path) := by
    rw [above, Bytes.trimEndOf, List.reverse_reverse, parentPath]
  rw [hparent] at h ⊢
  have htrim := above_append_last (Bytes.trimEndOf separator path)
  have hne : last (Bytes.trimEndOf separator path) ≠ [] := by
    intro hlast
    obtain ⟨s, hs⟩ := (above_eq_nil_or _).resolve_left h
    rw [hlast, List.append_nil, hs] at htrim
    exact getLast?_trimEndOf_ne path (htrim ▸ List.getLast?_concat)
  have hbegins := (List.prefix_append _ _).trans (htrim ▸ trimEndOf_isPrefix path)
  exact ⟨isAbsolute_of_isPrefix hbegins h, _, (names_trimEndOf path).symm.trans (names_eq _ hne)⟩

variable (refuse : Bytes → Option FileError)

lemma addsDirectories_makeDirectories (fs : FileSystem) (path : Bytes) :
    fs.AddsDirectories (fs.makeDirectories refuse path).1 := by
  fun_induction makeDirectories refuse fs path with
  | case1 | case2 => exact .refl _
  | case3 path hparent made e hmade _ _ ih =>
    rw [hmade] at ih
    exact ih
  | case4 path hparent made hmade _ _ ih =>
    rw [hmade] at ih
    exact ih.trans (addsDirectories_ensureDirectory _ made path)
  | case5 => exact addsDirectories_ensureDirectory _ _ _

lemma makeDirectories_of_dots (h : ∀ c ∈ names path, c = "." ∨ c = "..") :
    (fs.makeDirectories refuse path).1 = fs := by
  have hnames : ∀ {path}, parentPath path ≠ [] → (∀ c ∈ names path, c = "." ∨ c = "..") →
      ∀ c ∈ names (parentPath path), c = "." ∨ c = ".." := fun hparent h c hc => by
    obtain ⟨-, last, hnames⟩ := exists_names_parentPath hparent
    exact h c (hnames ▸ List.mem_append_left _ hc)
  fun_induction makeDirectories refuse fs path with
  | case1 | case2 => rfl
  | case3 path hparent made e hmade _ _ ih =>
    rw [hmade] at ih
    exact ih (hnames hparent.1 h)
  | case4 path hparent made hmade _ _ ih =>
    rw [hmade] at ih
    obtain rfl : made = fs := ih (hnames hparent.1 h)
    exact ensureDirectory_of_dots h
  | case5 => exact ensureDirectory_of_dots h

/-! ### Below the directories -/

/-- Nothing can be reached below a path, however many dots are on the way. -/
def NothingBelow (fs : FileSystem) (path : Bytes) : Prop :=
  ∀ (c : Bytes) (rest todo : List Bytes) (follow : Bool) (place : Location) (n : Node), Stays c →
    withoutDots todo = withoutDots (names path ++ c :: rest) →
    fs.walk follow maxLinks (fs.origin path) todo ≠ .ok (.node place n)

lemma NothingBelow.of_parentPath {c : Bytes} (h : fs.NothingBelow (parentPath path))
    (habs : isAbsolute (parentPath path) = isAbsolute path)
    (hnames : names path = names (parentPath path) ++ [c]) (hc : Stays c) :
    fs.NothingBelow path := by
  intro c' rest todo follow place n _ htodo
  rw [hnames, List.append_assoc] at htodo
  rw [origin, ← habs]
  exact h c (c' :: rest) todo follow place n hc htodo

lemma ensureDirectory_spec (htree : fs.IsTree) (refusal : Option FileError) (path : Bytes) :
    (fs.ensureDirectory refusal path).1.IsTree ∧
      ((fs.ensureDirectory refusal path).1 = fs ∨
        (fs.ensureDirectory refusal path).1.NothingBelow path) := by
  rcases ensureDirectory_cases refusal fs path with h | ⟨parent, name, hwalk, hput⟩
  · rw [h]
    exact ⟨htree, .inl rfl⟩
  · rw [hput]
    obtain ⟨hparent, hfree⟩ := free_of_walk_missing hwalk
    exact ⟨htree.put hparent (by simp [hfree]) _, .inr fun c rest todo follow place n hc htodo =>
      walk_beyond_ne_node htree hwalk hc htodo follow⟩

lemma leadsDown_parentPath {c : Bytes} (h : LeadsDown path)
    (hnames : names path = names (parentPath path) ++ [c]) :
    LeadsDown (parentPath path) ∧ (Stays c ∨ ∀ c ∈ names path, c = "." ∨ c = "..") := by
  obtain ⟨dots, plain, hpath, hdots, hplain⟩ := h
  rcases List.eq_nil_or_concat' plain with rfl | ⟨plain, last, rfl⟩
  · rw [List.append_nil] at hpath
    refine ⟨⟨names (parentPath path), [], by simp, fun c hc => ?_, by simp⟩, .inr (hpath ▸ hdots)⟩
    exact hdots c (hpath ▸ hnames ▸ List.mem_append_left _ hc)
  · rw [hnames, ← List.append_assoc] at hpath
    obtain ⟨hparent, hlast⟩ := List.append_inj' hpath rfl
    obtain ⟨hplain, hstays⟩ := List.forall_mem_append.1 hplain
    refine ⟨⟨dots, plain, hparent, hdots, hplain⟩, .inl ?_⟩
    exact (List.singleton_inj.1 hlast) ▸ hstays last (List.mem_singleton_self _)

/-- **Directories made on a path** leave a tree. If dots come before all names on the path, either
none was made, or nothing can be reached below the path. -/
theorem makeDirectories_spec (htree : fs.IsTree) (path : Bytes) :
    (fs.makeDirectories refuse path).1.IsTree ∧ (LeadsDown path →
      (fs.makeDirectories refuse path).1 = fs ∨
        (fs.makeDirectories refuse path).1.NothingBelow path) := by
  -- what is known below the path above is known below the path, unless all is dots
  have hbelow : ∀ {path made e}, parentPath path ≠ [] →
      fs.makeDirectories refuse (parentPath path) = (made, e) →
      (LeadsDown (parentPath path) → made = fs ∨ made.NothingBelow (parentPath path)) →
      LeadsDown path → made = fs ∨ made.NothingBelow path := by
    intro path made e hparent hmade ih hdown
    obtain ⟨habs, c, hnames⟩ := exists_names_parentPath hparent
    obtain ⟨hdown, hc | hdots⟩ := leadsDown_parentPath hdown hnames
    · exact (ih hdown).imp_right fun h => h.of_parentPath habs hnames hc
    · have hfst : (fs.makeDirectories refuse (parentPath path)).1 = fs :=
        makeDirectories_of_dots refuse fun c hc => hdots c (hnames ▸ List.mem_append_left _ hc)
      rw [hmade] at hfst
      exact .inl hfst
  fun_induction makeDirectories refuse fs path with
  | case1 | case2 => exact ⟨htree, fun _ => .inl rfl⟩
  | case3 path hparent made e hmade _ _ ih =>
    rw [hmade] at ih
    exact ⟨ih.1, hbelow hparent.1 hmade ih.2⟩
  | case4 path hparent made hmade _ _ ih =>
    rw [hmade] at ih
    obtain ⟨hensure, hmore⟩ := ensureDirectory_spec ih.1 (refuse path) path
    refine ⟨hensure, fun hdown => ?_⟩
    rcases hmore with hsame | hmore
    · rw [hsame]
      exact hbelow hparent.1 hmade ih.2 hdown
    · exact .inr hmore
  | case5 path =>
    obtain ⟨hensure, hmore⟩ := ensureDirectory_spec htree (refuse path) path
    exact ⟨hensure, fun _ => hmore⟩

/-- **The node** that a path to a name leads to is the same after the directories above it were
made as far as they could be. -/
theorem node?_makeDirectories (htree : fs.IsTree) (hpath : EndsInName path) :
    (fs.makeDirectories refuse (dir path)).1.node? path = fs.node? path := by
  have hdown : LeadsDown (dir path) := leadsDown_clean (above path)
  have hadds := addsDirectories_makeDirectories refuse fs (dir path)
  rcases (makeDirectories_spec refuse htree (dir path)).2 hdown with hsame | hbelow
  · rw [hsame]
  · have hnone : (fs.makeDirectories refuse (dir path)).1.node? path = none := by
      refine Option.eq_none_iff_forall_ne_some.2 fun ⟨place, n⟩ hnode => ?_
      obtain ⟨-, hwalk⟩ := resolve_eq_ok_iff.1 (node?_eq_some_iff.1 hnode)
      rw [steps_of_getLast?_ne hpath.getLast?_ne, origin, ← hpath.isAbsolute_dir] at hwalk
      exact hbelow (last path) [] (names path) false place n hpath.stays_last
        hpath.withoutDots_names hwalk
    refine hnone.trans (Option.eq_none_iff_forall_ne_some.2 fun ⟨place, n⟩ hnode => ?_).symm
    exact absurd (hnone.symm.trans (hadds.keeps.node?_eq hnode)) (by simp)

end FileSystem

end StateBuffer
