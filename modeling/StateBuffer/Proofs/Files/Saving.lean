import StateBuffer.Program.Codec
import StateBuffer.Proofs.Files.Directories

/-!
Saving through a temporary file. Whichever step fails, the error is reported, the temporary file is
gone, and nothing differs from before but for directories that the first step made. When no step
fails, the data stands where the path leads, and no other file was added or changed.
-/

namespace StateBuffer

open StateBuffer.Path

namespace FileSystem

variable {c : SaveConditions} {fs made : FileSystem} {path source data : Bytes} {place : Location}
  {e : FileError}

/-! ### The temporary file -/

lemma exists_of_openTemporary {numbers : List Nat}
    (h : fs.openTemporary path numbers = .ok (place, source)) : ∃ parent name,
      place = parent ++ [name] ∧ fs.get? parent = some .directory ∧ fs.get? place = none := by
  fun_induction openTemporary fs path numbers with
  | case1 => exact absurd h (by simp)
  | case2 n rest target parent name hresolve =>
    obtain ⟨rfl, -⟩ := Prod.mk.inj (Except.ok.inj h)
    exact ⟨parent, name, rfl, free_of_walk_missing (resolve_eq_ok_iff.1 hresolve).2⟩
  | case3 n rest target _ _ _ ih => exact ih h
  | case4 => exact absurd h (by simp)

/-- A path leads to a location, and no directory stands there. -/
def LeadsTo (fs : FileSystem) (path : Bytes) (goal : Location) : Prop :=
  (∃ n, n ≠ .directory ∧ fs.resolve false path = .ok (.node goal n)) ∨
    ∃ parent name, parent ++ [name] = goal ∧ fs.resolve false path = .ok (.missing parent name)

lemma LeadsTo.get?_ne_directory {goal : Location} (h : fs.LeadsTo path goal) :
    fs.get? goal ≠ some .directory := by
  obtain ⟨n, hn, hresolve⟩ | ⟨parent, name, rfl, hresolve⟩ := h
  · rw [get?_of_walk_node (resolve_eq_ok_iff.1 hresolve).2]
    simpa using hn
  · rw [(free_of_walk_missing (resolve_eq_ok_iff.1 hresolve).2).2]
    simp

lemma LeadsTo.ne_nil {goal : Location} (h : fs.LeadsTo path goal) : goal ≠ [] := by
  rintro rfl
  exact h.get?_ne_directory (get?_nil fs)

lemma LeadsTo.exists_parent {goal : Location} (h : fs.LeadsTo path goal) (htree : fs.IsTree) :
    ∃ parent name, goal = parent ++ [name] ∧ fs.get? parent = some .directory := by
  obtain ⟨parent, name, rfl⟩ := (List.eq_nil_or_concat' goal).resolve_left h.ne_nil
  refine ⟨parent, name, rfl, ?_⟩
  obtain ⟨n, -, hresolve⟩ | ⟨parent', name', hgoal, hresolve⟩ := h
  · have hnode := get?_of_walk_node (resolve_eq_ok_iff.1 hresolve).2
    exact htree parent name (by simp [hnode])
  · rw [← (List.append_inj' hgoal rfl).1]
    exact (free_of_walk_missing (resolve_eq_ok_iff.1 hresolve).2).1

lemma exists_of_rename {done : FileSystem} (h : fs.rename place source path = .ok done) :
    ∃ n goal, fs.get? place = some n ∧ fs.LeadsTo path goal ∧
      done = (fs.erase place).put goal n := by
  unfold rename at h
  cases hplace : fs.get? place with
  | none => exact absurd h (by simp [hplace])
  | some n =>
    simp only [hplace] at h
    split at h
    · exact absurd h (by simp)
    · rename_i goal m hm hresolve
      exact ⟨n, goal, rfl, .inl ⟨m, hm, hresolve⟩, (Except.ok.inj h).symm⟩
    · rename_i parent name hresolve
      exact ⟨n, parent ++ [name], rfl, .inr ⟨parent, name, rfl, hresolve⟩,
        (Except.ok.inj h).symm⟩
    · exact absurd h (by simp)

/-! ### What a save leaves -/

/-- What a save that fails leaves: everything that was there, and besides only directories. A path
that led to something leads there as before, and a path to a name leads to nothing new. If the
directory was there, nothing has changed at all. -/
structure Unharmed (fs after : FileSystem) (path : Bytes) : Prop where
  adds : fs.AddsDirectories after
  node : ∀ place n, fs.node? path = some (place, n) → after.node? path = some (place, n)
  node_eq : fs.IsTree → EndsInName path → after.node? path = fs.node? path
  same : fs.stat (dir path) = .ok .directory → after = fs

/-- What a save that succeeds leaves: the data at the location that the path leads to, and elsewhere
everything that was there and besides only directories. The data can be read under the path, unless
the file took the place of a link that the path itself runs through. -/
structure Holds (fs after : FileSystem) (path data : Bytes) (goal : Location) : Prop where
  holds : after.get? goal = some (.file data)
  others : ∀ place, place ≠ goal → after.get? place = fs.get? place ∨
    fs.get? place = none ∧ after.get? place = some .directory
  goal_eq : ∀ place n, fs.node? path = some (place, n) → place = goal
  read : after.read path = .ok data ∨ (∃ target, fs.get? goal = some (.link target)) ∧
    after.read path = .error ⟨"open", path, .notDirectory⟩

lemma unharmed_makeDirectories (refuse : Bytes → Option FileError) (fs : FileSystem)
    (path : Bytes) : fs.Unharmed (fs.makeDirectories refuse (dir path)).1 path := by
  have hadds := addsDirectories_makeDirectories refuse fs (dir path)
  refine ⟨hadds, fun place n => hadds.keeps.node?_eq,
    fun htree hpath => node?_makeDirectories refuse htree hpath, fun hstat => ?_⟩
  unfold stat lookUp at hstat
  split at hstat
  · rename_i place n hresolve
    obtain rfl : n = .directory := Except.ok.inj hstat
    rw [makeDirectories, hresolve]
  · exact absurd hstat (by simp [Except.map])
  · exact absurd hstat (by simp [Except.map])

lemma read_of_moved {goal : Location} (hgoal : fs.LeadsTo path goal) {after : FileSystem}
    (hafter : after.get? goal = some (.file data)) (hworkDir : after.workDir = fs.workDir)
    (hkeep : ∀ spot n, spot ≠ goal → fs.get? spot = some n → (∀ old, n ≠ .file old) →
      after.get? spot = some n) :
    after.read path = .ok data ∨ (∃ target, fs.get? goal = some (.link target)) ∧
      after.read path = .error ⟨"open", path, .notDirectory⟩ := by
  obtain ⟨found, hresolve, hfound⟩ : ∃ found, fs.resolve false path = .ok found ∧
      ((∃ n, found = .node goal n) ∨
        ∃ parent name, found = .missing parent name ∧ parent ++ [name] = goal) := by
    obtain ⟨n, -, h⟩ | ⟨parent, name, hname, h⟩ := hgoal
    · exact ⟨_, h, .inl ⟨n, rfl⟩⟩
    · exact ⟨_, h, .inr ⟨parent, name, rfl, hname⟩⟩
  obtain ⟨hstart, hwalk⟩ := resolve_eq_ok_iff.1 hresolve
  have hstart : after.start path = .ok (fs.origin path) := by
    rw [← hstart, start, start, hworkDir]
  rcases walk_of_replaced hkeep hafter hgoal.get?_ne_directory hwalk hfound with h | ⟨hlink, h⟩
  · refine .inl ?_
    rw [read, lookUp, resolve_of_start hstart, h]
    rfl
  · refine .inr ⟨hlink, ?_⟩
    rw [read, lookUp, resolve_of_start hstart, h]
    rfl

lemma get?_of_put_file (hplace : place ≠ []) {spot : Location} {n : Node}
    (hn : (made.put place (.file data)).get? spot = some n) (hfile : ∀ old, n ≠ .file old) :
    made.get? spot = some n := by
  have hne : spot ≠ place := by
    rintro rfl
    rw [get?_put_self made hplace] at hn
    exact hfile data (Option.some.inj hn).symm
  rwa [get?_put_of_ne made hne] at hn

/-- A new file that was moved to a path stands where the path leads, and nowhere else. -/
lemma exists_of_rename_put {done : FileSystem} (hplace : place ≠ [])
    (hfree : made.get? place = none)
    (h : (made.put place (.file data)).rename place source path = .ok done) :
    ∃ goal, (made.put place (.file data)).LeadsTo path goal ∧
      done = made.put goal (.file data) := by
  obtain ⟨n, goal, hn, hgoal, rfl⟩ := exists_of_rename h
  rw [get?_put_self made hplace] at hn
  rw [erase_put_of_free hplace hfree]
  exact ⟨goal, hgoal, by rw [← Option.some.inj hn]⟩

lemma exists_holds_of_rename {done : FileSystem} (hadds : fs.AddsDirectories made)
    (hplace : place ≠ []) (hfree : made.get? place = none)
    (h : (made.put place (.file data)).rename place source path = .ok done) :
    ∃ goal, fs.Holds done path data goal := by
  obtain ⟨goal, hgoal, rfl⟩ := exists_of_rename_put hplace hfree h
  have hkeeps := keeps_put hfree (.file data)
  refine ⟨goal, get?_put_self made hgoal.ne_nil, fun spot hspot => ?_, fun spot n hnode => ?_, ?_⟩
  · rw [get?_put_of_ne made hspot]
    exact hadds.get?_eq spot
  · -- what the path led to is there when the file is moved
    have hresolve := hkeeps.resolve_eq (hadds.keeps.resolve_eq (node?_eq_some_iff.1 hnode))
    obtain ⟨m, -, hgoal⟩ | ⟨parent, name, -, hgoal⟩ := hgoal
    · exact (Found.node.inj (Except.ok.inj (hresolve.symm.trans hgoal))).1
    · exact absurd (hresolve.symm.trans hgoal) (by simp)
  · refine (read_of_moved hgoal (get?_put_self made hgoal.ne_nil) rfl
      fun spot m hspot hm hold => ?_).imp_right (And.imp_left ?_)
    · rw [get?_put_of_ne made hspot]
      exact get?_of_put_file hplace hm hold
    · rintro ⟨target, htarget⟩
      have hmade := get?_of_put_file hplace htarget (by simp)
      rcases hadds.get?_eq goal with heq | ⟨-, hdir⟩
      · exact ⟨target, heq ▸ hmade⟩
      · exact absurd (hdir.symm.trans hmade) (by simp)

/-! ### Saving -/

/-- One step of a save fails, the steps before it having come through: making the directory, opening
the temporary file, writing it, closing it, or moving it to the path. -/
inductive Fails (c : SaveConditions) (fs : FileSystem) (path data : Bytes) : FileError → Prop
  | directory {made : FileSystem} {e : FileError}
      (h : fs.makeDirectories c.directory (dir path) = (made, some e)) : Fails c fs path data e
  | temporary {made : FileSystem} {e : FileError}
      (hmade : fs.makeDirectories c.directory (dir path) = (made, none))
      (h : attempt c.temporary (made.openTemporary (dir path) c.numbers) = .error e) :
      Fails c fs path data e
  | write {made : FileSystem} {opened : Location × Bytes} {e : FileError} {part : Bytes}
      (hmade : fs.makeDirectories c.directory (dir path) = (made, none))
      (hopen : attempt c.temporary (made.openTemporary (dir path) c.numbers) = .ok opened)
      (h : c.write = some (e, part)) : Fails c fs path data e
  | close {made : FileSystem} {opened : Location × Bytes} {e : FileError}
      (hmade : fs.makeDirectories c.directory (dir path) = (made, none))
      (hopen : attempt c.temporary (made.openTemporary (dir path) c.numbers) = .ok opened)
      (hwrite : c.write = none) (h : c.close = some e) : Fails c fs path data e
  | rename {made : FileSystem} {place : Location} {source : Bytes} {e : FileError}
      (hmade : fs.makeDirectories c.directory (dir path) = (made, none))
      (hopen : attempt c.temporary (made.openTemporary (dir path) c.numbers) = .ok (place, source))
      (hwrite : c.write = none) (hclose : c.close = none)
      (h : attempt c.rename ((made.put place (.file data)).rename place source path) = .error e) :
      Fails c fs path data e

lemma erase_put_of_opened {refusal : Option FileError} {numbers : List Nat} {dir : Bytes}
    {opened : Location × Bytes}
    (h : attempt refusal (made.openTemporary dir numbers) = .ok opened) (n : Node) :
    (made.put opened.1 n).erase opened.1 = made := by
  obtain ⟨parent, name, hplace, -, hfree⟩ := exists_of_openTemporary (attempt_eq_ok_iff.1 h).2
  exact erase_put_of_free (by simp [hplace]) hfree n

/-- **A save that fails** reports the error of the step and leaves what the first step made. -/
lemma Fails.saveWith_eq (h : Fails c fs path data e) :
    fs.saveWith c path data = ((fs.makeDirectories c.directory (dir path)).1, some e) := by
  unfold saveWith
  cases h with
  | directory hmade => simp [hmade]
  | temporary hmade hopen => simp [hmade, hopen]
  | write hmade hopen hwrite => simp [hmade, hopen, hwrite, erase_put_of_opened hopen]
  | close hmade hopen hwrite hclose =>
    simp [hmade, hopen, hwrite, hclose, erase_put_of_opened hopen]
  | rename hmade hopen hwrite hclose hrename =>
    simp [hmade, hopen, hwrite, hclose, hrename, erase_put_of_opened hopen]

/-- **A save** in which no step fails has moved a new file with the data to the path. -/
lemma fails_or_renamed (c : SaveConditions) (fs : FileSystem) (path data : Bytes) :
    (∃ e, Fails c fs path data e) ∨ ∃ parent name source done,
      (fs.makeDirectories c.directory (dir path)).1.get? parent = some .directory ∧
      (fs.makeDirectories c.directory (dir path)).1.get? (parent ++ [name]) = none ∧
      ((fs.makeDirectories c.directory (dir path)).1.put (parent ++ [name]) (.file data)).rename
        (parent ++ [name]) source path = .ok done ∧ fs.saveWith c path data = (done, none) := by
  rcases hmade : fs.makeDirectories c.directory (dir path) with ⟨made, _ | e⟩
  case some => exact .inl ⟨e, .directory hmade⟩
  cases hopen : attempt c.temporary (made.openTemporary (dir path) c.numbers) with
  | error e => exact .inl ⟨e, .temporary hmade hopen⟩
  | ok opened =>
    obtain ⟨place, source⟩ := opened
    obtain ⟨parent, name, rfl, hparent, hfree⟩ :=
      exists_of_openTemporary (attempt_eq_ok_iff.1 hopen).2
    cases hwrite : c.write with
    | some failure => exact .inl ⟨failure.1, .write hmade hopen hwrite⟩
    | none =>
      cases hclose : c.close with
      | some e => exact .inl ⟨e, .close hmade hopen hwrite hclose⟩
      | none =>
        cases hrename : attempt c.rename ((made.put (parent ++ [name]) (.file data)).rename
            (parent ++ [name]) source path) with
        | error e => exact .inl ⟨e, .rename hmade hopen hwrite hclose hrename⟩
        | ok done =>
          refine .inr ⟨parent, name, source, done, hparent, hfree,
            (attempt_eq_ok_iff.1 hrename).2, ?_⟩
          simp [saveWith, hmade, hopen, hwrite, hclose, hrename]

/-- **A save** leaves a tree. -/
theorem isTree_saveWith (htree : fs.IsTree) (c : SaveConditions) (path data : Bytes) :
    (fs.saveWith c path data).1.IsTree := by
  have hmade := (makeDirectories_spec c.directory htree (dir path)).1
  rcases fails_or_renamed c fs path data with
    ⟨e, hfails⟩ | ⟨parent, name, source, done, hparent, hfree, hrename, hdone⟩
  · rw [hfails.saveWith_eq]
    exact hmade
  · obtain ⟨goal, hgoal, rfl⟩ := exists_of_rename_put (by simp) hfree hrename
    obtain ⟨parent', name', rfl, hparent'⟩ :=
      hgoal.exists_parent (hmade.put hparent (by simp [hfree]) _)
    rw [hdone]
    refine hmade.put (get?_of_put_file (by simp) hparent' (by simp)) (fun hdir => ?_) _
    exact hgoal.get?_ne_directory ((keeps_put hfree _).get?_of_some hdir)

/-! ### Saving a program -/

/-- A system that refuses nothing and draws zero for the temporary file. -/
def undisturbed : SaveConditions := ⟨fun _ => none, none, none, none, none, [0]⟩

/-- An empty root directory to work in. -/
def bare : FileSystem := ⟨[], []⟩

/-- A slash at the end of a path makes the path name the directory that the first step makes. The
save fails, and a directory is where nothing was before. -/
theorem saveWith_new_directory :
    let data := (default : Program).encode .standard (.ofPath "new/")
    bare.node? "new/" = none ∧
      (bare.saveWith undisturbed "new/" data).2 = some ⟨"rename", "new/tmp-0 new/", .exists⟩ ∧
      (bare.saveWith undisturbed "new/" data).1.node? "new/" =
        some ([Bytes.ofString "new"], .directory) := by
  intro data
  have hmade : bare.makeDirectories undisturbed.directory (dir "new/") =
      (bare.put ["new"] .directory, none) := by cbv
  have hopen : attempt undisturbed.temporary
      ((bare.put ["new"] .directory).openTemporary (dir "new/") undisturbed.numbers) =
        .ok (["new", "tmp-0"], "new/tmp-0") := by cbv
  have hfails : Fails undisturbed bare "new/" data ⟨"rename", "new/tmp-0 new/", .exists⟩ :=
    .rename hmade hopen rfl rfl (by generalize data = data; cbv)
  rw [hfails.saveWith_eq, hmade]
  exact ⟨by cbv, rfl, by cbv⟩

/-- **Saving a program** is all or nothing but for directories. Whatever the system refuses, an
error is reported exactly if a step fails. After a failure nothing has changed but for directories
that the first step made, and otherwise the stored form of the program is where the path leads. -/
theorem saveWith_exact (w : Msgpack.Wire) (c : SaveConditions) (fs : FileSystem) (path : Bytes)
    (p : Program) :
    let data := p.encode w (.ofPath path)
    (∀ e, (fs.saveWith c path data).2 = some e ↔ Fails c fs path data e) ∧
    (∀ after e, fs.saveWith c path data = (after, some e) → fs.Unharmed after path) ∧
    (∀ after, fs.saveWith c path data = (after, none) → ∃ goal, fs.Holds after path data goal) := by
  intro data
  have hsave : ∀ {e}, Fails c fs path data e → fs.saveWith c path data =
      ((fs.makeDirectories c.directory (dir path)).1, some e) := Fails.saveWith_eq
  have hadds := addsDirectories_makeDirectories c.directory fs (dir path)
  rcases fails_or_renamed c fs path data with
    ⟨e, hfails⟩ | ⟨parent, name, source, done, -, hfree, hrename, hdone⟩
  · refine ⟨fun e' => ⟨fun h => ?_, fun h => by rw [hsave h]⟩, fun after e' h => ?_,
      fun after h => ?_⟩
    · rw [hsave hfails] at h
      exact Option.some.inj h ▸ hfails
    · rw [hsave hfails] at h
      exact (Prod.mk.inj h).1 ▸ unharmed_makeDirectories c.directory fs path
    · rw [hsave hfails] at h
      exact absurd (Prod.mk.inj h).2 (by simp)
  · refine ⟨fun e => ⟨fun h => ?_, fun h => by rw [hsave h]⟩, fun after e h => ?_,
      fun after h => ?_⟩
    · rw [hdone] at h
      exact absurd h (by simp)
    · rw [hdone] at h
      exact absurd (Prod.mk.inj h).2 (by simp)
    · rw [hdone] at h
      exact (Prod.mk.inj h).1 ▸ exists_holds_of_rename hadds (by simp) hfree hrename

def stocked : FileSystem := ⟨[(["a"], .file "x")], []⟩

/-- The file is there after a move that the system refuses, and replaced after one that it does not
refuse. A file that is not there is not there after a refused move, though its directory is. -/
theorem saveWith_exact_stocked :
    let data := (default : Program).encode .standard (.ofPath "a")
    let refusal : FileError := ⟨"rename", "./tmp-0 a", .busy⟩
    let refusing : SaveConditions := { undisturbed with rename := some refusal }
    Fails refusing stocked "a" data refusal ∧
      (stocked.saveWith refusing "a" data).1.node? "a" = some ([Bytes.ofString "a"], .file "x") ∧
      (∃ after goal, stocked.saveWith undisturbed "a" data = (after, none) ∧
        after.get? goal = some (.file data)) ∧
      ∃ after, stocked.saveWith refusing "d/b" data = (after, some refusal) ∧ after ≠ stocked ∧
        after.node? "d/b" = stocked.node? "d/b" := by
  intro data refusal refusing
  have hrefused : stocked.saveWith refusing "a" data = (stocked, some refusal) := by
    generalize data = data
    cbv
  have hsaved : stocked.saveWith undisturbed "a" data =
      (⟨[(["a"], .file data)], []⟩, none) := by
    generalize data = data
    cbv
  have hmade : stocked.saveWith refusing "d/b" data =
      (⟨[(["a"], .file "x"), (["d"], .directory)], []⟩, some refusal) := by
    generalize data = data
    cbv
  have htree : stocked.IsTree := by
    intro place name hname
    cases place with
    | nil => exact get?_nil stocked
    | cons c rest => exact absurd (by simp [stocked, get?]) hname
  have hname : EndsInName "d/b" := ⟨⟨by decide, by decide, by decide⟩, by decide⟩
  have h := saveWith_exact .standard refusing stocked "a" default
  have h' := saveWith_exact .standard refusing stocked "d/b" default
  obtain ⟨goal, hgoal⟩ := (saveWith_exact .standard undisturbed stocked "a" default).2.2 _ hsaved
  refine ⟨(h.1 refusal).1 (by rw [hrefused]), ?_, ⟨_, goal, hsaved, hgoal.holds⟩, _, hmade,
    by simp [stocked], (h'.2.1 _ refusal hmade).node_eq htree hname⟩
  rw [hrefused]
  exact (h.2.1 stocked refusal hrefused).node _ _ (by cbv)

end FileSystem

end StateBuffer
