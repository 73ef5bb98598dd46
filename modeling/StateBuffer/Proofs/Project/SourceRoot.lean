import StateBuffer.Project.Manifest
import StateBuffer.Proofs.Path.Within

/-!
The source directory that a manifest names. It never lies outside the directory of the manifest,
and a root is refused for lying outside exactly if it leads there: names that only begin with two
dots, and detours that come back, are fine.
-/

namespace StateBuffer

open StateBuffer.Path

namespace Manifest

variable {m : Manifest}

lemma sourcePath_eq (habs : isAbsolute m.dir = true) (hclean : clean m.dir = m.dir)
    (hroot : isAbsolute m.root = false) :
    m.sourcePath = if within m.dir (join [m.dir, m.root]) then .ok (join [m.dir, m.root])
      else .error (.rootOutside m.path m.root) := by
  rw [sourcePath, hroot, if_neg (Bool.false_ne_true), join_clean habs hroot]
  cases hm : m.root with
  | nil =>
    have hjoin : join [m.dir, []] = m.dir := by
      rw [join_of_isAbsolute habs, clean_of_isAbsolute (isAbsolute_append habs _),
        components_join habs]
      exact (clean_of_isAbsolute habs).symm.trans hclean
    have hwithin : within m.dir m.dir = true := (within_iff habs habs).2 (List.prefix_refl _)
    rw [hjoin, if_pos hwithin]
    rfl
  | cons b rest => rfl

lemma sourceRoot_eq_ok_iff (fs : FileSystem) (path : Bytes) : m.sourceRoot fs = .ok path ↔
    m.sourcePath = .ok path ∧ (m.root = [] ∨ fs.stat path = .ok .directory) := by
  unfold sourceRoot
  cases m.sourcePath with
  | error e => simp [bind, Except.bind]
  | ok found =>
    simp only [bind, Except.bind, pure, Except.pure, Except.ok.injEq, List.isEmpty_iff]
    split_ifs with hroot
    · simp [hroot]
    · simp only [hroot, false_or]
      constructor
      · intro h
        split at h
        · exact absurd h (by simp)
        · rename_i hstat
          obtain rfl := Except.ok.inj h
          exact ⟨rfl, hstat⟩
        · exact absurd h (by simp)
      · rintro ⟨rfl, hstat⟩
        rw [hstat]

lemma sourceRoot_eq_outside_iff (fs : FileSystem) :
    m.sourceRoot fs = .error (.rootOutside m.path m.root) ↔
      m.sourcePath = .error (.rootOutside m.path m.root) := by
  unfold sourceRoot
  cases m.sourcePath with
  | error e => simp [bind, Except.bind]
  | ok found =>
    simp only [bind, Except.bind, pure, Except.pure, List.isEmpty_iff]
    split_ifs
    · simp
    · split <;> simp

/-- **The source root** can not escape. For a manifest in an absolute directory in its cleaned form,
whatever root it names, a source directory is that directory or lies below it, and has no component
`..`. A root that is not absolute is refused for lying outside exactly if, joined to the directory,
it lies neither there nor below; where it leads to is found by following its components. Any other
such root is taken if there is a directory. -/
theorem sourceRoot_exact (fs : FileSystem) {dir : Bytes} (hdir : m.dir = dir)
    (habs : isAbsolute dir = true) (hclean : clean dir = dir) :
    (∀ path, m.sourceRoot fs = .ok path →
      (path = dir ∨ LiesBelow dir path) ∧ (".." : Bytes) ∉ Bytes.split separator path) ∧
    (isAbsolute m.root = false →
      let path := join [dir, m.root]
      names path = leadFrom (names dir) m.root ∧
      (m.sourceRoot fs = .error (.rootOutside m.path m.root) ↔
        ¬ (path = dir ∨ LiesBelow dir path)) ∧
      (path = dir ∨ LiesBelow dir path → fs.stat path = .ok .directory →
        m.sourceRoot fs = .ok path)) := by
  subst hdir
  have hjoin := join_of_isAbsolute habs m.root
  have habsolute : isAbsolute (m.dir ++ separator :: m.root) = true := isAbsolute_append habs _
  have hnames : names m.dir = components m.dir := by rw [← names_clean habs, hclean]
  have hwithin : within m.dir (join [m.dir, m.root]) = true ↔
      join [m.dir, m.root] = m.dir ∨ LiesBelow m.dir (join [m.dir, m.root]) := by
    rw [hjoin, eq_or_liesBelow_iff habs hclean habsolute,
      within_iff habs (isAbsolute_clean habsolute), components_clean habsolute]
  refine ⟨fun path hpath => ?_, fun hroot => ⟨?_, ?_, fun hin hstat => ?_⟩⟩
  · obtain ⟨hpath, -⟩ := (sourceRoot_eq_ok_iff fs path).1 hpath
    have hroot : isAbsolute m.root = false := by
      refine Bool.eq_false_iff.2 fun hroot => ?_
      rw [sourcePath, if_neg (by simpa using ne_nil_of_isAbsolute hroot), if_pos hroot] at hpath
      exact absurd hpath (by simp)
    rw [sourcePath_eq habs hclean hroot] at hpath
    split_ifs at hpath with hin
    obtain rfl := Except.ok.inj hpath
    exact ⟨hwithin.1 hin, hjoin ▸ notMem_split_clean habsolute⟩
  · rw [hjoin, names_clean habsolute, components_join habs, hnames]
  · rw [sourceRoot_eq_outside_iff, sourcePath_eq habs hclean hroot, ← hwithin]
    split_ifs with hin
    · simp [hin]
    · simp [hin]
  · rw [sourceRoot_eq_ok_iff, sourcePath_eq habs hclean hroot, if_pos (hwithin.2 hin)]
    exact ⟨rfl, .inr hstat⟩

/-- A manifest in the directory `/p` that names a root. -/
def rooted (root : Bytes) : Manifest := { none with path := "/p/gpex.toml", root }

/-- Beside `/p` lies a directory whose name goes on behind that of `/p`, and in it one whose name
begins with two dots. -/
def siblings : FileSystem :=
  ⟨[(["p"], .directory), (["p", "..x"], .directory), (["pq"], .directory)], []⟩

/-- A detour out of the directory and back is taken, its neighbour is refused. -/
theorem sourceRoot_exact_detour :
    isAbsolute ("/p" : Bytes) = true ∧ clean "/p" = ("/p" : Bytes) ∧
      (rooted "../p/a/../..x").dir = "/p" ∧
      (rooted "../p/a/../..x").sourceRoot siblings = .ok "/p/..x" ∧
      (("/p/..x" : Bytes) = "/p" ∨ LiesBelow "/p" "/p/..x") ∧
      (rooted "../pq").dir = "/p" ∧
      (rooted "../pq").sourceRoot siblings = .error (.rootOutside "/p/gpex.toml" "../pq") := by
  have habs : isAbsolute ("/p" : Bytes) = true := by decide
  have hclean : clean "/p" = ("/p" : Bytes) := by decide
  have hdetour : (rooted "../p/a/../..x").dir = "/p" := by decide
  have hpq : (rooted "../pq").dir = "/p" := by decide
  have hjoin : join ["/p", "../p/a/../..x"] = ("/p/..x" : Bytes) := by decide
  have hbelow : LiesBelow "/p" "/p/..x" := ⟨by decide, [("..x" : Bytes)], by decide, by decide⟩
  have htaken : (rooted "../p/a/../..x").sourceRoot siblings = .ok "/p/..x" := by
    have h := ((sourceRoot_exact siblings hdetour habs hclean).2 (by decide)).2.2
    rw [show (rooted "../p/a/../..x").root = ("../p/a/../..x" : Bytes) from rfl, hjoin] at h
    exact h (.inr hbelow) (by cbv)
  refine ⟨habs, hclean, hdetour, htaken,
    ((sourceRoot_exact siblings hdetour habs hclean).1 _ htaken).1, hpq, ?_⟩
  refine ((sourceRoot_exact siblings hpq habs hclean).2 (by decide)).2.1.2 ?_
  rintro (heq | ⟨-, rest, -, hrest⟩)
  · exact absurd heq (by decide)
  · have hnames : names (join ["/p", (rooted "../pq").root]) = [("pq" : Bytes)] := by decide
    rw [hnames] at hrest
    exact absurd (List.cons.inj hrest).1 (by decide)

end Manifest

end StateBuffer
