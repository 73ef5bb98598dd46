import Mathlib
import StateBuffer.Files.Change
import StateBuffer.Proofs.Path.Parent

/-!
Locations and the paths that lead to them. What is put at a location or erased there changes no
other location. A walk that finds a node or a free name says so of the locations themselves, and
goes the same way after directories were added.
-/

namespace StateBuffer

open StateBuffer.Path

namespace FileSystem

variable {fs fs' : FileSystem} {place spot here parent : Location} {n : Node} {name : Bytes}

/-! ### Locations -/

@[simp] lemma get?_nil (fs : FileSystem) : fs.get? [] = some .directory := if_pos rfl

lemma get?_of_ne (fs : FileSystem) (h : place ≠ []) :
    fs.get? place = (fs.nodes.find? fun m => m.1 = place).map Prod.snd := if_neg h

lemma get?_put_self (fs : FileSystem) (h : place ≠ []) : (fs.put place n).get? place = some n := by
  have hnone : (fs.nodes.filter fun m => m.1 ≠ place).find? (fun m => m.1 = place) = none :=
    List.find?_eq_none.2 fun m hm => by simpa using (List.mem_filter.1 hm).2
  rw [get?_of_ne _ h, put, List.find?_append, hnone]
  simp

lemma get?_erase_of_ne (fs : FileSystem) (h : spot ≠ place) :
    (fs.erase place).get? spot = fs.get? spot := by
  by_cases hspot : spot = []
  · rw [hspot, get?_nil, get?_nil]
  rw [get?_of_ne _ hspot, get?_of_ne _ hspot, erase, List.find?_filter]
  refine congrArg _ (List.find?_congr fun m _ => ?_)
  by_cases hm : m.1 = spot <;> simp [hm, h]

lemma get?_put_of_ne (fs : FileSystem) (h : spot ≠ place) :
    (fs.put place n).get? spot = fs.get? spot := by
  rw [← get?_erase_of_ne fs h]
  by_cases hspot : spot = []
  · rw [hspot, get?_nil, get?_nil]
  rw [get?_of_ne _ hspot, get?_of_ne _ hspot, put, erase, List.find?_append]
  simp [Ne.symm h]

lemma erase_put_of_free (hplace : place ≠ []) (h : fs.get? place = none) (n : Node) :
    (fs.put place n).erase place = fs := by
  have hkeep : fs.nodes.filter (fun m => m.1 ≠ place) = fs.nodes := by
    rw [get?_of_ne _ hplace, Option.map_eq_none_iff, List.find?_eq_none] at h
    exact List.filter_eq_self.2 fun m hm => by simpa using h m hm
  have hnodes : ((fs.put place n).erase place).nodes = fs.nodes := by
    rw [erase, put, List.filter_append, hkeep, hkeep]
    simp
  exact congrArg (fun nodes => { fs with nodes }) hnodes

/-! ### Walks -/

section Steps

variable {follow : Bool} {links : Nat} {c target : Bytes} {rest : List Bytes}

lemma walk_of_file {data : Bytes} (h : fs.get? here = some (.file data)) (hrest : rest ≠ []) :
    fs.walk follow links here rest = .error .notDirectory := by
  obtain ⟨c, rest, rfl⟩ := List.exists_cons_of_ne_nil hrest
  rw [walk, isDirectory, h]
  simp

variable (hdir : fs.get? here = some .directory)

include hdir

lemma walk_dot : fs.walk follow links here ("." :: rest) = fs.walk follow links here rest := by
  rw [walk, isDirectory, hdir]
  simp

lemma walk_up :
    fs.walk follow links here (".." :: rest) = fs.walk follow links here.dropLast rest := by
  rw [walk, isDirectory, hdir]
  simp [show Bytes.ofString ".." ≠ Bytes.ofString "." by decide]

variable (hdot : c ≠ ".") (hup : c ≠ "..") (hlength : ¬ maxName < c.length)

include hdot hup hlength

lemma walk_link (hc : fs.get? (here ++ [c]) = some (.link target))
    (hrest : ¬ (rest = [] ∧ !follow)) :
    fs.walk follow (links + 1) here (c :: rest) =
      fs.walk follow links (if isAbsolute target then [] else here) (steps target ++ rest) := by
  rw [walk, isDirectory, hdir]
  simp only [hdot, hup, hlength, hc, if_neg hrest]
  simp

lemma walk_through (hc : fs.get? (here ++ [c]) = some n) (hlink : ∀ target, n ≠ .link target) :
    fs.walk follow links here (c :: rest) = fs.walk follow links (here ++ [c]) rest := by
  rw [walk, isDirectory, hdir]
  cases n with
  | link target => exact absurd rfl (hlink target)
  | file data => simp [hdot, hup, hlength, hc]
  | directory => simp [hdot, hup, hlength, hc]

end Steps

lemma get?_of_walk_node {follow : Bool} {links : Nat} {todo : List Bytes}
    (h : fs.walk follow links here todo = .ok (.node place n)) : fs.get? place = some n := by
  fun_induction walk fs follow links here todo <;> simp_all

lemma free_of_walk_missing {follow : Bool} {links : Nat} {todo : List Bytes}
    (h : fs.walk follow links here todo = .ok (.missing parent name)) :
    fs.get? parent = some .directory ∧ fs.get? (parent ++ [name]) = none := by
  fun_induction walk fs follow links here todo <;> simp_all [isDirectory]

/-- The second file system has all that the first one has. -/
structure Keeps (fs fs' : FileSystem) : Prop where
  workDir_eq : fs'.workDir = fs.workDir
  get?_of_some : ∀ {place n}, fs.get? place = some n → fs'.get? place = some n

lemma Keeps.walk_eq (h : fs.Keeps fs') {follow : Bool} {links : Nat} {todo : List Bytes}
    (hwalk : fs.walk follow links here todo = .ok (.node place n)) :
    fs'.walk follow links here todo = .ok (.node place n) := by
  have hkeep := @h.get?_of_some
  fun_induction walk fs follow links here todo <;> rw [walk] <;> grind [isDirectory]

lemma keeps_put (h : fs.get? place = none) (n : Node) : fs.Keeps (fs.put place n) := by
  refine ⟨rfl, fun {spot m} hm => ?_⟩
  have hne : spot ≠ place := by
    rintro rfl
    exact absurd (h.symm.trans hm) (by simp)
  rw [get?_put_of_ne fs hne, hm]

/-- The second file system has all that the first one has, and besides only directories. -/
structure AddsDirectories (fs fs' : FileSystem) : Prop where
  workDir_eq : fs'.workDir = fs.workDir
  get?_eq : ∀ place, fs'.get? place = fs.get? place ∨
    fs.get? place = none ∧ fs'.get? place = some .directory

namespace AddsDirectories

lemma refl (fs : FileSystem) : fs.AddsDirectories fs := ⟨rfl, fun _ => .inl rfl⟩

lemma trans {fs'' : FileSystem} (h : fs.AddsDirectories fs') (h' : fs'.AddsDirectories fs'') :
    fs.AddsDirectories fs'' := by
  refine ⟨h'.workDir_eq.trans h.workDir_eq, fun place => ?_⟩
  rcases h'.get?_eq place with heq' | ⟨hnone', hdir'⟩
  · rw [heq']
    exact h.get?_eq place
  · rcases h.get?_eq place with heq | ⟨hnone, -⟩
    · exact .inr ⟨heq ▸ hnone', hdir'⟩
    · exact .inr ⟨hnone, hdir'⟩

lemma put (h : fs.get? place = none) : fs.AddsDirectories (fs.put place .directory) := by
  refine ⟨rfl, fun spot => ?_⟩
  by_cases hspot : spot = place
  · subst hspot
    have hne : spot ≠ [] := by
      rintro rfl
      exact absurd h (by simp)
    exact .inr ⟨h, get?_put_self fs hne⟩
  · exact .inl (get?_put_of_ne fs hspot)

lemma keeps (h : fs.AddsDirectories fs') : fs.Keeps fs' := by
  refine ⟨h.workDir_eq, fun {place n} hn => ?_⟩
  rcases h.get?_eq place with heq | ⟨hnone, -⟩
  · rw [heq, hn]
  · exact absurd (hnone.symm.trans hn) (by simp)

end AddsDirectories

/-- A walk to a free name, a file or a link leads there as well when there is another file, as long
as the directories and links elsewhere stay. It may only be that the walk led through this link
before, and can not go on behind the file. -/
lemma walk_of_replaced {goal : Location} {data : Bytes}
    (hkeep : ∀ spot n, spot ≠ goal → fs.get? spot = some n → (∀ old, n ≠ .file old) →
      fs'.get? spot = some n)
    (hgoal : fs'.get? goal = some (.file data)) (hnot : fs.get? goal ≠ some .directory)
    {links : Nat} {todo : List Bytes} {found : Found}
    (hwalk : fs.walk false links here todo = .ok found)
    (hfound : (∃ n, found = .node goal n) ∨
      ∃ parent name, found = .missing parent name ∧ parent ++ [name] = goal) :
    fs'.walk true links here todo = .ok (.node goal (.file data)) ∨
      (∃ target, fs.get? goal = some (.link target)) ∧
        fs'.walk true links here todo = .error .notDirectory := by
  have hdirectory : ∀ {spot}, ¬ (!fs.isDirectory spot) = true →
      fs'.get? spot = some .directory := fun {spot} h => by
    have h : fs.get? spot = some .directory := by simpa [isDirectory] using h
    exact hkeep spot _ (fun heq => hnot (heq ▸ h)) h (by simp)
  fun_induction walk fs false links here todo with
  | case2 | case3 | case6 | case8 | case10 => exact absurd hwalk (by simp)
  | case1 links here n hn =>
    obtain rfl := Except.ok.inj hwalk
    have hplace : here = goal := by simpa using hfound
    rw [hplace, walk, hgoal]
    exact .inl rfl
  | case4 links here rest hdir ih =>
    rw [walk_dot (hdirectory hdir)]
    exact ih hwalk
  | case5 links here rest hdir _ ih =>
    rw [walk_up (hdirectory hdir)]
    exact ih hwalk
  | case7 links here c hdir hdot hup hlength hc =>
    obtain rfl := Except.ok.inj hwalk
    have hplace : here ++ [c] = goal := by simpa using hfound
    rw [walk_through (hdirectory hdir) hdot hup hlength (hplace ▸ hgoal) (by simp), hplace, walk,
      hgoal]
    exact .inl rfl
  | case9 links here c rest hdir hdot hup hlength target hc hend =>
    obtain rfl := Except.ok.inj hwalk
    have hplace : here ++ [c] = goal := by simpa using hfound
    rw [walk_through (hdirectory hdir) hdot hup hlength (hplace ▸ hgoal) (by simp), hplace, hend.1,
      walk, hgoal]
    exact .inl rfl
  | case11 here c rest hdir hdot hup hlength target hc hend links ih =>
    by_cases hplace : here ++ [c] = goal
    · have hrest : rest ≠ [] := fun hnil => hend ⟨hnil, rfl⟩
      rw [walk_through (hdirectory hdir) hdot hup hlength (hplace ▸ hgoal) (by simp), hplace]
      exact .inr ⟨⟨target, hplace ▸ hc⟩, walk_of_file hgoal hrest⟩
    · rw [walk_link (hdirectory hdir) hdot hup hlength (hkeep _ _ hplace hc (by simp)) (by simp)]
      exact ih hwalk
  | case12 links here c rest hdir hdot hup hlength n hlink hc ih =>
    cases n with
    | link target => exact absurd rfl (hlink target)
    | directory =>
      have hne : here ++ [c] ≠ goal := fun heq => hnot (heq ▸ hc)
      rw [walk_through (hdirectory hdir) hdot hup hlength (hkeep _ _ hne hc (by simp)) (by simp)]
      exact ih hwalk
    | file old =>
      have hrest : rest = [] := by
        by_contra hrest
        rw [walk_of_file hc hrest] at hwalk
        exact absurd hwalk (by simp)
      subst hrest
      rw [walk, hc] at hwalk
      obtain rfl := Except.ok.inj hwalk
      have hplace : here ++ [c] = goal := by simpa using hfound
      rw [walk_through (hdirectory hdir) hdot hup hlength (hplace ▸ hgoal) (by simp), hplace, walk,
        hgoal]
      exact .inl rfl

/-! ### Below a new directory -/

/-- What stands somewhere stands in a directory. -/
def IsTree (fs : FileSystem) : Prop :=
  ∀ place name, fs.get? (place ++ [name]) ≠ none → fs.get? place = some .directory

lemma IsTree.put (h : fs.IsTree) (hparent : fs.get? parent = some .directory)
    (hnot : fs.get? (parent ++ [name]) ≠ some .directory) (n : Node) :
    (fs.put (parent ++ [name]) n).IsTree := by
  intro place c hc
  have hdir : fs.get? place = some .directory := by
    by_cases heq : place ++ [c] = parent ++ [name]
    · rw [(List.append_inj' heq rfl).1, hparent]
    · rw [get?_put_of_ne fs heq] at hc
      exact h place c hc
  have hne : place ≠ parent ++ [name] := fun heq => hnot (heq ▸ hdir)
  rw [get?_put_of_ne fs hne, hdir]

lemma exists_walk_eq (hdir : fs.get? here = some .directory) {c : Bytes} (hc : c ≠ ".")
    {todo' todo rest : List Bytes} (h : withoutDots todo' = withoutDots (c :: todo ++ rest))
    (follow : Bool) (links : Nat) :
    ∃ todo'', withoutDots todo'' = withoutDots (todo ++ rest) ∧
      fs.walk follow links here todo' = fs.walk follow links here (c :: todo'') := by
  rw [List.cons_append, withoutDots_cons hc] at h
  induction todo' with
  | nil => exact absurd h (by simp [withoutDots])
  | cons d todo' ih =>
    by_cases hd : d = "."
    · subst hd
      rw [withoutDots_dot_cons] at h
      rw [walk_dot hdir]
      exact ih h
    · rw [withoutDots_cons hd] at h
      obtain ⟨rfl, htodo⟩ := List.cons.inj h
      exact ⟨todo', htodo, rfl⟩

/-- **A new directory** has nothing in it: behind the way to the name it was put at there is only
what is not there, however many dots are on the way. -/
lemma walk_beyond_ne_node (htree : fs.IsTree) {follow : Bool} {links : Nat} {todo : List Bytes}
    (hwalk : fs.walk follow links here todo = .ok (.missing parent name))
    {c : Bytes} (hc : Stays c) {rest todo' : List Bytes}
    (htodo : withoutDots todo' = withoutDots (todo ++ c :: rest)) (follow' : Bool) :
    (fs.put (parent ++ [name]) .directory).walk follow' links here todo' ≠ .ok (.node place n) := by
  obtain ⟨-, hfree⟩ := free_of_walk_missing hwalk
  have hkeeps := keeps_put hfree .directory
  have hdirectory : ∀ {spot}, ¬ (!fs.isDirectory spot) = true →
      (fs.put (parent ++ [name]) .directory).get? spot = some .directory :=
    fun h => hkeeps.get?_of_some (by simpa [isDirectory] using h)
  fun_induction walk fs follow links here todo generalizing todo' with
  | case1 | case2 | case3 | case6 | case8 | case9 | case10 => exact absurd hwalk (by simp)
  | case4 links here todo hdir ih => exact ih hwalk (htodo.trans (withoutDots_dot_cons _))
  | case5 links here todo hdir hdot ih =>
    obtain ⟨todo', htodo', heq⟩ := exists_walk_eq (hdirectory hdir) hdot htodo follow' links
    rw [heq, walk_up (hdirectory hdir)]
    exact ih hwalk htodo'
  | case7 links here c' hdir hdot hup hlength hc' =>
    obtain ⟨rfl, rfl⟩ := Found.missing.inj (Except.ok.inj hwalk)
    obtain ⟨todo', htodo', heq⟩ := exists_walk_eq (hdirectory hdir) hdot htodo follow' links
    have hnew : (fs.put (here ++ [c']) .directory).get? (here ++ [c']) = some .directory :=
      get?_put_self fs (by simp)
    rw [heq, walk_through (hdirectory hdir) hdot hup hlength hnew (by simp)]
    -- now one step into the new directory
    have hrest : withoutDots todo' = withoutDots ([c] ++ rest) := htodo'
    obtain ⟨todo', -, heq⟩ := exists_walk_eq hnew hc.2.1 hrest follow' links
    have hbelow : (fs.put (here ++ [c']) .directory).get? (here ++ [c'] ++ [c]) = none := by
      rw [get?_put_of_ne fs (by simp)]
      by_contra hbelow
      exact absurd ((htree _ _ hbelow).symm.trans hc') (by simp)
    rw [heq, walk, isDirectory, hnew, hbelow]
    simp only [hc.2.1, hc.2.2]
    split_ifs <;> simp_all
  | case11 here c' todo hdir hdot hup hlength target hc' hend links ih =>
    obtain ⟨todo', htodo', heq⟩ :=
      exists_walk_eq (hdirectory hdir) hdot htodo follow' (links + 1)
    have hne : todo' ≠ [] := by
      rintro rfl
      rw [withoutDots_append, withoutDots_cons hc.2.1] at htodo'
      exact absurd htodo' (by simp [withoutDots])
    rw [heq, walk_link (hdirectory hdir) hdot hup hlength (hkeeps.get?_of_some hc') (by simp [hne])]
    exact ih hwalk (by
      rw [withoutDots_append, htodo', ← withoutDots_append, List.append_assoc])
  | case12 links here c' todo hdir hdot hup hlength n hlink hc' ih =>
    obtain ⟨todo', htodo', heq⟩ := exists_walk_eq (hdirectory hdir) hdot htodo follow' links
    rw [heq, walk_through (hdirectory hdir) hdot hup hlength (hkeeps.get?_of_some hc') hlink]
    exact ih hwalk htodo'

end FileSystem

end StateBuffer
