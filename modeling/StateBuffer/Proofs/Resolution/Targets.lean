import StateBuffer.Proofs.Path
import StateBuffer.Proofs.Resolution.Renaming
import StateBuffer.Proofs.Syntax.Origins
import StateBuffer.Proofs.Validation

/-!
Targets of imports. An import looks for a file by its dot path and shows the path of a file, two
texts that are put together separately. In a set whose files lie below the root as their dot paths
say, the two agree: the target is the file at the path that is shown.
-/

namespace StateBuffer

/-! ### Files below a root -/

/-- A component of a dot path: not empty, without dots and slashes. -/
def IsComponent (c : Bytes) : Prop := c ≠ [] ∧ 0x2E ∉ c ∧ Path.separator ∉ c

instance : DecidablePred IsComponent := fun c =>
  inferInstanceAs (Decidable (c ≠ [] ∧ 0x2E ∉ c ∧ Path.separator ∉ c))

/-- The path of the file with the given components below the root. -/
def SourceFile.pathAt (root : Bytes) (cs : List Bytes) : Bytes :=
  Path.join [root, Bytes.join [Path.separator] cs ++ ".gpex"]

/-- The file lies below the root as its dot path says. -/
structure SourceFile.At (f : SourceFile) (root : Bytes) (cs : List Bytes) : Prop where
  ne_nil : cs ≠ []
  component : ∀ c ∈ cs, IsComponent c
  path : f.path = pathAt root cs
  dotPath : f.dotPath = Bytes.join "." cs

/-- All files lie below the root as their dot paths say. -/
def SourceSet.LaidOut (s : SourceSet) (root : Bytes) : Prop :=
  ∀ f ∈ s.files.toList, ∃ cs, f.At root cs

section Components

variable {cs cs' : List Bytes} (hne : cs ≠ []) (h : ∀ c ∈ cs, IsComponent c)

include hne h

lemma split_dotPath : Bytes.split 0x2E (Bytes.join "." cs) = cs :=
  Bytes.split_join hne fun c hc => (h c hc).2.1

lemma isWay_path : Path.IsWay (Bytes.join [Path.separator] cs ++ ".gpex") := by
  have hsplit := Bytes.split_join hne fun c hc => (h c hc).2.2
  obtain ⟨before, last, rfl⟩ := (List.eq_nil_or_concat' cs).resolve_left hne
  have hextension : Bytes.split Path.separator ".gpex" = [(".gpex" : Bytes)] := by decide
  rw [Path.IsWay, Bytes.split_append hsplit hextension, List.forall_mem_append,
    List.forall_mem_singleton]
  refine ⟨fun c hc => ?_, ?_⟩
  · obtain ⟨hne, hdot, -⟩ := h c (List.mem_append_left _ hc)
    refine ⟨hne, ?_, ?_⟩ <;> rintro rfl <;> exact hdot (by decide)
  · have hlength : 5 ≤ (last ++ (".gpex" : Bytes)).length := by
      rw [List.length_append]
      exact Nat.le_add_left 5 _
    refine ⟨?_, ?_, ?_⟩ <;> intro he <;> rw [he] at hlength <;> exact absurd hlength (by decide)

variable (hne' : cs' ≠ []) (h' : ∀ c ∈ cs', IsComponent c)

include hne' h'

lemma pathAt_eq_iff (root : Bytes) : SourceFile.pathAt root cs = SourceFile.pathAt root cs' ↔
    Bytes.join "." cs = Bytes.join "." cs' := by
  have hpath : SourceFile.pathAt root cs = SourceFile.pathAt root cs' ↔ cs = cs' := by
    rw [SourceFile.pathAt, SourceFile.pathAt, Path.join_inj (isWay_path hne h) (isWay_path hne' h'),
      List.append_left_inj]
    refine ⟨fun he => ?_, fun he => by rw [he]⟩
    rw [← Bytes.split_join hne fun c hc => (h c hc).2.2, he,
      Bytes.split_join hne' fun c hc => (h' c hc).2.2]
  rw [hpath]
  refine ⟨fun he => by rw [he], fun he => ?_⟩
  rw [← split_dotPath hne h, he, split_dotPath hne' h']

end Components

/-- **Looking up** a dot path finds the file at that path. -/
lemma SourceSet.LaidOut.find?_eq {s : SourceSet} {root : Bytes} (hs : s.LaidOut root)
    {cs : List Bytes} (hne : cs ≠ []) (h : ∀ c ∈ cs, IsComponent c) :
    s.find? (Bytes.join "." cs) =
      (s.files.find? fun f => f.path = SourceFile.pathAt root cs).map SourceFile.id := by
  rw [find?, ← Array.find?_toList, ← Array.find?_toList]
  refine congrArg (Option.map SourceFile.id) (List.find?_congr fun f hf => ?_)
  obtain ⟨cs', hat⟩ := hs f hf
  rw [hat.path, hat.dotPath, decide_eq_decide]
  exact (pathAt_eq_iff hat.ne_nil hat.component hne h root).symm

/-! ### Import paths -/

/-- The import goes some levels up, and then down along names. -/
def Import.Climbs (i : Import) (up : Nat) (names : List Bytes) : Prop :=
  i.segments.map Segment.step = List.replicate up none ++ names.map some

namespace ImportIndex

/-- The directory that an import of a file with the given components starts from, if it does not
lie above the root. -/
def directory (cs : List Bytes) (up : Nat) : List Bytes :=
  if up = 0 then [] else cs.take (cs.length - up)

/-- The path of a file as it is shown: the root without slashes at its end, then each step after a
slash. -/
def shownPath (root : Bytes) (steps : List Bytes) : Bytes :=
  (if root = [] then [] else Bytes.trimEndOf Path.separator root ++ [Path.separator]) ++
    (Bytes.join [Path.separator] steps ++ ".gpex")

lemma triedPath_eq (root : Bytes) (above : Nat) {parts : List Bytes} (h : parts ≠ []) :
    triedPath root above parts =
      shownPath root (List.replicate above (".." : Bytes) ++ parts) := by
  unfold shownPath
  by_cases hroot : root = []
  · simp [triedPath, hroot]
  · simp [triedPath, hroot, Bytes.join_cons, h]

lemma clean_shownPath (root : Bytes) (cs : List Bytes) :
    Path.clean (shownPath root cs) = SourceFile.pathAt root cs := by
  have hway : Bytes.join [Path.separator] cs ++ (".gpex" : Bytes) ≠ [] := by simp [Bytes.ofString]
  unfold shownPath SourceFile.pathAt
  by_cases hroot : root = []
  · rw [if_pos hroot, hroot]
    simp [Path.join, Bytes.join, hway]
  · rw [if_neg hroot, List.append_assoc, List.singleton_append, Path.clean_trimEndOf]
    simp [Path.join, Bytes.join, hroot]

lemma splitPath_of_climbs {segments : List Segment} {up : Nat} {names : List Bytes}
    (h : segments.map Segment.step = List.replicate up none ++ names.map some) :
    splitPath segments = (up, names) := by
  -- places do not matter, so take the path that has none
  let plain := List.replicate up (.parent Span.none) ++ names.map (Segment.name · Span.none)
  have hplain : segments.map Segment.step = plain.map Segment.step := by
    simpa [plain, Segment.step, Function.comp_def] using h
  rw [splitPath_congr hplain]
  clear h hplain
  induction up with
  | zero => cases names <;> simp [plain, splitPath, namesOf, Segment.text, Function.comp_def]
  | succ up ih =>
    simp only [plain, List.replicate_succ, List.cons_append, splitPath] at ih ⊢
    rw [ih]

/-- **The target of an import** of a file at `cs`: at or below the root, the file at the path that
is shown; and none above it. -/
lemma resolve_laidOut {s : SourceSet} {root : Bytes} (hs : s.LaidOut root) {file : FileId}
    {f : SourceFile} (hget : s.get? file = some f) {cs : List Bytes} (hat : f.At root cs)
    {i : Import} {up : Nat} {names : List Bytes} (hclimbs : i.Climbs up names) (hne : names ≠ [])
    (hnames : ∀ name ∈ names, IsComponent name) :
    resolve s root file i = .ok (if cs.length < up then
      (none, shownPath root (List.replicate (up - cs.length) (".." : Bytes) ++ names))
    else ((s.files.find? fun g => g.path = SourceFile.pathAt root (directory cs up ++ names)).map
      SourceFile.id, shownPath root (directory cs up ++ names))) := by
  have hstart : startOf f.dotPath up = (up - cs.length, directory cs up) := by
    rw [hat.dotPath, startOf, directory]
    by_cases hup : up = 0
    · rw [if_pos hup, if_pos hup, hup, Nat.zero_sub]
    · rw [if_neg hup, if_neg hup]
      simp only [split_dotPath hat.ne_nil hat.component]
  have hparts : directory cs up ++ names ≠ [] := List.append_ne_nil_of_right_ne_nil _ hne
  rw [resolve_eq hget (splitPath_of_climbs hclimbs) hstart, triedPath_eq root _ hparts]
  by_cases habove : cs.length < up
  · -- no component is left, only levels above the root
    have hnil : directory cs up = [] := by
      rw [directory, if_neg (by omega), show cs.length - up = 0 by omega, List.take_zero]
    rw [if_pos habove, if_pos (by omega), hnil, List.nil_append]
  · have hcomponents : ∀ c ∈ directory cs up ++ names, IsComponent c := by
      refine List.forall_mem_append.2 ⟨fun c hc => ?_, hnames⟩
      unfold directory at hc
      split_ifs at hc
      · exact absurd hc List.not_mem_nil
      · exact hat.component c (List.mem_of_mem_take hc)
    rw [if_neg habove, if_neg (by omega), hs.find?_eq hparts hcomponents,
      show up - cs.length = 0 by omega, List.replicate_zero, List.nil_append]

end ImportIndex

/-! ### Names of the language -/

lemma isComponent_of_isName {name : Bytes} (h : IsName name) : IsComponent name := by
  obtain ⟨⟨b, rest, rfl, hb, hrest⟩, -⟩ := h
  have hmem : ∀ c ∈ b :: rest, isNameByte c = true := by
    refine List.forall_mem_cons.2 ⟨?_, hrest⟩
    rw [isNameByte, hb, Bool.true_or]
  exact ⟨List.cons_ne_nil _ _, fun hdot => absurd (hmem _ hdot) (by decide),
    fun hslash => absurd (hmem _ hslash) (by decide)⟩

namespace Grammar

lemma Dotted.exists_map {α : Type} {P : Bytes → Prop} {f : Lexeme → α} {ts : List Lexeme}
    {as : List α} (h : Dotted P f ts as) :
    ∃ us : List Lexeme, us ≠ [] ∧ as = us.map f ∧ ∀ u ∈ us, P u.text := by
  induction h with
  | @one t h => exact ⟨[t], List.cons_ne_nil _ _, rfl, List.forall_mem_singleton.2 h⟩
  | @more t dot ts as h _ _ ih =>
    obtain ⟨us, -, rfl, hus⟩ := ih
    exact ⟨t :: us, List.cons_ne_nil _ _, rfl, List.forall_mem_cons.2 ⟨h, hus⟩⟩

lemma PathOf.climbs {file : FileId} {ts : List Lexeme} {segments : List Segment}
    (h : PathOf file ts segments) : ∃ up names,
      segments.map Segment.step = List.replicate up none ++ names.map some ∧ names ≠ [] ∧
        ∀ name ∈ names, IsName name := by
  have hnames : ∀ us : List Lexeme, (us.map (nameOf file)).map Segment.step =
      (us.map Lexeme.text).map some := by
    intro us
    rw [List.map_map, List.map_map]
    rfl
  have hparents : ∀ us : List Lexeme, (us.map (parentOf file)).map Segment.step =
      List.replicate us.length none := by
    intro us
    rw [List.map_map]
    exact List.map_const' ..
  cases h with
  | names h =>
    obtain ⟨us, hne, rfl, hus⟩ := h.exists_map
    exact ⟨0, us.map Lexeme.text, hnames us, by simpa using hne, List.forall_mem_map.2 hus⟩
  | parents hp _ h =>
    obtain ⟨ps, -, rfl, -⟩ := hp.exists_map
    obtain ⟨us, hne, rfl, hus⟩ := h.exists_map
    exact ⟨ps.length, us.map Lexeme.text, by rw [List.map_append, hparents, hnames],
      by simpa using hne, List.forall_mem_map.2 hus⟩

end Grammar

/-! ### All imports of a set of files -/

namespace Project

open ImportIndex

/-- **Targets of imports are exact**, in a set of files that lie below a root as their dot paths
say, whatever the root is. An import of a file with some components goes some levels up and then
down along names, at least one. If it does not go up by more levels than there are components, its
edge has a target exactly if the path that is shown is, when cleaned, the path of a file; the target
is then the first such file, and the path consists of the root, the components that are left and the
names. Otherwise there is no target, and the path has a `..` for each level above the root. -/
theorem targets_exact (texts : List SourceText) (root : Bytes)
    (hlaid : (sourcesOf texts).LaidOut root) :
    ∃ r, Resolution.ofTree (sourcesOf texts) (treeOf texts) root = .ok r ∧
      ∀ f ∈ (sourcesOf texts).files.toList, ∀ cs, f.At root cs →
        ∀ id span i, (treeOf texts).item? id = some ⟨f.id, span, .imports i⟩ →
          ∃ edge up names, r.imports.edge? id = some edge ∧ i.Climbs up names ∧ names ≠ [] ∧
            (∀ name ∈ names, IsName name) ∧
            (up ≤ cs.length →
              edge.triedPath = shownPath root (directory cs up ++ names) ∧
              Path.clean edge.triedPath = SourceFile.pathAt root (directory cs up ++ names) ∧
              (edge.target.isSome ↔ ∃ g ∈ (sourcesOf texts).files.toList,
                g.path = Path.clean edge.triedPath) ∧
              edge.target = ((sourcesOf texts).files.find? fun g =>
                g.path = Path.clean edge.triedPath).map SourceFile.id) ∧
            (cs.length < up → edge.target = none ∧ edge.triedPath =
              shownPath root (List.replicate (up - cs.length) (".." : Bytes) ++ names)) := by
  obtain ⟨next, hn⟩ := numbered_treeOf texts
  obtain ⟨r, hr, hres⟩ := Resolution.ofTree_resolved hn root
  refine ⟨r, hr, fun f hf cs hat id span i hi => ?_⟩
  obtain ⟨g, -, -, ts, hpath⟩ := (sourcesOf texts).readFrom_parse.path hi
  obtain ⟨up, names, hclimbs, hne, hnames⟩ := hpath.climbs
  have hnames' : ∀ name ∈ names, IsComponent name :=
    fun name hname => isComponent_of_isName (hnames name hname)
  obtain ⟨edge, target, tried, hedge, hresolve, hmark⟩ := Validation.edge?_import hn hres hi rfl
  obtain rfl : edge.target = target := congrArg ImportEdge.target hmark
  obtain rfl : edge.triedPath = tried := congrArg ImportEdge.triedPath hmark
  rw [resolve_laidOut hlaid ((ordered_sourcesOf texts).get?_id hf) hat hclimbs hne hnames']
    at hresolve
  refine ⟨edge, up, names, hedge, hclimbs, hne, hnames, fun hup => ?_, fun hup => ?_⟩
  · rw [if_neg (by omega)] at hresolve
    obtain ⟨htarget, htried⟩ := Prod.mk.inj (Except.ok.inj hresolve)
    have hclean : Path.clean edge.triedPath =
        SourceFile.pathAt root (directory cs up ++ names) := by
      rw [← htried, clean_shownPath]
    refine ⟨htried.symm, hclean, ?_, ?_⟩
    · rw [hclean, ← htarget, Option.isSome_map, Array.find?_isSome]
      simp
    · rw [hclean, htarget]
  · rw [if_pos hup] at hresolve
    obtain ⟨htarget, htried⟩ := Prod.mk.inj (Except.ok.inj hresolve)
    exact ⟨htarget.symm, htried.symm⟩

/-- A file that imports one beside it, and one above the root. -/
def nested : List SourceText :=
  [⟨"/proj/pkg/sub/file.gpex", "pkg.sub.file", "import ~.sibling;import ~.~.~.~.top;", false⟩,
    ⟨"/proj/pkg/sub/sibling.gpex", "pkg.sub.sibling", "", false⟩]

/-- The first import is found, and the second is not. -/
theorem targets_exact_nested :
    (sourcesOf nested).LaidOut "/proj/" ∧ ∃ r edge edge',
      Resolution.ofTree (sourcesOf nested) (treeOf nested) "/proj/" = .ok r ∧
        r.imports.edge? 1 = some edge ∧ edge.target = some 2 ∧
        edge.triedPath = ("/proj/pkg/sub/sibling.gpex" : Bytes) ∧
        r.imports.edge? 2 = some edge' ∧ edge'.target = none ∧
        edge'.triedPath = ("/proj/../top.gpex" : Bytes) := by
  have hat : ∀ f ∈ (sourcesOf nested).files.toList,
      f.At "/proj/" (Bytes.split 0x2E f.dotPath) := by
    have hparts : ∀ f ∈ (sourcesOf nested).files.toList, Bytes.split 0x2E f.dotPath ≠ [] ∧
        (∀ c ∈ Bytes.split 0x2E f.dotPath, IsComponent c) ∧
        f.path = SourceFile.pathAt "/proj/" (Bytes.split 0x2E f.dotPath) ∧
        f.dotPath = Bytes.join "." (Bytes.split 0x2E f.dotPath) := by decide +kernel
    intro f hf
    obtain ⟨hne, hcomponent, hpath, hdotPath⟩ := hparts f hf
    exact ⟨hne, hcomponent, hpath, hdotPath⟩
  have hlaid : (sourcesOf nested).LaidOut "/proj/" := fun f hf => ⟨_, hat f hf⟩
  obtain ⟨f, hf, hid, hdotPath⟩ : ∃ f ∈ (sourcesOf nested).files.toList, f.id = 1 ∧
      Bytes.split 0x2E f.dotPath = [("pkg" : Bytes), ("sub" : Bytes), ("file" : Bytes)] := by
    decide +kernel
  obtain ⟨span, i, hi, hpath⟩ : ∃ span i,
      (treeOf nested).item? 1 = some ⟨f.id, span, .imports i⟩ ∧
        splitPath i.segments = (1, [("sibling" : Bytes)]) :=
    ⟨⟨1, 0, 17⟩, ⟨0, false, Span.none, ⟨1, 0, 6⟩,
      [.parent ⟨1, 7, 8⟩, .name "sibling" ⟨1, 9, 16⟩]⟩, by rw [hid]; decide +kernel, rfl⟩
  obtain ⟨span', i', hi', hpath'⟩ : ∃ span i,
      (treeOf nested).item? 2 = some ⟨f.id, span, .imports i⟩ ∧
        splitPath i.segments = (4, [("top" : Bytes)]) :=
    ⟨⟨1, 17, 36⟩, ⟨1, false, Span.none, ⟨1, 17, 23⟩, [.parent ⟨1, 24, 25⟩, .parent ⟨1, 26, 27⟩,
      .parent ⟨1, 28, 29⟩, .parent ⟨1, 30, 31⟩, .name "top" ⟨1, 32, 35⟩]⟩,
      by rw [hid]; decide +kernel, rfl⟩
  have hfile := hat f hf
  rw [hdotPath] at hfile
  obtain ⟨r, hr, hall⟩ := targets_exact nested "/proj/" hlaid
  obtain ⟨edge, up, names, hedge, hclimbs, -, -, hbelow, -⟩ := hall f hf _ hfile 1 span i hi
  obtain ⟨rfl, rfl⟩ := Prod.mk.inj ((splitPath_of_climbs hclimbs).symm.trans hpath)
  obtain ⟨htried, -, -, htarget⟩ := hbelow (by decide)
  obtain ⟨edge', up', names', hedge', hclimbs', -, -, -, habove⟩ := hall f hf _ hfile 2 span' i' hi'
  obtain ⟨rfl, rfl⟩ := Prod.mk.inj ((splitPath_of_climbs hclimbs').symm.trans hpath')
  obtain ⟨hnone, htried'⟩ := habove (by decide)
  rw [htried] at htarget
  exact ⟨hlaid, r, edge, edge', hr, hedge, htarget.trans (by decide +kernel),
    htried.trans (by decide +kernel), hedge', hnone, htried'.trans (by decide +kernel)⟩

end Project

end StateBuffer
