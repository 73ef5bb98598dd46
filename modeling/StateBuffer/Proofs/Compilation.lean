import Mathlib
import StateBuffer.Compilation.Basic
import StateBuffer.Proofs.Diagnostics
import StateBuffer.Proofs.Program.Snapshot
import StateBuffer.Proofs.Project.Reading
import StateBuffer.Shader.Verdict

/-!
Whole compilations, from a file system to a program. A compilation without an error went through all
passes: its files were read and parsed, their names resolved, no rule was broken, and the plan of
the program is the one of its files. Files whose dot paths are equal can then have variables that
share a key, and only one of them keeps its field.
-/

namespace StateBuffer

namespace Compilation

/-! ### One pass -/

section Passes

variable {c : Compilation} {w : Surroundings}

lemma read_eq {texts : List SourceText} {sources : SourceSet} (hcancel : w.cancelled = false)
    (hread : Project.readSources w.files w.race c.root = .ok texts)
    (hstored : texts.foldlM Project.addSource c.sources = .ok sources) :
    ∃ files passes, c.read w = { c with sources, files, passes } := by
  rw [Project.readSources, bind_eq_ok] at hread
  obtain ⟨paths, hpaths, htexts⟩ := hread
  simp only [read, hpaths, hcancel, Bool.false_and, Bool.false_eq_true, if_false, htexts, hstored]
  exact ⟨_, _, rfl⟩

lemma texts_of_read (h : (c.read w).error = none) : ∃ texts sources files passes,
    Project.readSources w.files w.race c.root = .ok texts ∧
      texts.foldlM Project.addSource c.sources = .ok sources ∧
      c.read w = { c with sources, files, passes } := by
  cases hpaths : Project.sourcePaths w.files c.root with
  | error e => simp [read, hpaths, fail] at h
  | ok paths =>
    cases hcancel : w.cancelled && !paths.isEmpty with
    | true => simp [read, hpaths, hcancel, fail] at h
    | false =>
      cases htexts : Project.readAll w.files w.race c.root paths with
      | error e => simp [read, hpaths, hcancel, htexts, fail] at h
      | ok texts =>
        cases hstored : texts.foldlM Project.addSource c.sources with
        | error e => simp [read, hpaths, hcancel, htexts, hstored, fail] at h
        | ok sources =>
          have heq : ∃ files passes, c.read w = { c with sources, files, passes } := by
            simp only [read, hpaths, hcancel, Bool.false_eq_true, if_false, htexts, hstored]
            exact ⟨_, _, rfl⟩
          obtain ⟨files, passes, heq⟩ := heq
          exact ⟨texts, sources, files, passes, bind_eq_ok.2 ⟨paths, hpaths, htexts⟩, hstored, heq⟩

lemma parse_eq (hp : c.sources.parse.failures = 0) : ∃ passes, c.parse =
    { c with parsed := c.sources.parse, passes } := by
  simp only [parse, hp, if_true, note, ParsedSources.diagnostics_of_failures hp, List.append_nil]
  exact ⟨_, rfl⟩

lemma failures_of_parse (h : c.parse.error = none) : c.sources.parse.failures = 0 := by
  by_contra hp
  simp [parse, hp] at h

lemma index_eq {r : Resolution} (hr : Resolution.ofTree c.sources c.parsed.tree c.root = .ok r) :
    ∃ passes, c.index = { c with resolution := some r, passes } := by
  simp only [index, hr, note]
  exact ⟨_, rfl⟩

lemma resolution_of_index (h : c.index.error = none) :
    ∃ r, Resolution.ofTree c.sources c.parsed.tree c.root = .ok r := by
  cases hr : Resolution.ofTree c.sources c.parsed.tree c.root with
  | error e => simp [index, hr, fail] at h
  | ok r => exact ⟨r, rfl⟩

def reported (c : Compilation) (r : Resolution) : Bag :=
  (Bag.empty c.options.maxDiagnostics).addAll (c.diagnostics ++ (Validation.check r).diagnostics)

lemma validate_eq {r : Resolution} (hr : c.resolution = some r)
    (hok : (c.reported r).failed c.options.warningsAsErrors = false) :
    ∃ report diagnostics passes, c.validate = { c with report, diagnostics, passes } := by
  have hbag : ((Bag.empty c.options.maxDiagnostics).addAll
      (c.diagnostics ++ (Validation.check r).diagnostics)).failed c.options.warningsAsErrors =
        false := hok
  simp only [validate, hr, bag, note, hbag, Bool.false_eq_true, if_false]
  exact ⟨_, _, _, rfl⟩

lemma not_failed_of_validate {r : Resolution} (hr : c.resolution = some r)
    (h : c.validate.error = none) : (c.reported r).failed c.options.warningsAsErrors = false := by
  by_contra hok
  rw [Bool.not_eq_false] at hok
  have hbag : ((Bag.empty c.options.maxDiagnostics).addAll
      (c.diagnostics ++ (Validation.check r).diagnostics)).failed c.options.warningsAsErrors =
        true := hok
  simp [validate, hr, bag, note, hbag] at h

lemma generate_eq {r : Resolution} {p : Plan} (hr : c.resolution = some r)
    (hp : Plan.lower c.sources r = .ok p) : ∃ passes, c.generate =
      { c with plan := some p, program := some p.program, passes } := by
  simp only [generate, hr, hp, note]
  exact ⟨_, rfl⟩

lemma plan_of_generate {r : Resolution} (hr : c.resolution = some r)
    (h : c.generate.error = none) : ∃ p, Plan.lower c.sources r = .ok p := by
  cases hp : Plan.lower c.sources r with
  | error e => simp [generate, hr, hp, fail] at h
  | ok p => exact ⟨p, rfl⟩

lemma verify_eq (w : Surroundings) (c : Compilation) :
    ∃ shader passes error, c.verify w = { c with shader, passes, error } := by
  unfold verify
  split
  · exact ⟨_, _, _, rfl⟩
  · split
    · exact ⟨_, _, _, rfl⟩
    · exact ⟨_, _, _, rfl⟩

end Passes

/-! ### All passes -/

section Run

variable {w : Surroundings} {root : Bytes} {options : CompileOptions}

lemma error_of_step {c : Compilation} {stage : Stage}
    (h : (step w c stage).error = none) : c.error = none := by
  unfold step at h
  split_ifs at h with he
  · exact h
  · simpa using he

lemma step_eq {c : Compilation} (he : c.error = none) :
    step w c .read = c.read w ∧ step w c .parse = c.parse ∧ step w c .index = c.index ∧
      step w c .validate = c.validate ∧ step w c .generate = c.generate ∧
      step w c .verify = c.verify w := by
  simp [step, he]

def generated (w : Surroundings) (root : Bytes) (options : CompileOptions) : Compilation :=
  [Stage.read, .parse, .index, .validate, .generate].foldl (step w) (start root options)

lemma run_eq : run w root options = if options.verifyShader then
    step w (generated w root options) .verify
    else generated w root options := by
  rw [run, stages, List.foldl_append]
  split_ifs
  · rfl
  · rfl

/-- The files of a project lead to a plan. -/
structure Compiles (w : Surroundings) (root : Bytes) (options : CompileOptions)
    (texts : List SourceText) (r : Resolution) (p : Plan) : Prop where
  read : Project.readSources w.files w.race root = .ok texts
  stored : texts.foldlM Project.addSource SourceSet.empty = .ok (Project.sourcesOf texts)
  parsed : (Project.sourcesOf texts).parse.failures = 0
  resolved : Resolution.ofTree (Project.sourcesOf texts) (Project.treeOf texts) root = .ok r
  checked : ((Bag.empty options.maxDiagnostics).addAll (Validation.check r).diagnostics).failed
    options.warningsAsErrors = false
  lowered : Plan.lower (Project.sourcesOf texts) r = .ok p

/-- The compilation has the files of a project and all that is made of them. -/
structure Made (c : Compilation) (texts : List SourceText) (r : Resolution) (p : Plan) : Prop where
  sources : c.sources = Project.sourcesOf texts
  parsed : c.parsed = (Project.sourcesOf texts).parse
  resolution : c.resolution = some r
  plan : c.plan = some p
  program : c.program = some p.program

/-- **A project that compiles** goes through the passes without an error, if nobody cancels it. -/
lemma Compiles.generated {texts : List SourceText} {r : Resolution} {p : Plan}
    (h : Compiles w root options texts r p) (hcancel : w.cancelled = false) :
    (generated w root options).error = none ∧ (generated w root options).Made texts r p := by
  obtain ⟨files, passes1, h1⟩ := read_eq (c := start root options) hcancel h.read h.stored
  obtain ⟨passes2, h2⟩ := parse_eq (c := (start root options).read w) (h1 ▸ h.parsed)
  obtain ⟨passes3, h3⟩ := index_eq (c := ((start root options).read w).parse) (r := r)
    (by rw [h2, h1]; exact h.resolved)
  obtain ⟨report, diagnostics, passes4, h4⟩ :=
    validate_eq (c := ((start root options).read w).parse.index) (r := r)
      (by rw [h3]) (by rw [h3, h2, h1]; exact h.checked)
  obtain ⟨passes5, h5⟩ :=
    generate_eq (c := ((start root options).read w).parse.index.validate) (r := r) (p := p)
      (by rw [h4, h3]) (by rw [h4, h3, h2, h1]; exact h.lowered)
  have hsteps : Compilation.generated w root options =
      ((start root options).read w).parse.index.validate.generate := by
    have e1 : ((start root options).read w).error = none := by rw [h1]; rfl
    have e2 : ((start root options).read w).parse.error = none := by rw [h2, e1]
    have e3 : ((start root options).read w).parse.index.error = none := by rw [h3, e2]
    have e4 : ((start root options).read w).parse.index.validate.error = none := by
      rw [h4, e3]
    have e0 : (start root options).error = none := rfl
    simp [Compilation.generated, step, e0, e1, e2, e3, e4]
  rw [hsteps, h5, h4, h3, h2, h1]
  exact ⟨rfl, rfl, rfl, rfl, rfl, rfl⟩

lemma passes_of_generated (h : (Compilation.generated w root options).error = none) :
    ∃ c1 c2 c3 c4, c1 = (start root options).read w ∧ c1.error = none ∧
      c2 = c1.parse ∧ c2.error = none ∧ c3 = c2.index ∧ c3.error = none ∧
      c4 = c3.validate ∧ c4.error = none ∧ c4.generate.error = none ∧
      Compilation.generated w root options = c4.generate := by
  simp only [Compilation.generated, List.foldl_cons, List.foldl_nil] at h ⊢
  have e4 := error_of_step h
  have e3 := error_of_step e4
  have e2 := error_of_step e3
  have e1 := error_of_step e2
  have hstep := @step_eq w
  refine ⟨_, _, _, _, (hstep rfl).1, e1, (hstep e1).2.1, e2, (hstep e2).2.2.1, e3,
    (hstep e3).2.2.2.1, e4, ?_, (hstep e4).2.2.2.2.1⟩
  rw [← (hstep e4).2.2.2.2.1]
  exact h

/-- **A compilation without an error** is that of a project that compiles. -/
lemma compiles_of_run (h : (run w root options).error = none) :
    ∃ texts r p, Compiles w root options texts r p ∧ (run w root options).Made texts r p := by
  have hgenerated : (Compilation.generated w root options).error = none := by
    rw [run_eq] at h
    split_ifs at h
    · exact error_of_step h
    · exact h
  obtain ⟨c1, c2, c3, c4, rfl, e1, rfl, e2, rfl, e3, rfl, e4, e5, hlast⟩ :=
    passes_of_generated hgenerated
  obtain ⟨texts, sources, files, passes1, hread, hstored, h1⟩ := texts_of_read e1
  obtain rfl : sources = Project.sourcesOf texts := Project.eq_foldl_of_foldlM_addSource hstored
  have hp := failures_of_parse e2
  obtain ⟨passes2, h2⟩ := parse_eq hp
  obtain ⟨r, hr⟩ := resolution_of_index e3
  obtain ⟨passes3, h3⟩ := index_eq hr
  have hok := not_failed_of_validate (r := r) (by rw [h3]) e4
  obtain ⟨report, diagnostics, passes4, h4⟩ := validate_eq (r := r) (by rw [h3]) hok
  obtain ⟨p, hlower⟩ := plan_of_generate (r := r) (by rw [h4, h3]) e5
  obtain ⟨passes5, h5⟩ := generate_eq (r := r) (by rw [h4, h3]) hlower
  have hmade : (Compilation.generated w root options).Made texts r p := by
    rw [hlast, h5, h4, h3, h2, h1]
    exact ⟨rfl, rfl, rfl, rfl, rfl⟩
  have hc : Compiles w root options texts r p := by
    constructor
    case read => exact hread
    case stored => exact hstored
    case parsed =>
      rw [h1] at hp
      exact hp
    case resolved =>
      rw [h2, h1] at hr
      exact hr
    case checked =>
      rw [h3, h2, h1] at hok
      exact hok
    case lowered =>
      rw [h4, h3, h2, h1] at hlower
      exact hlower
  refine ⟨texts, r, p, hc, ?_⟩
  rw [run_eq]
  split_ifs
  · -- the check of the shader leaves the program alone
    have hverify : step w (Compilation.generated w root options) .verify =
        (Compilation.generated w root options).verify w := by simp [step, hgenerated]
    obtain ⟨shader, passes, error, hv⟩ := verify_eq w (Compilation.generated w root options)
    rw [hverify, hv]
    exact ⟨hmade.sources, hmade.parsed, hmade.resolution, hmade.plan, hmade.program⟩
  · exact hmade

lemma sound_of_checked {texts : List SourceText} {r : Resolution} {next : NodeId}
    (hn : (Project.treeOf texts).Numbered (Project.sourcesOf texts).size next)
    (hres : Resolution.Resolved (Project.sourcesOf texts) (Project.treeOf texts) root r)
    (hok : ((Bag.empty options.maxDiagnostics).addAll (Validation.check r).diagnostics).failed
      options.warningsAsErrors = false) :
    ¬ Validation.Violation (Project.sourcesOf texts) (Project.treeOf texts) root r := by
  intro hv
  have hfailed := (Bag.failed_iff options.maxDiagnostics (Validation.check r).diagnostics
    options.warningsAsErrors).2 (.inl (hv.hasError hn hres))
  rw [hok] at hfailed
  simp at hfailed

lemma Compiles.sound {texts : List SourceText} {r : Resolution} {p : Plan}
    (h : Compiles w root options texts r p) {next : NodeId}
    (hn : (Project.treeOf texts).Numbered (Project.sourcesOf texts).size next)
    (hres : Resolution.Resolved (Project.sourcesOf texts) (Project.treeOf texts) root r) :
    ¬ Validation.Violation (Project.sourcesOf texts) (Project.treeOf texts) root r :=
  sound_of_checked hn hres h.checked

lemma Compiles.error_eq_none {texts : List SourceText} {r : Resolution} {p : Plan}
    (h : Compiles w root options texts r p) (hcancel : w.cancelled = false)
    (hv : options.verifyShader = false) :
    (run w root options).error = none ∧ (run w root options).Made texts r p := by
  rw [run_eq, hv]
  exact h.generated hcancel

end Run

/-! ### The fields of variables -/

/-- **Variables keep their fields** in the program of a compilation without an error, each one its
own, exactly if no two of them share both the dot path of their files and their name. None do if all
files have different dot paths. If none do, and sizes do not wrap around, the program runs and every
variable is read by its key, with any reader that understands the shaders of plans. -/
theorem run_keeps_iff (w : Surroundings) (root : Bytes) (options : CompileOptions)
    (h : (run w root options).error = none) :
    ∃ r p, (run w root options).resolution = some r ∧
      (run w root options).plan = some p ∧
      (run w root options).program = some p.program ∧
      (p.globals.map fun g => (g.item, g.key)) =
        ((run w root options).parsed.tree.vars.map fun d =>
          (d.item, Plan.keyOf (run w root options).sources d)) ∧
      (p.Keeps ↔ Plan.Unshared (run w root options).sources
        (run w root options).parsed.tree) ∧
      (((run w root options).sources.files.toList.map SourceFile.dotPath).Nodup →
        p.Keeps) ∧
      (p.Keeps → (run w root options).parsed.tree.vars.length < 2 ^ 30 →
        ∀ reader, Shader.Understood reader → ∃ m, p.program.execute reader = .ok m ∧
          ∀ d ∈ (run w root options).parsed.tree.vars, ∃ i,
            (∀ j, Resolution.Denotes r d.item j ↔ j = i) ∧
            m.read (Plan.keyOf (run w root options).sources d) =
              .ok (Int32.ofInt i)) := by
  obtain ⟨texts, r, p, hc, hmade⟩ := compiles_of_run h
  obtain ⟨next, hn⟩ := Project.numbered_treeOf texts
  obtain ⟨r', hr', hres⟩ := Resolution.ofTree_resolved hn root
  obtain rfl := Except.ok.inj (hc.resolved.symm.trans hr')
  have hsound := hc.sound hn hres
  obtain ⟨inits, seq, hlower, -⟩ := Plan.lower_ok hn hres hsound
  have hglobals : p.globals = Plan.globalsIn (Project.sourcesOf texts) (Project.treeOf texts) := by
    rw [Except.ok.inj (hc.lowered.symm.trans hlower)]
  have hkeys : p.Keeps ↔ ((Project.treeOf texts).vars.map
      (Plan.keyOf (Project.sourcesOf texts))).Nodup := by
    rw [Plan.keeps_iff, hglobals, Plan.map_key_globalsIn]
  rw [hmade.sources, hmade.parsed]
  refine ⟨r, p, hmade.resolution, hmade.plan, hmade.program, ?_, ?_, ?_, ?_⟩
  · rw [hglobals]
    refine List.ext_getElem? fun i => ?_
    simp only [List.getElem?_map, Plan.getElem?_globalsIn, Option.map_map]
    rfl
  · exact hkeys.trans (Project.nodup_keys_iff hc.parsed)
  · intro hnodup
    rw [Project.dotPaths_sourcesOf] at hnodup
    rw [hkeys, Project.nodup_keys_iff hc.parsed]
    exact Project.unshared_of_sound hnodup hsound
  · intro hkeeps hvars reader hread
    obtain ⟨p', m, hlower', hexecute, -, hall⟩ :=
      Plan.execute_of_sound hread hn hres hsound (hkeys.1 hkeeps) hvars
    obtain rfl := Except.ok.inj (hc.lowered.symm.trans hlower')
    refine ⟨m, hexecute, fun d hd => ?_⟩
    obtain ⟨i, hi, hvalue⟩ := hall d hd
    refine ⟨i, fun j => ⟨fun hj => hj.unique hi, ?_⟩, hvalue⟩
    rintro rfl
    exact hi

/-- A directory with two files whose dot paths are equal, and a variable of one name in both. -/
def sharing : FileSystem where
  nodes := [(["a"], .directory), (["a", "b.gpex"], .file "var _x=1;var _y=-7;"),
    (["a.b.gpex"], .file "var _x=2;")]
  workDir := []

lemma readSource_sharing (root : Bytes) (dotPath : Bytes)
    (h : Project.dotPath ((Path.relative? root "a/b.gpex").getD "a/b.gpex") = dotPath) :
    Project.readSource sharing root "a/b.gpex" =
      .ok ⟨"a/b.gpex", dotPath, "var _x=1;var _y=-7;", false⟩ := by
  have hread : sharing.read "a/b.gpex" = .ok "var _x=1;var _y=-7;" := by cbv
  have hdecode : decodeSource "var _x=1;var _y=-7;" =
      (("var _x=1;var _y=-7;" : Bytes), false) := by cbv
  simp only [Project.readSource, hread, hdecode, h]

/-- The directory as it is, read without a failure. -/
def aroundSharing : Surroundings := ⟨sharing, false, 0, Wgsl.frontEnd⟩

/-- What is found below the working directory, in order. -/
def sharingTexts : List SourceText :=
  [⟨"a.b.gpex", "a.b", "var _x=2;", false⟩, ⟨"a/b.gpex", "a.b", "var _x=1;var _y=-7;", false⟩]

lemma readSources_sharing : Project.readSources sharing 0 "." = .ok sharingTexts := by
  have hroot : sharing.lookUp false "lstat" "." = .ok ([], .directory) := by cbv
  have hread : sharing.read "a.b.gpex" = .ok "var _x=2;" := by cbv
  have hdecode : decodeSource "var _x=2;" = (("var _x=2;" : Bytes), false) := by cbv
  have hfirst : Project.readSource sharing "." "a.b.gpex" =
      .ok ⟨"a.b.gpex", "a.b", "var _x=2;", false⟩ := by
    simp only [Project.readSource, hread, hdecode]
    rfl
  have hsort : ([("a/b.gpex" : Bytes), ("a.b.gpex" : Bytes)]).mergeSort Bytes.le =
      [("a.b.gpex" : Bytes), ("a/b.gpex" : Bytes)] := by cbv
  have hpaths : Project.sourcePaths sharing "." =
      .ok [("a.b.gpex" : Bytes), ("a/b.gpex" : Bytes)] := by
    have hbelow : (((sharing.below []).filterMap fun (x : List Bytes × Node) =>
        if x.2 = .directory then none else some (Path.join (("." : Bytes) :: x.1))).filter
          fun p => Path.extension p = Project.extension) =
        [("a/b.gpex" : Bytes), ("a.b.gpex" : Bytes)] := by
      decide +kernel
    rw [Project.sourcePaths, hroot, ← hsort, ← hbelow]
  rw [Project.readSources, hpaths]
  show Project.readAll _ _ _ _ = _
  rw [Project.readAll_eq_ok_iff]
  simp only [List.map_cons, List.map_nil, hfirst, readSource_sharing "." "a.b" rfl, sharingTexts]

def aloneTexts : List SourceText := [⟨"a/b.gpex", "b", "var _x=1;var _y=-7;", false⟩]

lemma readSources_alone : Project.readSources sharing 0 "a" = .ok aloneTexts := by
  have hroot : sharing.lookUp false "lstat" "a" = .ok ([("a" : Bytes)], .directory) := by cbv
  have hpaths : Project.sourcePaths sharing "a" = .ok [("a/b.gpex" : Bytes)] := by
    have hsort : ([("a/b.gpex" : Bytes)]).mergeSort Bytes.le = [("a/b.gpex" : Bytes)] := by cbv
    have hbelow : (((sharing.below [("a" : Bytes)]).filterMap fun (x : List Bytes × Node) =>
        if x.2 = .directory then none else some (Path.join (("a" : Bytes) :: x.1))).filter
          fun p => Path.extension p = Project.extension) = [("a/b.gpex" : Bytes)] := by
      decide +kernel
    rw [Project.sourcePaths, hroot, ← hsort, ← hbelow]
  rw [Project.readSources, hpaths]
  show Project.readAll _ _ _ _ = _
  rw [Project.readAll_eq_ok_iff]
  simp only [List.map_cons, List.map_nil, readSource_sharing "a" "b" rfl, aloneTexts]

lemma compiles_of_texts {w : Surroundings} {root : Bytes} {texts : List SourceText}
    (hread : Project.readSources w.files w.race root = .ok texts)
    (hstored : texts.foldlM Project.addSource SourceSet.empty = .ok (Project.sourcesOf texts))
    (hparsed : (Project.sourcesOf texts).parse.failures = 0)
    (hclean : (Resolution.ofTree (Project.sourcesOf texts) (Project.treeOf texts)
      root).toOption.map (fun r => (Validation.check r).diagnostics.all fun e =>
        e.severity ≠ .error) = some true) :
    ∃ r p, Compiles w root ⟨false, 0, false⟩ texts r p ∧
      p.globals = Plan.globalsIn (Project.sourcesOf texts) (Project.treeOf texts) := by
  obtain ⟨next, hn⟩ := Project.numbered_treeOf texts
  obtain ⟨r, hr, hres⟩ := Resolution.ofTree_resolved hn root
  simp only [hr, Except.toOption, Option.map_some, Option.some.injEq, List.all_eq_true,
    decide_eq_true_eq] at hclean
  have hsound : ¬ Validation.Violation (Project.sourcesOf texts) (Project.treeOf texts) root r := by
    intro hv
    obtain ⟨e, he, hsev⟩ := hv.hasError hn hres
    exact hclean e he hsev
  obtain ⟨inits, seq, hlower, -⟩ := Plan.lower_ok hn hres hsound
  refine ⟨r, _, ⟨hread, hstored, hparsed, hr, ?_, hlower⟩, rfl⟩
  rw [← Bool.not_eq_true, Bag.failed_iff]
  rintro (⟨e, he, hsev⟩ | ⟨hw, -⟩)
  · exact hclean e he hsev
  · simp at hw

/-- In the directory alone both variables keep their fields, and one is read. -/
theorem run_keeps_iff_alone :
    ∃ p m, (run aroundSharing "a" ⟨false, 0, false⟩).error = none ∧
      (run aroundSharing "a" ⟨false, 0, false⟩).plan = some p ∧ p.Keeps ∧
      p.program.execute Wgsl.ModuleTree.ofText? = .ok m ∧ m.read "b:_y" = .ok (-7) := by
  obtain ⟨r, p, hc, hglobals⟩ := compiles_of_texts (w := aroundSharing) readSources_alone rfl
    (by decide +kernel) (by decide +kernel)
  obtain ⟨herror, hmade⟩ := hc.error_eq_none rfl rfl
  obtain ⟨r', p', hr', hp', -, -, -, hkeeps, hread⟩ :=
    run_keeps_iff aroundSharing "a" ⟨false, 0, false⟩ herror
  obtain rfl := Option.some.inj (hmade.resolution.symm.trans hr')
  rw [hmade.sources] at hkeeps
  rw [hmade.sources, hmade.parsed] at hread
  have hp := hkeeps (by rw [Project.dotPaths_sourcesOf]; decide)
  obtain ⟨m, hexecute, hall⟩ :=
    hread hp (by decide +kernel) Wgsl.ModuleTree.ofText? Shader.understood_ofText?
  -- the second variable
  have hvar : ((Project.treeOf aloneTexts).vars[1]?).map (fun d =>
      (d.item, Plan.keyOf (Project.sourcesOf aloneTexts) d)) = some (2, ("b:_y" : Bytes)) := by
    decide +kernel
  have hvalue : (((Project.treeOf aloneTexts).definition? 2).bind fun d =>
      (Project.treeOf aloneTexts).expr? d.definition.value).map Expr.body =
        some (.literal "-7") := by
    decide +kernel
  obtain ⟨d, hd, heq⟩ := Option.map_eq_some_iff.1 hvar
  obtain ⟨hitem, hkey⟩ := Prod.mk.inj heq
  obtain ⟨i, hi, hval⟩ := hall d (List.mem_of_getElem? hd)
  obtain ⟨e, he, hbody⟩ := Option.map_eq_some_iff.1 hvalue
  obtain ⟨d', hd', he⟩ := Option.bind_eq_some_iff.1 he
  obtain ⟨next, hn⟩ := Project.numbered_treeOf aloneTexts
  obtain ⟨r', hr', hres⟩ := Resolution.ofTree_resolved hn "a"
  obtain rfl := Except.ok.inj (hc.resolved.symm.trans hr')
  have hdenotes : Resolution.Denotes r d.item (-7) := by
    rw [hitem]
    exact .literal ⟨d', e, hres.tree ▸ hd', hres.tree ▸ he, hbody⟩ (by decide +kernel)
  rw [hkey, ← (hi (-7)).1 hdenotes] at hval
  exact ⟨p', m, herror, hp', hp, hexecute, hval⟩

/-- **A variable is lost**: of three variables of the two files only two have a field. -/
theorem run_sharing_loses :
    (run aroundSharing "." ⟨false, 0, false⟩).error = none ∧
      ∃ p, (run aroundSharing "." ⟨false, 0, false⟩).plan = some p ∧ p.globals.length = 3 ∧
        p.program.buffer.fields.size = 2 := by
  obtain ⟨r, p, hc, hglobals⟩ := compiles_of_texts (w := aroundSharing) readSources_sharing rfl
    (by decide +kernel) (by decide +kernel)
  obtain ⟨herror, hmade⟩ := hc.error_eq_none rfl rfl
  refine ⟨herror, p, hmade.plan, ?_, ?_⟩
  · rw [hglobals]
    decide +kernel
  · rw [show p.program.buffer.fields = FieldMap.ofList p.entries from rfl, FieldMap.size_ofList,
      Plan.map_fst_entries, hglobals]
    decide +kernel

end Compilation

end StateBuffer
