import Mathlib
import StateBuffer.Compilation.Observe
import StateBuffer.Progress.View
import StateBuffer.Proofs.Compilation
import StateBuffer.Proofs.Limit
import StateBuffer.Proofs.Path

/-!
What the screen tells about a compilation. It shows a failure exactly if the event at the end of
some pass is an error. Passes that cannot read the files or reject the shader end so; parsing and
checking end without an error whatever they found, so that a compilation that fails there is shown
as done.
-/

namespace StateBuffer

/-! ### Shown paths -/

namespace Project

lemma displayPath_ne_nil (root : Bytes) {path : Bytes} (h : path ≠ []) :
    displayPath root path ≠ [] := by
  unfold displayPath
  cases hway : Path.relative? root path with
  | none => exact h
  | some way => exact Path.relative?_ne_nil hway

lemma ne_nil_of_sourcePaths {fs : FileSystem} {root : Bytes} {paths : List Bytes}
    (h : sourcePaths fs root = .ok paths) {path : Bytes} (hp : path ∈ paths) : path ≠ [] := by
  have hextension : Path.extension path = extension → path ≠ [] := by
    rintro he rfl
    exact absurd he (by decide)
  unfold sourcePaths at h
  split at h
  · cases h
  · obtain rfl := Except.ok.inj h
    rw [List.mem_mergeSort, List.mem_filter, decide_eq_true_iff] at hp
    exact hextension hp.2
  · obtain rfl := Except.ok.inj h
    split_ifs at hp with he
    · obtain rfl := List.mem_singleton.1 hp
      exact hextension he
    · simp at hp

lemma path_of_readAll {fs : FileSystem} {race : Nat} {root : Bytes} {paths : List Bytes}
    {texts : List SourceText} (h : readAll fs race root paths = .ok texts) {x : SourceText}
    (hx : x ∈ texts) : x.path ∈ paths := by
  have hmem : Except.ok x ∈ paths.map (readSource fs root) := by
    rw [readAll_eq_ok_iff.1 h]
    exact List.mem_map_of_mem hx
  obtain ⟨path, hpath, hread⟩ := List.mem_map.1 hmem
  unfold readSource at hread
  split at hread
  · cases hread
  · rwa [← Except.ok.inj hread]

end Project

/-! ### The screen -/

def ProgressEvent.tellsFailure (e : ProgressEvent) : Bool := e.isOverall && e.status = .error

namespace ProgressView

lemma failed_track (v : ProgressView) (file : Bytes) : (v.track file).failed = v.failed := by
  unfold track
  split_ifs <;> rfl

lemma failed_start (title : Bytes) (files : List Bytes) : (start title files).failed = false := by
  have hfold : ∀ (files : List Bytes) (v : ProgressView),
      (files.foldl track v).failed = v.failed := by
    intro files
    induction files with
    | nil => exact fun v => rfl
    | cons file files ih => exact fun v => (ih _).trans (failed_track v file)
  exact hfold files _

lemma failed_apply (v : ProgressView) (e : ProgressEvent) :
    (v.apply e).failed = (v.failed || e.tellsFailure) := by
  unfold apply ProgressEvent.tellsFailure
  cases e.isOverall with
  | true => rfl
  | false =>
    rw [Bool.false_and, Bool.or_false]
    exact failed_track v e.file

/-- **The screen fails** with the first failure of a whole stage, and for good. -/
lemma failed_foldl (v : ProgressView) (events : List ProgressEvent) :
    (events.foldl apply v).failed = (v.failed || events.any ProgressEvent.tellsFailure) := by
  induction events generalizing v with
  | nil => simp
  | cons e events ih => rw [List.foldl_cons, ih, failed_apply, List.any_cons, Bool.or_assoc]

lemma header_finish (v : ProgressView) :
    ∃ text, v.finish.header = (if v.finish.failed then "failed: " else "done: ") ++ text := by
  refine ⟨if v.stage.isEmpty then v.title else v.title ++ " (" ++ v.stage ++ ")", ?_⟩
  cases hfailed : v.failed <;> simp [header, finish, hfailed]

end ProgressView

/-! ### What passes tell -/

namespace Compilation

/-- The stages of a compilation, each with whether its events tell a failure. -/
def told (times : StageTimes) (c : Compilation) : List (Stage × Bool) :=
  c.passes.map fun p => (p.stage, (p.events times).any ProgressEvent.tellsFailure)

def shown (times : StageTimes) (title : Bytes) (files : List Bytes) (c : Compilation) :
    ProgressView :=
  ((c.events times).foldl ProgressView.apply (ProgressView.start title files)).finish

section Passes

variable (times : StageTimes) {c : Compilation} (w : Surroundings)

lemma failed_shown (title : Bytes) (files : List Bytes) (c : Compilation) :
    (c.shown times title files).failed = (c.told times).any Prod.snd := by
  show ((c.events times).foldl ProgressView.apply (ProgressView.start title files)).failed = _
  rw [ProgressView.failed_foldl, ProgressView.failed_start, Bool.false_or, events, told,
    List.any_flatMap, List.any_map]
  rfl

/-- The events of a pass tell what its end tells, unless a file without a name failed. -/
lemma tells_pass (p : Pass)
    (hsteps : ∀ file dotPath items error, .parsed file dotPath items error ∈ p.steps → file ≠ []) :
    (p.events times).any ProgressEvent.tellsFailure = p.error.isSome := by
  have hfiles : (p.steps.flatMap FileStep.events).any ProgressEvent.tellsFailure = false := by
    rw [List.any_eq_false]
    intro e he
    obtain ⟨step, hstep, he⟩ := List.mem_flatMap.1 he
    cases step with
    | checked file skipped =>
      obtain rfl := List.mem_singleton.1 he
      cases skipped <;> simp [ProgressEvent.tellsFailure, ProgressEvent.ofFile]
    | parsed file dotPath items error =>
      have hname := hsteps _ _ _ _ hstep
      cases error <;>
        simp only [FileStep.events, List.mem_cons, List.not_mem_nil, or_false] at he <;>
        rcases he with rfl | rfl <;>
        simp [ProgressEvent.tellsFailure, ProgressEvent.ofFile, ProgressEvent.isOverall, hname]
  have hqueued : (p.queued.map fun file => ProgressEvent.ofFile file .read .queued).any
      ProgressEvent.tellsFailure = false := by
    simp [ProgressEvent.tellsFailure, ProgressEvent.ofFile]
  simp only [Pass.events, List.any_append, List.any_cons, hfiles, hqueued]
  cases p.error <;>
    simp [ProgressEvent.tellsFailure, ProgressEvent.ofStage, ProgressEvent.isOverall]

lemma told_snoc {c' : Compilation} {p : Pass} {stage : Stage} {failed : Bool}
    (hp : c'.passes = c.passes ++ [p]) (hstage : p.stage = stage)
    (hfailed : p.error.isSome = failed)
    (hsteps : ∀ file dotPath items error, .parsed file dotPath items error ∈ p.steps → file ≠ []) :
    c'.told times = c.told times ++ [(stage, failed)] := by
  rw [told, hp, List.map_append, List.map_singleton, tells_pass times p hsteps, hstage, hfailed]
  rfl

lemma told_read (he : c.error = none) (hf : [] ∉ c.files) :
    (c.read w).told times =
        c.told times ++ [(.read, (c.read w).error.isSome)] ∧
      [] ∉ (c.read w).files := by
  unfold read
  cases hpaths : Project.sourcePaths w.files c.root with
  | error e => exact ⟨told_snoc times rfl rfl rfl (by simp), hf⟩
  | ok paths =>
    simp only
    split_ifs with hcancel
    · exact ⟨told_snoc times rfl rfl rfl (by simp), hf⟩
    · cases htexts : Project.readAll w.files w.race c.root paths with
      | error e => exact ⟨told_snoc times rfl rfl rfl (by simp), hf⟩
      | ok texts =>
        cases hstored : texts.foldlM Project.addSource c.sources with
        | error e =>
          simp only [hstored]
          exact ⟨told_snoc times rfl rfl rfl (by simp), hf⟩
        | ok sources =>
          simp only [hstored]
          refine ⟨?_, fun hmem => ?_⟩
          · exact told_snoc times rfl rfl (by simp [he]) (by simp)
          · obtain ⟨x, hx, hshown⟩ := List.mem_map.1 hmem
            have hpath := Project.ne_nil_of_sourcePaths hpaths (Project.path_of_readAll htexts hx)
            exact Project.displayPath_ne_nil _ hpath hshown

lemma told_parse (hf : [] ∉ c.files) : c.parse.told times = c.told times ++ [(.parse, false)] := by
  have hsteps : ∀ file dotPath items error, .parsed file dotPath items error ∈
      ((c.namedFiles.zip c.sources.parse.results).map fun x =>
        FileStep.parsed x.1.1 x.1.2.dotPath x.2.2.items.length x.2.2.error) → file ≠ [] := by
    rintro file dotPath items error hstep rfl
    obtain ⟨⟨⟨file, source⟩, id, result⟩, hmem, he⟩ := List.mem_map.1 hstep
    have hname := (List.of_mem_zip (List.of_mem_zip hmem).1).1
    cases he
    exact hf hname
  unfold parse
  simp only
  split_ifs
  · exact told_snoc times rfl rfl rfl hsteps
  · exact told_snoc times rfl rfl rfl hsteps

lemma told_index {r : Resolution}
    (hr : Resolution.ofTree c.sources c.parsed.tree c.root = .ok r) :
    c.index.told times = c.told times ++ [(.index, false)] := by
  unfold index
  rw [hr]
  exact told_snoc times rfl rfl rfl (by simp)

lemma told_validate {r : Resolution} (hr : c.resolution = some r) :
    c.validate.told times = c.told times ++ [(.validate, false)] := by
  have hsteps : ∀ file dotPath items error, .parsed file dotPath items error ∈
      (c.namedFiles.map fun x =>
        FileStep.checked x.1 ((Validation.check r).skipped.contains x.2.id)) → file ≠ [] := by
    intro file dotPath items error hstep
    obtain ⟨x, -, he⟩ := List.mem_map.1 hstep
    cases he
  unfold validate
  simp only [hr]
  split_ifs
  · exact told_snoc times rfl rfl rfl hsteps
  · exact told_snoc times rfl rfl rfl hsteps

lemma told_generate {r : Resolution} {p : Plan} (hr : c.resolution = some r)
    (hp : Plan.lower c.sources r = .ok p) :
    c.generate.told times = c.told times ++ [(.generate, false)] := by
  unfold generate
  simp only [hr, hp]
  exact told_snoc times rfl rfl rfl (by simp)

lemma told_verify {p : Program} (he : c.error = none) (hp : c.program = some p) :
    (c.verify w).told times = c.told times ++ [(.verify, (c.verify w).error.isSome)] := by
  unfold verify
  simp only [hp]
  split
  · exact told_snoc times rfl rfl (by simp [note, he]) (by simp)
  · exact told_snoc times rfl rfl rfl (by simp)

end Passes

/-! ### How a compilation ends -/

/-- The ways for a compilation to end: whether there is an error, and what its passes tell. -/
inductive Ends : Bool → List (Stage × Bool) → Prop where
  | unread : Ends true [(.read, true)]
  | unparsed : Ends true [(.read, false), (.parse, false)]
  | unsound : Ends true [(.read, false), (.parse, false), (.index, false), (.validate, false)]
  | generated : Ends false
      [(.read, false), (.parse, false), (.index, false), (.validate, false), (.generate, false)]
  | verified (failed : Bool) : Ends failed
      [(.read, false), (.parse, false), (.index, false), (.validate, false), (.generate, false),
        (.verify, failed)]

lemma Ends.any_iff {failed : Bool} {told : List (Stage × Bool)} (h : Ends failed told) :
    told.any Prod.snd = true ↔ failed = true ∧
      (told.getLast?.map Prod.fst = some .read ∨ told.getLast?.map Prod.fst = some .verify) := by
  cases h <;> simp

lemma Ends.agrees_iff {failed : Bool} {told : List (Stage × Bool)} (h : Ends failed told) :
    (told.any Prod.snd = true ↔ failed = true) ↔ ¬ (failed = true ∧
      (told.getLast?.map Prod.fst = some .parse ∨
        told.getLast?.map Prod.fst = some .validate)) := by
  cases h <;> simp

section Run

variable (times : StageTimes) (w : Surroundings) (root : Bytes) (options : CompileOptions)

def lastStages (options : CompileOptions) : List Stage :=
  if options.verifyShader then [.verify] else []

/-- From a program that passed its check on nothing but the check of the shader can fail. -/
lemma ends_checked {c : Compilation} {r : Resolution} {p : Plan} (he : c.error = none)
    (hr : c.resolution = some r) (hp : Plan.lower c.sources r = .ok p)
    (htold : c.told times =
      [(.read, false), (.parse, false), (.index, false), (.validate, false)]) :
    Ends ((Stage.generate :: lastStages options).foldl (step w) c).error.isSome
      (((Stage.generate :: lastStages options).foldl (step w) c).told times) := by
  have hstep := @step_eq w
  have htold5 := told_generate times hr hp
  obtain ⟨passes5, h5⟩ := generate_eq hr hp
  have e5 : c.generate.error = none := by rw [h5, he]
  have hprogram : c.generate.program = some p.program := by rw [h5]
  rw [List.foldl_cons, (hstep he).2.2.2.2.1, lastStages]
  rw [htold] at htold5
  split_ifs
  · have htold6 := told_verify times w e5 hprogram
    rw [List.foldl_cons, (hstep e5).2.2.2.2.2, List.foldl_nil, htold6, htold5]
    exact .verified _
  · rw [List.foldl_nil, htold5, e5]
    exact .generated

lemma ends_parsed {c : Compilation} (texts : List SourceText) (he : c.error = none)
    (hsources : c.sources = Project.sourcesOf texts)
    (hparsed : c.parsed = (Project.sourcesOf texts).parse) (hdiagnostics : c.diagnostics = [])
    (htold : c.told times = [(.read, false), (.parse, false)]) :
    Ends ((Stage.index :: .validate :: .generate :: lastStages options).foldl
        (step w) c).error.isSome
      (((Stage.index :: .validate :: .generate :: lastStages options).foldl
        (step w) c).told times) := by
  have hstep := @step_eq w
  obtain ⟨next, hn⟩ := Project.numbered_treeOf texts
  obtain ⟨r, hr, hres⟩ := Resolution.ofTree_resolved hn c.root
  have hr' : Resolution.ofTree c.sources c.parsed.tree c.root = .ok r := by
    rw [hsources, hparsed]
    exact hr
  obtain ⟨passes3, h3⟩ := index_eq hr'
  have e3 : c.index.error = none := by rw [h3, he]
  have hr3 : c.index.resolution = some r := by rw [h3]
  have htold4 := told_validate times hr3
  rw [told_index times hr', htold] at htold4
  rw [List.foldl_cons, (hstep he).2.2.1, List.foldl_cons, (hstep e3).2.2.2.1]
  by_cases e4 : c.index.validate.error = none
  · have hok := not_failed_of_validate hr3 e4
    obtain ⟨report, diagnostics, passes4, h4⟩ := validate_eq hr3 hok
    have hchecked : ((Bag.empty c.options.maxDiagnostics).addAll
        (Validation.check r).diagnostics).failed c.options.warningsAsErrors = false := by
      rw [h3, reported, hdiagnostics, List.nil_append] at hok
      exact hok
    obtain ⟨inits, seq, hlower, -⟩ := Plan.lower_ok hn hres (sound_of_checked hn hres hchecked)
    exact ends_checked times w options e4 (by rw [h4, hr3])
      (by rw [h4, h3, hsources]; exact hlower) htold4
  · have hsome := Option.isSome_iff_ne_none.2 e4
    rw [foldl_step_of_error w hsome, htold4, hsome]
    exact .unsound

/-- **Every compilation ends in one of these ways.** -/
lemma run_ends : Ends (run w root options).error.isSome
    ((run w root options).told times) := by
  have hrun : run w root options = (Stage.parse :: .index :: .validate :: .generate ::
      lastStages options).foldl (step w) ((start root options).read w) := rfl
  rw [hrun]
  obtain ⟨htold1, hfiles⟩ := told_read (c := start root options) times w rfl
    List.not_mem_nil
  by_cases e1 : ((start root options).read w).error = none
  · obtain ⟨texts, sources, files, passes1, -, hstored, h1⟩ := texts_of_read e1
    obtain rfl : sources = Project.sourcesOf texts := Project.eq_foldl_of_foldlM_addSource hstored
    have htold2 := told_parse times hfiles
    rw [htold1, e1] at htold2
    rw [List.foldl_cons, (step_eq e1).2.1]
    by_cases e2 : ((start root options).read w).parse.error = none
    · obtain ⟨passes2, h2⟩ := parse_eq (failures_of_parse e2)
      exact ends_parsed times w options texts e2 (by rw [h2, h1])
        (by rw [h2, h1]) (by rw [h2, h1]; rfl) htold2
    · have hsome := Option.isSome_iff_ne_none.2 e2
      rw [foldl_step_of_error w hsome, htold2, hsome]
      exact .unparsed
  · have hsome := Option.isSome_iff_ne_none.2 e1
    rw [foldl_step_of_error w hsome, htold1, hsome]
    exact .unread

/-- **What the screen shows.** It says that a compilation failed exactly if there is an error and
the last pass was reading or checking the shader. So it tells failures from successes exactly for
compilations that do not end with an error in parsing or checking the program: these are shown as
done. -/
theorem run_shown (title : Bytes) (files : List Bytes) :
    (((run w root options).shown times title files).failed = true ↔
      (run w root options).error.isSome = true ∧
        ((run w root options).passes.getLast?.map Pass.stage = some .read ∨
          (run w root options).passes.getLast?.map Pass.stage = some .verify)) ∧
    ((((run w root options).shown times title files).failed = true ↔
      (run w root options).error.isSome = true) ↔
        ¬ ((run w root options).error.isSome = true ∧
          ((run w root options).passes.getLast?.map Pass.stage = some .parse ∨
            (run w root options).passes.getLast?.map Pass.stage = some .validate))) ∧
    ∃ text, ((run w root options).shown times title files).header =
      (if ((run w root options).shown times title files).failed then "failed: "
        else "done: ") ++ text := by
  have hends := run_ends times w root options
  have hfailed := failed_shown times title files (run w root options)
  have hlast : (run w root options).passes.getLast?.map Pass.stage =
      ((run w root options).told times).getLast?.map Prod.fst := by
    rw [told, List.getLast?_map, Option.map_map]
    rfl
  obtain ⟨text, htext⟩ := ProgressView.header_finish
    (((run w root options).events times).foldl ProgressView.apply
      (ProgressView.start title files))
  rw [hlast]
  refine ⟨?_, ?_, text, htext⟩
  · rw [hfailed]
    exact hends.any_iff
  · rw [hfailed]
    exact hends.agrees_iff

end Run

/-- **A failure shown as done**: the file has two errors. -/
theorem run_shown_overfull :
    (run aroundOverfull "a.gpex" ⟨false, 0, false⟩).error = some (.failed "2 error(s)") ∧
      ((run aroundOverfull "a.gpex" ⟨false, 0, false⟩).shown (fun _ => 0) "compile" []).failed =
        false ∧
      ((run aroundOverfull "a.gpex" ⟨false, 0, false⟩).shown (fun _ => 0) "compile" []).header =
        "done: compile (done)" := by
  have hrun : run aroundOverfull "a.gpex" ⟨false, 0, false⟩ =
      [Stage.parse, .index, .validate, .generate].foldl (step aroundOverfull)
        ((start "a.gpex" ⟨false, 0, false⟩).read aroundOverfull) := rfl
  rw [read_overfull] at hrun
  rw [hrun]
  refine ⟨?_, ?_, ?_⟩
  · decide +kernel
  · decide +kernel
  · decide +kernel

end Compilation

end StateBuffer
