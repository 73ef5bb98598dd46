import Mathlib
import StateBuffer.Compilation.Basic
import StateBuffer.Proofs.Diagnostics
import StateBuffer.Proofs.Project.Reading
import StateBuffer.Proofs.Validation
import StateBuffer.Shader.Verdict

/-!
The limit of diagnostics and the outcome of a compilation. All passes do the same under another
limit: the bag is asked only whether it failed and for its counts, and these do not depend on the
limit. Every diagnostic of a compilation is an error or a warning, so none is dropped uncounted. The
race of reads that fail decides nothing but which of several unreadable files the error names.
-/

namespace StateBuffer

/-! ### Errors and warnings only -/

def AllCounted (ds : List Diagnostic) : Prop := ∀ d ∈ ds, Bag.Counted d.severity

section AllCounted

variable {ds ds' : List Diagnostic}

@[simp] lemma allCounted_nil : AllCounted [] := by simp [AllCounted]

@[simp] lemma allCounted_append : AllCounted (ds ++ ds') ↔ AllCounted ds ∧ AllCounted ds' := by
  simp [AllCounted, or_imp, forall_and]

@[simp] lemma allCounted_singleton {d : Diagnostic} :
    AllCounted [d] ↔ Bag.Counted d.severity := by
  simp [AllCounted]

lemma allCounted_flatMap {α : Type} {as : List α} {f : α → List Diagnostic}
    (h : ∀ a ∈ as, AllCounted (f a)) : AllCounted (as.flatMap f) := by
  intro d hd
  obtain ⟨a, ha, hda⟩ := List.mem_flatMap.1 hd
  exact h a ha d hda

@[simp] lemma Bag.counted_error : Bag.Counted .error := .inl rfl

@[simp] lemma Bag.counted_warning : Bag.Counted .warning := .inr rfl

lemma ParsedSources.allCounted_diagnostics (p : ParsedSources) : AllCounted p.diagnostics := by
  refine allCounted_flatMap fun x _ => ?_
  cases x.2.error with
  | none => simp
  | some e =>
    simp only [Option.map_some, Option.getD_some, SyntaxError.diagnostics]
    split
    · simp
    · simp

end AllCounted

namespace Validation

variable (r : Resolution)

lemma allCounted_checkSnakeCase (name : Bytes) (span : Span) :
    AllCounted (checkSnakeCase name span) := by
  unfold checkSnakeCase
  split_ifs <;> simp

lemma allCounted_checkScreamingSnakeCase (name : Bytes) (span : Span) :
    AllCounted (checkScreamingSnakeCase name span) := by
  unfold checkScreamingSnakeCase
  split_ifs <;> simp

lemma allCounted_checkSingleCharacter (name : Bytes) (span : Span) :
    AllCounted (checkSingleCharacter name span) := by
  unfold checkSingleCharacter
  split_ifs <;> simp

lemma allCounted_checkImport (id : ItemId) (item : Span) (i : Import) (after : Bool) :
    AllCounted (checkImport r id item i after).1 := by
  unfold checkImport
  split
  · simp
  · split_ifs
    · simp
    · simp
    -- What is left are the names on the path, whatever else is said of the import.
    all_goals
      refine allCounted_append.2 ⟨by simp, allCounted_flatMap fun segment _ => ?_⟩
      cases segment with
      | parent span => simp
      | name name span => exact allCounted_checkSnakeCase name span

lemma allCounted_checkImports (ids : List ItemId) (after : Bool) :
    AllCounted (checkImports r after ids).1 := by
  induction ids generalizing after with
  | nil => simp [checkImports]
  | cons id ids ih =>
    rw [checkImports]
    split
    · exact allCounted_append.2 ⟨allCounted_checkImport r id _ _ after, ih after⟩
    · exact ih true
    · exact ih after

lemma allCounted_checkUsage (d : Declared) : AllCounted (checkUsage r d) := by
  simp only [checkUsage]
  split <;> simp

lemma allCounted_checkValue (d : Declared) : AllCounted (checkValue r d) := by
  unfold checkValue
  split
  · simp
  · split
    · split_ifs <;> simp
    · split
      · simp [severity_unresolvedError]
      · split_ifs <;> simp

lemma allCounted_checkDefinition (d : Declared) : AllCounted (checkDefinition r d) := by
  simp only [checkDefinition]
  split
  · unfold circularError
    split_ifs
    · simp
    · simp [Diagnostic.error, Diagnostic.of]
  · split
    · simp
    · simp only [allCounted_append]
      refine ⟨⟨⟨allCounted_checkUsage r d, allCounted_checkSingleCharacter _ _⟩, ?_⟩,
        allCounted_checkValue r d⟩
      cases d.definition.kind with
      | const => exact allCounted_checkScreamingSnakeCase _ _
      | var => exact allCounted_checkSnakeCase _ _

/-- **The check of all files** gives errors and warnings only. -/
lemma allCounted_check : AllCounted (check r).diagnostics := by
  refine allCounted_flatMap fun x hx => ?_
  obtain ⟨m, -, rfl⟩ := List.mem_map.1 hx
  have himports := allCounted_checkImports r m.items false
  simp only [checkModule]
  split_ifs
  · exact allCounted_append.2
      ⟨himports, allCounted_flatMap fun d _ => allCounted_checkDefinition r d⟩
  · exact himports

end Validation

namespace Compilation

/-! ### One pass -/

/-- The compilation with another limit of diagnostics. -/
def relimit (n : Int) (c : Compilation) : Compilation :=
  { c with options := { c.options with maxDiagnostics := n } }

section Passes

variable (c : Compilation) (w : Surroundings) (n : Int)

lemma read_relimit : (c.relimit n).read w = (c.read w).relimit n := by
  have hroot : (c.relimit n).root = c.root := rfl
  have hsources : (c.relimit n).sources = c.sources := rfl
  simp only [read, hroot, hsources]
  cases Project.sourcePaths w.files c.root with
  | error e => rfl
  | ok paths =>
    cases hcancel : w.cancelled && !paths.isEmpty with
    | true => simp only [hcancel, if_true]; rfl
    | false =>
      simp only [hcancel, Bool.false_eq_true, if_false]
      cases Project.readAll w.files w.race c.root paths with
      | error e => rfl
      | ok texts =>
        cases hstored : texts.foldlM Project.addSource c.sources <;> simp only [hstored] <;> rfl

lemma parse_relimit : (c.relimit n).parse = c.parse.relimit n := by
  have hsources : (c.relimit n).sources = c.sources := rfl
  simp only [parse, hsources]
  split_ifs
  · rfl
  · rfl

lemma index_relimit : (c.relimit n).index = c.index.relimit n := by
  simp only [index]
  cases hr : Resolution.ofTree c.sources c.parsed.tree c.root with
  | ok r => simp only [relimit, hr]; rfl
  | error e => simp only [relimit, hr]; rfl

lemma failureSummary_limit (m n : Int) (ds : List Diagnostic) (warningsAsErrors : Bool) :
    failureSummary ((Bag.empty m).addAll ds) warningsAsErrors =
      failureSummary ((Bag.empty n).addAll ds) warningsAsErrors := by
  simp only [failureSummary, Bag.count_limit m n ds Bag.counted_error,
    Bag.count_limit m n ds Bag.counted_warning]

-- the only pass that asks the bag
lemma validate_relimit : (c.relimit n).validate = c.validate.relimit n := by
  unfold validate
  have hresolution : (c.relimit n).resolution = c.resolution := rfl
  rw [hresolution]
  cases c.resolution with
  | none => rfl
  | some r =>
    have hfailed := Bag.failed_limit n c.options.maxDiagnostics
      (c.diagnostics ++ (Validation.check r).diagnostics) c.options.warningsAsErrors
    have hsummary := failureSummary_limit n c.options.maxDiagnostics
      (c.diagnostics ++ (Validation.check r).diagnostics) c.options.warningsAsErrors
    cases hb : ((Bag.empty c.options.maxDiagnostics).addAll
        (c.diagnostics ++ (Validation.check r).diagnostics)).failed c.options.warningsAsErrors with
    | true => simp only [relimit, note, bag, hfailed, hsummary, hb, if_true]; rfl
    | false => simp only [relimit, note, bag, hfailed, hb, Bool.false_eq_true, if_false]; rfl

lemma generate_relimit : (c.relimit n).generate = c.generate.relimit n := by
  unfold generate
  have hresolution : (c.relimit n).resolution = c.resolution := rfl
  have hsources : (c.relimit n).sources = c.sources := rfl
  rw [hresolution, hsources]
  cases c.resolution with
  | none => rfl
  | some r =>
    cases hlower : Plan.lower c.sources r with
    | error e => simp only [hlower]; rfl
    | ok p => simp only [hlower]; rfl

lemma verify_relimit : (c.relimit n).verify w = (c.verify w).relimit n := by
  unfold verify
  have hprogram : (c.relimit n).program = c.program := rfl
  rw [hprogram]
  cases c.program with
  | none => rfl
  | some p =>
    cases hverify : w.shaders.verify p.shader with
    | error e => simp only [hverify]; rfl
    | ok shader => simp only [hverify]; rfl

/-- **A pass** does the same under another limit. -/
lemma step_relimit (stage : Stage) :
    (c.relimit n).step w stage = (c.step w stage).relimit n := by
  have herror : (c.relimit n).error = c.error := rfl
  simp only [step, herror]
  split_ifs
  · rfl
  · cases stage with
    | read => exact read_relimit c w n
    | parse => exact parse_relimit c n
    | index => exact index_relimit c n
    | validate => exact validate_relimit c n
    | generate => exact generate_relimit c n
    | verify => exact verify_relimit c w n
    | _ => rfl

/-- **Some passes** do the same under another limit. -/
lemma foldl_relimit (stages : List Stage) :
    stages.foldl (step w) (c.relimit n) = (stages.foldl (step w) c).relimit n := by
  induction stages generalizing c with
  | nil => rfl
  | cons stage stages ih => rw [List.foldl_cons, List.foldl_cons, step_relimit, ih]

lemma allCounted_step {c : Compilation} (hc : AllCounted c.diagnostics) (stage : Stage) :
    AllCounted (c.step w stage).diagnostics := by
  simp only [step]
  split_ifs
  · exact hc
  · cases stage with
    | read =>
      simp only [read]
      split
      · simp [fail, hc]
      · split_ifs
        · exact hc
        · split
          · simp [fail, hc]
          · split
            · exact hc
            · exact hc
    | parse =>
      simp only [parse]
      split_ifs
      · exact allCounted_append.2 ⟨hc, ParsedSources.allCounted_diagnostics _⟩
      · exact allCounted_append.2 ⟨hc, ParsedSources.allCounted_diagnostics _⟩
    | index =>
      simp only [index]
      split
      · exact hc
      · exact hc
    | validate =>
      simp only [validate]
      split
      · exact hc
      · split_ifs
        · exact allCounted_append.2 ⟨hc, Validation.allCounted_check _⟩
        · exact allCounted_append.2 ⟨hc, Validation.allCounted_check _⟩
    | generate =>
      simp only [generate]
      split
      · exact hc
      · split
        · exact hc
        · exact hc
    | verify =>
      simp only [verify]
      split
      · exact hc
      · split
        · exact hc
        · exact hc
    | _ => exact hc

lemma allCounted_foldl {c : Compilation} (hc : AllCounted c.diagnostics) (stages : List Stage) :
    AllCounted (stages.foldl (step w) c).diagnostics := by
  induction stages generalizing c with
  | nil => exact hc
  | cons stage stages ih => exact ih (allCounted_step w hc stage)

end Passes

/-! ### Whole compilations -/

section Run

variable (w : Surroundings) (root : Bytes) (options : CompileOptions)

def runWithin (n : Int) : Compilation := run w root { options with maxDiagnostics := n }

lemma runWithin_eq (n : Int) : runWithin w root options n = (run w root options).relimit n :=
  foldl_relimit (start root options) w n (stages options)

lemma allCounted_run : AllCounted (run w root options).diagnostics :=
  allCounted_foldl w allCounted_nil (stages options)

lemma bag_runWithin (n : Int) : (runWithin w root options n).bag =
    (Bag.empty n).addAll (run w root options).diagnostics := by
  rw [runWithin_eq]
  rfl

lemma bag_runWithin_of_pos {m n : Int} (hpos : 0 < m) (hunlimited : n ≤ 0) :
    (runWithin w root options m).bag.items =
        (runWithin w root options n).bag.items.take m.toNat ∧
      (runWithin w root options m).bag.dropped =
        ((runWithin w root options n).bag.items.drop m.toNat).length ∧
      (runWithin w root options n).bag.dropped = 0 := by
  have hall := allCounted_run w root options
  have hroom : ∀ k, (Bag.empty m).room k = m.toNat := by
    intro k
    simp [Bag.room, Bag.empty, hpos]
  have hfree : ∀ k, (Bag.empty n).room k = k := by
    intro k
    have : ¬ 0 < n := by omega
    simp [Bag.room, Bag.empty, this]
  have hitems : (runWithin w root options n).bag.items = (run w root options).diagnostics := by
    rw [bag_runWithin, Bag.items_addAll, hfree, List.take_length]
    rfl
  refine ⟨?_, ?_, ?_⟩
  · rw [hitems, bag_runWithin, Bag.items_addAll, hroom]
    rfl
  · rw [hitems, bag_runWithin, Bag.dropped_addAll hall, hroom]
    exact Nat.zero_add _
  · rw [bag_runWithin, Bag.dropped_addAll hall, hfree, List.drop_length]
    rfl

/-- **Reading under another race** ends as it did, or both times with an error and with nothing
read; there are then several files that cannot be read. -/
lemma read_race (race : Nat) :
    (start root options).read { w with race } = (start root options).read w ∨
      1 < (Project.unreadable w.files root).length ∧ ∃ e e' passes passes' told told',
        (start root options).read w = { start root options with
          error := some e, passes := passes, diagnostics := told } ∧
        (start root options).read { w with race } = { start root options with
          error := some e', passes := passes', diagnostics := told' } := by
  have hroot : (start root options).root = root := rfl
  simp only [read, hroot]
  cases hpaths : Project.sourcePaths w.files root with
  | error e => exact .inl rfl
  | ok paths =>
    cases hcancel : w.cancelled && !paths.isEmpty with
    | true => exact .inl (by simp only [hcancel, if_true])
    | false =>
      simp only [hcancel, Bool.false_eq_true, if_false]
      rcases Project.readAll_race w.files w.race race root paths with
        ⟨texts, hread, hread'⟩ | ⟨e, e', hread, hread', hsame⟩
      · exact .inl (by simp only [hread, hread'])
      · simp only [hread, hread']
        by_cases hfew : (Project.unreadable w.files root).length ≤ 1
        · rw [Project.unreadable, hpaths] at hfew
          exact .inl (by rw [hsame hfew])
        · exact .inr ⟨Nat.lt_of_not_le hfew, _, _, _, _, _, _, rfl, rfl⟩

lemma foldl_step_of_error {c : Compilation} (h : c.error.isSome) (stages : List Stage) :
    stages.foldl (step w) c = c := by
  induction stages with
  | nil => rfl
  | cons stage stages ih =>
    have hstep : step w c stage = c := if_pos h
    rw [List.foldl_cons, hstep, ih]

lemma foldl_step_race (race : Nat) {stages : List Stage} (h : .read ∉ stages) (c : Compilation) :
    stages.foldl (step { w with race }) c = stages.foldl (step w) c := by
  induction stages generalizing c with
  | nil => rfl
  | cons stage stages ih =>
    rw [List.mem_cons, not_or] at h
    have hstep : step { w with race } c stage = step w c stage := by
      cases stage with
      | read => exact absurd rfl h.1
      | _ => rfl
    rw [List.foldl_cons, List.foldl_cons, hstep, ih h.2]

/-- **A compilation under another race** is the same, or both fail before anything is made; there
are then several files that cannot be read. -/
lemma run_race (race : Nat) :
    run { w with race } root options = run w root options ∨
      1 < (Project.unreadable w.files root).length ∧ ∃ e e' passes passes' told told',
        run w root options = { start root options with
          error := some e, passes := passes, diagnostics := told } ∧
        run { w with race } root options = { start root options with
          error := some e', passes := passes', diagnostics := told' } := by
  have hrun : ∀ w, run w root options =
      (stages options).tail.foldl (step w) ((start root options).read w) := fun w => rfl
  have hrest : .read ∉ (stages options).tail := by
    rw [stages]
    cases options.verifyShader <;> simp
  rcases read_race w root options race with hsame | ⟨hmany, e, e', passes, passes', told, told',
    hread, hread'⟩
  · left
    rw [hrun, hrun, hsame, foldl_step_race w race hrest]
  · refine .inr ⟨hmany, e, e', passes, passes', told, told', ?_, ?_⟩
    · rw [hrun, hread, foldl_step_of_error w rfl]
    · rw [hrun, hread', foldl_step_of_error _ rfl]

/-- **The limit of diagnostics does not change the outcome.** Two compilations that differ in it
have the same program, plan and report and fail together, even if the race of their reads ends
differently. If it ends in the same way, or there is at most one file that cannot be read, they have
the same error as well; and a positive limit keeps the first diagnostics of a compilation without a
limit and counts the others. -/
theorem run_limit (m n : Int) (race : Nat) :
    (runWithin w root options m).program =
        (runWithin { w with race } root options n).program ∧
      (runWithin w root options m).plan = (runWithin { w with race } root options n).plan ∧
      (runWithin w root options m).report = (runWithin { w with race } root options n).report ∧
      (runWithin w root options m).error.isSome =
        (runWithin { w with race } root options n).error.isSome ∧
      (race = w.race ∨ (Project.unreadable w.files root).length ≤ 1 →
        (runWithin w root options m).error = (runWithin { w with race } root options n).error ∧
          (0 < m → n ≤ 0 →
            (runWithin w root options m).bag.items =
              (runWithin { w with race } root options n).bag.items.take m.toNat ∧
            (runWithin w root options m).bag.dropped =
              ((runWithin { w with race } root options n).bag.items.drop m.toNat).length ∧
            (runWithin { w with race } root options n).bag.dropped = 0)) := by
  have hm := runWithin_eq w root options m
  have hn := runWithin_eq { w with race } root options n
  have hkept := bag_runWithin_of_pos w root options (m := m) (n := n)
  rcases run_race w root options race with hsame | ⟨hmany, e, e', passes, passes', told, told',
    hrun, hrun'⟩
  · have hwithin : runWithin { w with race } root options n = runWithin w root options n := by
      rw [hn, hsame, ← runWithin_eq]
    rw [hwithin, hm, runWithin_eq w root options n]
    rw [hm, runWithin_eq w root options n] at hkept
    exact ⟨rfl, rfl, rfl, rfl, fun _ => ⟨rfl, hkept⟩⟩
  · refine ⟨?_, ?_, ?_, ?_, ?_⟩
    case refine_5 =>
      rintro (rfl | hfew)
      · rw [hm, runWithin_eq w root options n]
        rw [hm, runWithin_eq w root options n] at hkept
        exact ⟨rfl, hkept⟩
      · omega
    all_goals
      rw [hm, hn, hrun, hrun']
      rfl

end Run

/-- One file with errors and warnings in turn. -/
def overfull : FileSystem where
  nodes := [(["a.gpex"], .file "var x=y;var _x=1;var X=z;")]
  workDir := []

/-- The file as it is, and a front end that nobody asks. -/
def aroundOverfull : Surroundings := ⟨overfull, false, 0, Wgsl.frontEnd⟩

lemma read_overfull (options : CompileOptions) :
    (start "a.gpex" options).read aroundOverfull =
      { start "a.gpex" options with
        sources := Project.storeSource SourceSet.empty
          ⟨"a.gpex", Project.dotPath ".", "var x=y;var _x=1;var X=z;", false⟩
        files := ["."]
        passes := [⟨.read, "1 files", [], ["."], none⟩] } := by
  have hfound : overfull.lookUp false "lstat" "a.gpex" =
      .ok ([("a.gpex" : Bytes)], .file "var x=y;var _x=1;var X=z;") := by cbv
  have hpaths : Project.sourcePaths overfull "a.gpex" = .ok [("a.gpex" : Bytes)] := by
    simp only [Project.sourcePaths, hfound]
    rfl
  have hread : overfull.read "a.gpex" = .ok "var x=y;var _x=1;var X=z;" := by cbv
  have hdecode : decodeSource "var x=y;var _x=1;var X=z;" =
      (("var x=y;var _x=1;var X=z;" : Bytes), false) := by cbv
  have hrelative : Path.relative? "a.gpex" "a.gpex" = some "." := by cbv
  have htext : Project.readSource overfull "a.gpex" "a.gpex" =
      .ok ⟨"a.gpex", Project.dotPath ".", "var x=y;var _x=1;var X=z;", false⟩ := by
    simp only [Project.readSource, hread, hdecode, hrelative]
    rfl
  have hroot : (start "a.gpex" options).root = "a.gpex" := rfl
  have htexts : Project.readAll overfull 0 "a.gpex" ["a.gpex"] =
      .ok [⟨"a.gpex", Project.dotPath ".", "var x=y;var _x=1;var X=z;", false⟩] := by
    rw [Project.readAll_eq_ok_iff, List.map_singleton, htext, List.map_singleton]
  have hstored : [(⟨"a.gpex", Project.dotPath ".", "var x=y;var _x=1;var X=z;", false⟩ :
      SourceText)].foldlM Project.addSource (start "a.gpex" options).sources =
        .ok (Project.storeSource SourceSet.empty
          ⟨"a.gpex", Project.dotPath ".", "var x=y;var _x=1;var X=z;", false⟩) := rfl
  simp only [read, aroundOverfull, hroot, hpaths, Bool.false_and, Bool.false_eq_true, if_false,
    htexts, hstored, List.map_cons, List.map_nil, Project.displayPath, hrelative]
  rfl

/-- Without a limit there are seven diagnostics, two of them errors. A limit of two keeps warnings
only, and the errors still count. -/
theorem run_limit_overfull :
    (runWithin aroundOverfull "a.gpex" ⟨false, 0, false⟩ 2).error =
        some (.failed "2 error(s)") ∧
      ((runWithin aroundOverfull "a.gpex" ⟨false, 0, false⟩ 2).bag.items.map
        Diagnostic.severity) = [.warning, .warning] ∧
      (runWithin aroundOverfull "a.gpex" ⟨false, 0, false⟩ 2).bag.dropped = 5 := by
  have hrun : runWithin aroundOverfull "a.gpex" ⟨false, 0, false⟩ 0 =
      [Stage.parse, .index, .validate, .generate].foldl (step aroundOverfull)
        ((start "a.gpex" ⟨false, 0, false⟩).read aroundOverfull) := rfl
  rw [read_overfull] at hrun
  have herror : (runWithin aroundOverfull "a.gpex" ⟨false, 0, false⟩ 0).error =
      some (.failed "2 error(s)") := by
    rw [hrun]
    decide +kernel
  have hitems : (runWithin aroundOverfull "a.gpex" ⟨false, 0, false⟩ 0).bag.items.map
      Diagnostic.severity =
        [.warning, .warning, .error, .warning, .warning, .warning, .error] := by
    rw [hrun]
    decide +kernel
  obtain ⟨-, -, -, -, hlimit⟩ := run_limit aroundOverfull "a.gpex" ⟨false, 0, false⟩ 2 0 0
  rw [show { aroundOverfull with race := 0 } = aroundOverfull from rfl] at hlimit
  obtain ⟨hsame, hkept⟩ := hlimit (.inl rfl)
  obtain ⟨hfirst, hdropped, -⟩ := hkept (by decide) (by decide)
  refine ⟨hsame.trans herror, ?_, ?_⟩
  · rw [hfirst, List.map_take, hitems]
    rfl
  · rw [hdropped, ← List.length_map (f := Diagnostic.severity), List.map_drop, hitems]
    rfl

end Compilation

end StateBuffer
