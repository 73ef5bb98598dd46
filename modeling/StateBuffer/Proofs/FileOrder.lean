import StateBuffer.Proofs.Diagnostics
import StateBuffer.Proofs.Program.Snapshot
import StateBuffer.Proofs.Resolution.Invariance
import StateBuffer.Proofs.Warnings

/-!
The order of files does not matter. The same texts in another order give a tree that differs only in
its numbers, so it breaks the same rules, the same things are odd about it, and its program gives
the same values to the same keys.
-/

namespace StateBuffer

/-! ### The verdict -/

namespace Resolution.Renamed

open Validation

variable {s s' : SourceSet} {t t' : Tree} {F : FileId → FileId → Prop}
  {I : ItemId → ItemId → Prop} {root : Bytes} {r r' : Resolution}
  (w : Renamed s t s' t' F I root r r')

include w

/-- **A rule that one program breaks**, the other breaks. -/
lemma violation (hv : Violation s t root r) : Violation s' t' root r' := by
  cases hv with
  | moduleNotFound hi hb hnone =>
    obtain ⟨id', hid⟩ := w.twins.there.total hi
    obtain ⟨it', i', hi', hb', hfile, -⟩ := w.twins.imported hid hi hb
    refine .moduleNotFound hi' hb' fun isPublic target' himp' => ?_
    obtain ⟨target, -, himp⟩ := w.twins.symm.imports hfile hid himp'
    exact hnone _ _ himp
  | importNotAtTop hi hb hd hf hlt =>
    obtain ⟨id', hid⟩ := w.twins.there.total hi
    obtain ⟨it', i', hi', hb', hfile, -⟩ := w.twins.imported hid hi hb
    obtain ⟨d', hd', hdd⟩ := w.exists_alike hd
    obtain ⟨span, hdi, -⟩ := Tree.definition?_eq_some.1 hd
    exact .importNotAtTop hi' hb' hd' (w.twins.there.file_unique (hf ▸ hdd.file) hfile)
      (w.twins.there.order hdd.item hid hdi hi hf hlt)
  | circular hx =>
    -- the items of a cycle are matched one after the other, and the last is the first
    obtain ⟨a', ha⟩ := w.exists_item hx
    obtain ⟨b', hb, hx'⟩ := w.transGen ha hx
    rw [w.twins.there.unique hb ha] at hx'
    exact .circular hx'
  | @duplicate file name d1 d2 hd1 hd2 hne =>
    obtain ⟨next, h⟩ := w.numbered
    obtain ⟨d1', hdef1, h1⟩ := w.exists_alike hd1.1
    have hf := h1.file
    rw [hd1.2.1] at hf
    have hd1' := w.twins.defines hf hd1 hdef1 h1
    obtain ⟨d2', hd2', h2⟩ := w.twins.exists_defines h hf hd2
    refine .duplicate hd1' hd2' fun heq => hne (hd1.eq_of_item hd2 ?_)
    subst heq
    exact w.twins.back.unique h1.item h2.item
  | unresolved hd he hnone =>
    obtain ⟨d', hd', hdd⟩ := w.exists_alike hd
    obtain ⟨e', he', hnone'⟩ := w.unbound hd hd' hdd he hnone
    exact .unresolved hd' he' hnone'
  | outOfBounds hd he hb hi hout =>
    obtain ⟨d', hd', hdd⟩ := w.exists_alike hd
    obtain ⟨e0, e', he0, he', hbody⟩ := hdd.value
    obtain rfl := Option.some.inj (he.symm.trans he0)
    exact .outOfBounds hd' he' (hbody.trans hb) hi hout
  | notConstant hd hk he hb hvar =>
    obtain ⟨d', hd', hdd⟩ := w.exists_alike hd
    obtain ⟨e', b', he', hb', hbb⟩ := w.bound hd hd' hdd he hb
    exact .notConstant hd' (hdd.kind.trans hk) he' hb' (hbb.target.kind.trans hvar)

lemma violation_iff : Violation s t root r ↔ Violation s' t' root r' :=
  ⟨w.violation, w.symm.violation⟩

lemma exists_refers {b b' : ItemId} (hb : I b b') (hused : ∃ a, Refers r a b) :
    ∃ a', Refers r' a' b' := by
  obtain ⟨a, hab⟩ := hused
  obtain ⟨a', ha⟩ := w.exists_item (.single hab)
  obtain ⟨b'', hb'', hab'⟩ := w.refers ha hab
  rw [w.twins.there.unique hb'' hb] at hab'
  exact ⟨a', hab'⟩

lemma suspicious (hs : Suspicious s t root r) : Suspicious s' t' root r' := by
  cases hs with
  | imports hi hb hodd =>
    obtain ⟨id', hid⟩ := w.twins.there.total hi
    obtain ⟨it', i', hi', hb', hfile, hpublic, hsteps⟩ := w.twins.imported hid hi hb
    refine .imports hi' hb' ?_
    cases hodd with
    | toSelf himp =>
      obtain ⟨target', htarget, himp'⟩ := w.twins.imports hfile hid himp
      obtain rfl := w.twins.there.file_unique htarget hfile
      exact .toSelf (hpublic ▸ himp')
    | unused hp hno =>
      -- a name that comes through the matched import would come through this one
      refine .unused (hpublic.trans hp) fun {d' e' name b'} hd' he' hb' hvia => ?_
      obtain ⟨d, hd, hdd⟩ := w.symm.exists_alike hd'
      obtain ⟨e, b, he, hb, hbb⟩ := w.symm.bound hd' hd hdd he' hb'
      have hrel := hbb.via
      rw [hvia] at hrel
      generalize hv : b.via = via at hrel
      obtain ⟨hback⟩ := hrel
      rw [w.twins.back.unique hback hid] at hv
      exact hno hd he hb hv
    | unstyled hc hodd => exact .unstyled (hsteps ▸ hc) hodd
  | definition hd hodd =>
    obtain ⟨d', hd', hdd⟩ := w.exists_alike hd
    refine .definition hd' ?_
    cases hodd with
    | misnamed hiff =>
      refine .misnamed ?_
      rw [hdd.name, ← hiff]
      exact ⟨w.symm.exists_refers hdd.item, w.exists_refers hdd.item⟩
    | short hshort hne => exact .short (hdd.name ▸ hshort) (hdd.name ▸ hne)
    | unstyled hodd => exact .unstyled (by rw [hdd.kind, hdd.name]; exact hodd)

lemma suspicious_iff : Suspicious s t root r ↔ Suspicious s' t' root r' :=
  ⟨w.suspicious, w.symm.suspicious⟩

end Resolution.Renamed

/-! ### Texts in another order -/

namespace Project

/-- The files are those of one text. -/
def FileMatch (texts texts' : List SourceText) (f f' : FileId) : Prop :=
  ∃ j j' x, texts[j]? = some x ∧ texts'[j']? = some x ∧ f = j + 1 ∧ f' = j' + 1

/-- The items stand at one place of matched files. -/
def ItemMatch (texts texts' : List SourceText) (id id' : ItemId) : Prop :=
  ∃ f f' k, FileMatch texts texts' f f' ∧ (treeOf texts).At f k id ∧ (treeOf texts').At f' k id'

section Match

variable {texts texts' : List SourceText}

lemma flip_fileMatch : flip (FileMatch texts texts') = FileMatch texts' texts := by
  funext f' f
  refine propext ⟨?_, ?_⟩
  · rintro ⟨j, j', x, hj, hj', rfl, rfl⟩
    exact ⟨j', j, x, hj', hj, rfl, rfl⟩
  · rintro ⟨j', j, x, hj', hj, rfl, rfl⟩
    exact ⟨j, j', x, hj, hj', rfl, rfl⟩

lemma flip_itemMatch : flip (ItemMatch texts texts') = ItemMatch texts' texts := by
  funext id' id
  have hflip : ∀ f f', FileMatch texts texts' f f' ↔ FileMatch texts' texts f' f :=
    fun f f' => iff_of_eq (congrFun (congrFun flip_fileMatch f') f)
  refine propext ⟨?_, ?_⟩
  · rintro ⟨f, f', k, hf, hid, hid'⟩
    exact ⟨f', f, k, (hflip f f').1 hf, hid', hid⟩
  · rintro ⟨f', f, k, hf, hid', hid⟩
    exact ⟨f, f', k, (hflip f f').2 hf, hid, hid'⟩

variable (hperm : texts.Perm texts') (hnodup : (texts.map SourceText.dotPath).Nodup)

include hperm

lemma failures_perm :
    (sourcesOf texts).parse.failures = 0 ↔ (sourcesOf texts').parse.failures = 0 := by
  simp only [failures_iff, hperm.mem_iff]

lemma nodup_perm : (texts.map SourceText.dotPath).Nodup ↔ (texts'.map SourceText.dotPath).Nodup :=
  (hperm.map SourceText.dotPath).nodup_iff

lemma exists_fileMatch {j : Nat} {x : SourceText} (hj : texts[j]? = some x) :
    ∃ j', texts'[j']? = some x ∧ FileMatch texts texts' (j + 1) (j' + 1) := by
  obtain ⟨j', hj'⟩ := List.getElem?_of_mem (hperm.mem_iff.1 (List.mem_of_getElem? hj))
  exact ⟨j', hj', j, j', x, hj, hj', rfl, rfl⟩

include hnodup

lemma fileMatch_unique {f f' f'' : FileId} (h : FileMatch texts texts' f f')
    (h' : FileMatch texts texts' f f'') : f' = f'' := by
  obtain ⟨j, j', x, hj, hj', rfl, rfl⟩ := h
  obtain ⟨k, k', y, hk, hk', heq, rfl⟩ := h'
  obtain rfl := Nat.succ.inj heq
  obtain rfl := Option.some.inj (hj.symm.trans hk)
  have hlt : j' < (texts'.map SourceText.dotPath).length := by
    simpa using (List.getElem?_eq_some_iff.1 hj').1
  have hsame : (texts'.map SourceText.dotPath)[j']? = (texts'.map SourceText.dotPath)[k']? := by
    simp [hj', hk']
  rw [(List.getElem?_inj hlt ((nodup_perm hperm).1 hnodup)).1 hsame]

/-- **Texts in another order** say the same under other numbers. -/
lemma copies (hp : (sourcesOf texts).parse.failures = 0) :
    Copies (sourcesOf texts) (treeOf texts) (sourcesOf texts') (treeOf texts')
      (FileMatch texts texts') (ItemMatch texts texts') := by
  obtain ⟨next, h⟩ := numbered_treeOf texts
  obtain ⟨next', h'⟩ := numbered_treeOf texts'
  have hp' := (failures_perm hperm).1 hp
  have hnodup' := (nodup_perm hperm).1 hnodup
  constructor
  case dotPath =>
    rintro f f' ⟨j, j', x, hj, hj', rfl, rfl⟩
    obtain ⟨y, hy, hdot⟩ := get?_sourcesOf hj
    obtain ⟨y', hy', hdot'⟩ := get?_sourcesOf hj'
    exact ⟨y, y', hy, hy', hdot'.trans hdot.symm⟩
  case found =>
    intro p f hf
    obtain ⟨j, x, hj, hdot, rfl⟩ := (find?_sourcesOf hnodup).1 hf
    obtain ⟨j', hj', hmatch⟩ := exists_fileMatch hperm hj
    exact ⟨j' + 1, (find?_sourcesOf hnodup').2 ⟨j', x, hj', hdot, rfl⟩, hmatch⟩
  case file_unique => exact fileMatch_unique hperm hnodup
  case total =>
    intro id it hi
    obtain ⟨j, x, hj, hfile⟩ := exists_text hi
    obtain ⟨k, hk⟩ := h.exists_at hi
    rw [hfile] at hk
    obtain ⟨stored, -, houtline⟩ := (stored?_of_at hp hj k).2 id hk
    obtain ⟨j', hj', hmatch⟩ := exists_fileMatch hperm hj
    obtain ⟨id', hk'⟩ := (stored?_of_at hp' hj' k).1 _ houtline
    exact ⟨id', _, _, k, hmatch, hk, hk'⟩
  case unique =>
    rintro id id' id'' ⟨f, f', k, hf, hid, hid'⟩ ⟨g, g', l, hg, hid2, hid''⟩
    obtain ⟨rfl, rfl⟩ := h.at_inj hid hid2
    obtain rfl := fileMatch_unique hperm hnodup hf hg
    exact h'.at_unique hid' hid''
  case stored =>
    rintro id id' it ⟨f, f', k, ⟨j, j', x, hj, hj', rfl, rfl⟩, hid, hid'⟩ hit
    obtain ⟨it0, hit0, houtline⟩ := (stored?_of_at hp hj k).2 id hid
    obtain ⟨it', hit', houtline'⟩ := (stored?_of_at hp' hj' k).2 id' hid'
    obtain rfl := Option.some.inj (hit.symm.trans hit0)
    exact ⟨it', hit', Option.some.inj (houtline'.symm.trans houtline)⟩
  case file =>
    rintro id id' it it' ⟨f, f', k, hf, hid, hid'⟩ hi hi'
    obtain ⟨it0, hi0, rfl⟩ := h.item?_of_at hid
    obtain ⟨it0', hi0', rfl⟩ := h'.item?_of_at hid'
    obtain rfl := Option.some.inj (hi.symm.trans hi0)
    obtain rfl := Option.some.inj (hi'.symm.trans hi0')
    exact hf
  case order =>
    rintro a a' b b' ia ib ⟨f, f', k, hf, ha, ha'⟩ ⟨g, g', l, hg, hb, hb'⟩ hia hib hfile hlt
    obtain ⟨ia0, hia0, rfl⟩ := h.item?_of_at ha
    obtain ⟨ib0, hib0, rfl⟩ := h.item?_of_at hb
    obtain rfl := Option.some.inj (hia.symm.trans hia0)
    obtain rfl := Option.some.inj (hib.symm.trans hib0)
    rw [← hfile] at hb hg
    obtain rfl := fileMatch_unique hperm hnodup hf hg
    refine h'.lt_of_at ha' hb' ?_
    by_contra hle
    rcases Nat.lt_or_eq_of_le (Nat.not_lt.1 hle) with hkl | rfl
    · exact Nat.lt_asymm hlt (h.lt_of_at hb ha hkl)
    · exact Nat.ne_of_lt hlt (h.at_unique ha hb)

lemma twins (hp : (sourcesOf texts).parse.failures = 0) :
    Twins (sourcesOf texts) (treeOf texts) (sourcesOf texts') (treeOf texts')
      (FileMatch texts texts') (ItemMatch texts texts') := by
  refine ⟨copies hperm hnodup hp, ?_⟩
  rw [flip_fileMatch, flip_itemMatch]
  exact copies hperm.symm ((nodup_perm hperm).1 hnodup) ((failures_perm hperm).1 hp)

end Match

end Project

/-! ### Values -/

/-- The programs run and give the same values to the same keys, to every key one. -/
def Program.SameValues (reader : Bytes → Option Wgsl.ModuleTree) (p p' : Program) : Prop :=
  ∃ vs vs', p.values reader = .ok vs ∧ p'.values reader = .ok vs' ∧ (vs.map Prod.fst).Nodup ∧
    vs.Perm vs'

namespace Resolution.Renamed

open Validation

variable {s s' : SourceSet} {t t' : Tree} {F : FileId → FileId → Prop}
  {I : ItemId → ItemId → Prop} {root : Bytes} {r r' : Resolution}
  (w : Renamed s t s' t' F I root r r')

include w

lemma keyOf_eq {d d' : Declared} (hdd : Alike t t' F I d d') :
    Plan.keyOf s' d' = Plan.keyOf s d := by
  obtain ⟨x, x', hx, hx', hdot⟩ := w.twins.there.dotPath hdd.file
  simp [Plan.keyOf, Plan.dotPathOf, hx, hx', hdot, hdd.name]

lemma exists_var {d : Declared} (hd : d ∈ t.vars) :
    ∃ d' ∈ t'.vars, Alike t t' F I d d' := by
  obtain ⟨next, h⟩ := w.numbered
  obtain ⟨next', h'⟩ := w.numbered'
  obtain ⟨hdef, hkind⟩ := h.mem_vars_iff.1 hd
  obtain ⟨d', hd', hdd⟩ := w.exists_alike hdef
  exact ⟨d', h'.mem_vars_iff.2 ⟨hd', hdd.kind.trans hkind⟩, hdd⟩

lemma value_of_key {key : Bytes} {v : Int32}
    (h : ∃ d ∈ t.vars, Plan.keyOf s d = key ∧ ∃ i, Denotes r d.item i ∧ v = Int32.ofInt i) :
    ∃ d' ∈ t'.vars, Plan.keyOf s' d' = key ∧ ∃ i, Denotes r' d'.item i ∧ v = Int32.ofInt i := by
  obtain ⟨d, hd, hkey, i, hi, hv⟩ := h
  obtain ⟨d', hd', hdd⟩ := w.exists_var hd
  exact ⟨d', hd', (w.keyOf_eq hdd).trans hkey, i, w.denotes hdd.item hi, hv⟩

lemma mem_keys {key : Bytes} (h : key ∈ t.vars.map (Plan.keyOf s)) :
    key ∈ t'.vars.map (Plan.keyOf s') := by
  obtain ⟨d, hd, rfl⟩ := List.mem_map.1 h
  obtain ⟨d', hd', hdd⟩ := w.exists_var hd
  exact List.mem_map.2 ⟨d', hd', w.keyOf_eq hdd⟩

section Values

variable (hkeys : (t.vars.map (Plan.keyOf s)).Nodup) (hkeys' : (t'.vars.map (Plan.keyOf s')).Nodup)

include hkeys hkeys'

lemma length_vars : t.vars.length = t'.vars.length := by
  have hperm : (t.vars.map (Plan.keyOf s)).Perm (t'.vars.map (Plan.keyOf s')) :=
    (List.perm_ext_iff_of_nodup hkeys hkeys').2 fun _ => ⟨w.mem_keys, w.symm.mem_keys⟩
  simpa using hperm.length_eq

/-- **Programs that break no rule** give the same values to the same keys; if there are so many
variables that sizes wrap around, neither gives any. -/
lemma sameValues {reader : Bytes → Option Wgsl.ModuleTree} (hread : Shader.Understood reader)
    (hsound : ¬ Violation s t root r) :
    ∃ p p', Plan.lower s r = .ok p ∧ Plan.lower s' r' = .ok p' ∧
      (t.vars.length < 2 ^ 30 → p.program.SameValues reader p'.program) ∧
      (2 ^ 30 ≤ t.vars.length → (∃ e, p.program.values reader = .error e) ∧
        ∃ e, p'.program.values reader = .error e) := by
  obtain ⟨next, h⟩ := w.numbered
  obtain ⟨next', h'⟩ := w.numbered'
  have hsound' := mt w.violation_iff.2 hsound
  have hlen := w.length_vars hkeys hkeys'
  rcases Nat.lt_or_ge t.vars.length (2 ^ 30) with hvars | hvars
  · obtain ⟨p, vs, hp, hvs, hnodup, hmem⟩ :=
      Plan.values_of_sound hread h w.resolved hsound hkeys hvars
    obtain ⟨p', vs', hp', hvs', hnodup', hmem'⟩ :=
      Plan.values_of_sound hread h' w.resolved' hsound' hkeys' (hlen ▸ hvars)
    have hperm : vs.Perm vs' := by
      refine (List.perm_ext_iff_of_nodup hnodup.of_map hnodup'.of_map).2 ?_
      rintro ⟨key, v⟩
      rw [hmem, hmem']
      exact ⟨w.value_of_key, w.symm.value_of_key⟩
    exact ⟨p, p', hp, hp', fun _ => ⟨vs, vs', hvs, hvs', hnodup, hperm⟩,
      fun hmany => absurd hvars (Nat.not_lt.2 hmany)⟩
  · obtain ⟨p, e, hp, he⟩ := Plan.values_of_many hread h w.resolved hsound hvars
    obtain ⟨p', e', hp', he'⟩ := Plan.values_of_many hread h' w.resolved' hsound' (hlen ▸ hvars)
    exact ⟨p, p', hp, hp', fun hfew => absurd hfew (Nat.not_lt.2 hvars),
      fun _ => ⟨⟨e, he⟩, e', he'⟩⟩

end Values

end Resolution.Renamed

/-! ### Whole projects -/

namespace Project

/-- All that is reported about some texts: their syntax errors, and what their check found. -/
def reports (texts : List SourceText) (r : Resolution) (limit : Int) : Bag :=
  (Bag.empty limit).addAll
    ((sourcesOf texts).parse.diagnostics ++ (Validation.check r).diagnostics)

section Reports

variable {texts : List SourceText} {root : Bytes} {r : Resolution}

lemma failed_reports_iff (hp : (sourcesOf texts).parse.failures = 0)
    (hr : Resolution.ofTree (sourcesOf texts) (treeOf texts) root = .ok r) (limit : Int)
    (warningsAsErrors : Bool) : (reports texts r limit).failed warningsAsErrors = true ↔
      Validation.Violation (sourcesOf texts) (treeOf texts) root r ∨ warningsAsErrors = true ∧
        Validation.Suspicious (sourcesOf texts) (treeOf texts) root r := by
  obtain ⟨next, h⟩ := numbered_treeOf texts
  obtain ⟨r', hr', hres⟩ := Resolution.ofTree_resolved h root
  obtain rfl := Except.ok.inj (hr.symm.trans hr')
  have herror : (∃ d ∈ (Validation.check r).diagnostics, d.severity = .error) ↔
      Validation.Violation (sourcesOf texts) (treeOf texts) root r :=
    ⟨Validation.violation_of_hasError h hres, Validation.Violation.hasError h hres⟩
  have hwarning : (∃ d ∈ (Validation.check r).diagnostics, d.severity = .warning) ↔
      (Validation.check r).diagnostics.any Diagnostic.isWarning = true := by
    simp [Diagnostic.isWarning]
  rw [reports, ParsedSources.diagnostics_of_failures hp, List.nil_append, Bag.failed_iff, herror,
    hwarning]
  by_cases hv : Validation.Violation (sourcesOf texts) (treeOf texts) root r
  · simp [hv]
  · rw [Validation.warns_check h hr hres hv]

lemma hasErrors_reports (limit : Int) :
    (reports texts r limit).hasErrors = (reports texts r limit).failed false := by
  simp [Bag.failed]

end Reports

/-- **The order of files does not matter.** Take a reader that understands the shaders of plans, and
files whose dot paths all differ and that have no syntax errors, in any two orders. In both orders
their names are resolved, and they fail or pass together, whether warnings count as errors or not.
If there is no error, both programs are made, and running them gives the same values to the same
keys; only with so many variables that sizes wrap around, neither gives any. -/
theorem verdict_and_values_perm (reader : Bytes → Option Wgsl.ModuleTree)
    (hread : Shader.Understood reader) (texts texts' : List SourceText) (root : Bytes)
    (hperm : texts.Perm texts') (hnodup : (texts.map SourceText.dotPath).Nodup)
    (hp : (sourcesOf texts).parse.failures = 0) :
    ∃ r r', Resolution.ofTree (sourcesOf texts) (treeOf texts) root = .ok r ∧
      Resolution.ofTree (sourcesOf texts') (treeOf texts') root = .ok r' ∧
      (∀ limit warningsAsErrors, (reports texts r limit).failed warningsAsErrors =
        (reports texts' r' limit).failed warningsAsErrors) ∧
      ∀ limit, (reports texts r limit).hasErrors = false →
        ∃ p p', Plan.lower (sourcesOf texts) r = .ok p ∧
          Plan.lower (sourcesOf texts') r' = .ok p' ∧
          ((treeOf texts).vars.length < 2 ^ 30 → p.program.SameValues reader p'.program) ∧
          (2 ^ 30 ≤ (treeOf texts).vars.length → (∃ e, p.program.values reader = .error e) ∧
            ∃ e, p'.program.values reader = .error e) := by
  obtain ⟨next, h⟩ := numbered_treeOf texts
  obtain ⟨next', h'⟩ := numbered_treeOf texts'
  obtain ⟨r, hr, hres⟩ := Resolution.ofTree_resolved h root
  obtain ⟨r', hr', hres'⟩ := Resolution.ofTree_resolved h' root
  have hp' := (failures_perm hperm).1 hp
  have w : Resolution.Renamed (sourcesOf texts) (treeOf texts) (sourcesOf texts') (treeOf texts')
      (FileMatch texts texts') (ItemMatch texts texts') root r r' :=
    ⟨twins hperm hnodup hp, ⟨next, h⟩, ⟨next', h'⟩, hres, hres'⟩
  refine ⟨r, r', hr, hr', fun limit warningsAsErrors => ?_, fun limit hnone => ?_⟩
  · rw [Bool.eq_iff_iff, failed_reports_iff hp hr, failed_reports_iff hp' hr', w.violation_iff,
      w.suspicious_iff]
  · have hsound : ¬ Validation.Violation (sourcesOf texts) (treeOf texts) root r := by
      intro hv
      rw [hasErrors_reports, (failed_reports_iff hp hr limit false).2 (.inl hv)] at hnone
      simp at hnone
    have hsound' := mt w.violation_iff.2 hsound
    have hkeys := (nodup_keys_iff hp).2 (unshared_of_sound hnodup hsound)
    have hkeys' := (nodup_keys_iff hp').2
      (unshared_of_sound ((nodup_perm hperm).1 hnodup) hsound')
    exact w.sameValues hkeys hkeys' hread hsound

/-- Two files that import each other and define one name, and a third that imports both. -/
def knotted : List SourceText :=
  [⟨"main.gpex", "main", "import near;import far;var _sum=wide;", false⟩,
    ⟨"near.gpex", "near", "pub import far;pub var wide=1;", false⟩,
    ⟨"far.gpex", "far", "pub import near;pub var wide=2;", false⟩]

/-- In either order only warnings are found, and the values are the same. -/
theorem verdict_and_values_perm_knotted :
    ∃ r r' p p', Resolution.ofTree (sourcesOf knotted) (treeOf knotted) "" = .ok r ∧
      Resolution.ofTree (sourcesOf knotted.reverse) (treeOf knotted.reverse) "" = .ok r' ∧
      (reports knotted.reverse r' 0).failed true = true ∧
      (reports knotted.reverse r' 0).failed false = false ∧
      Plan.lower (sourcesOf knotted) r = .ok p ∧
      Plan.lower (sourcesOf knotted.reverse) r' = .ok p' ∧
      p.program.SameValues Wgsl.ModuleTree.ofText? p'.program := by
  obtain ⟨r, r', hr, hr', hfailed, hvalues⟩ := verdict_and_values_perm
    Wgsl.ModuleTree.ofText? Shader.understood_ofText? knotted knotted.reverse ""
    knotted.reverse_perm.symm (by decide) (by decide +kernel)
  have hfound : (Resolution.ofTree (sourcesOf knotted) (treeOf knotted) "").toOption.map
      (fun r => ((reports knotted r 0).hasErrors, (reports knotted r 0).failed true,
        (reports knotted r 0).failed false)) = some (false, true, false) := by
    decide +kernel
  rw [hr, Except.toOption, Option.map_some, Option.some.injEq, Prod.mk.injEq, Prod.mk.injEq]
    at hfound
  obtain ⟨hnone, hwarned, hpassed⟩ := hfound
  obtain ⟨p, p', hp, hp', hsame, -⟩ := hvalues 0 hnone
  exact ⟨r, r', p, p', hr, hr', by rw [← hfailed, hwarned], by rw [← hfailed, hpassed], hp, hp',
    hsame (by decide +kernel)⟩

end Project

end StateBuffer
