import Mathlib.Data.List.Dedup
import StateBuffer.Proofs.Contents
import StateBuffer.Proofs.Plan
import StateBuffer.Shader.Emit

/-!
The fields of a plan's buffer. Fields that are put in one after the other replace each other where
their keys are equal, so there is a field for every variable exactly if the keys of the variables
differ. A key tells the dot path of a file and a name apart at its last colon: names have none.
-/

namespace StateBuffer

namespace FieldMap

lemma find?_insertEntry (key key' : Bytes) (field : Field) (entries : List (Bytes × Field)) :
    ((insertEntry key field entries).find? fun e => e.1 = key') =
      if key' = key then some (key, field) else entries.find? fun e => e.1 = key' := by
  induction entries with
  | nil => by_cases hk : key' = key <;> simp [insertEntry, hk, eq_comm]
  | cons entry rest ih =>
    rw [insertEntry]
    by_cases hk : key' = key
    · rw [if_pos hk]
      split_ifs with hlt heq
      · simp [hk]
      · simp [hk]
      · have hne : entry.1 ≠ key' := fun he => heq (hk.symm.trans he.symm)
        rw [List.find?_cons_of_neg (by simpa using hne), ih, if_pos hk]
    · rw [if_neg hk]
      split_ifs with hlt heq
      · rw [List.find?_cons_of_neg (by simpa using Ne.symm hk)]
      · have hne : entry.1 ≠ key' := fun he => hk (he.symm.trans heq.symm)
        rw [List.find?_cons_of_neg (by simpa using Ne.symm hk),
          List.find?_cons_of_neg (by simpa using hne)]
      · rw [List.find?_cons, List.find?_cons, ih, if_neg hk]

lemma get?_insert (m : FieldMap) (key key' : Bytes) (field : Field) :
    (m.insert key field).get? key' = if key' = key then some field else m.get? key' := by
  rw [get?, insert, find?_insertEntry]
  split_ifs <;> rfl

lemma ofList_append (entries : List (Bytes × Field)) (e : Bytes × Field) :
    ofList (entries ++ [e]) = (ofList entries).insert e.1 e.2 := by
  rw [ofList, List.foldl_append]
  rfl

/-- **Of several entries with a key** the last one counts. -/
theorem get?_ofList (entries : List (Bytes × Field)) (key : Bytes) :
    (ofList entries).get? key = (entries.reverse.find? fun e => e.1 = key).map Prod.snd := by
  induction entries using List.reverseRecOn with
  | nil => rfl
  | append_singleton entries e ih =>
    rw [ofList_append, get?_insert, ih, List.reverse_append, List.reverse_singleton,
      List.singleton_append, List.find?_cons]
    by_cases hk : key = e.1
    · simp [hk]
    · simp [hk, Ne.symm hk]

lemma nodup_keys (m : FieldMap) : (m.entries.map Prod.fst).Nodup := by
  refine List.pairwise_map.2 (m.sorted.imp fun {a b} hlt heq => ?_)
  rw [heq] at hlt
  exact List.lt_irrefl _ hlt

lemma mem_entries_iff {m : FieldMap} {key : Bytes} {field : Field} :
    (key, field) ∈ m.entries ↔ m.get? key = some field := by
  rw [get?, Option.map_eq_some_iff]
  constructor
  · intro hmem
    refine ⟨(key, field), ?_, rfl⟩
    obtain ⟨before, after, hsplit⟩ := List.append_of_mem hmem
    have hnodup := m.nodup_keys
    rw [hsplit, List.map_append, List.map_cons] at hnodup
    rw [hsplit]
    refine List.find?_eq_some_iff_append.2 ⟨by simp, before, after, rfl, fun e he => ?_⟩
    have hne := (List.nodup_append.1 hnodup).2.2 e.1 (List.mem_map_of_mem he) key (by simp)
    simpa using hne
  · rintro ⟨⟨key', field'⟩, hfind, rfl⟩
    obtain rfl : key' = key := by simpa using List.find?_some hfind
    exact List.mem_of_find?_eq_some hfind

lemma mem_keys_ofList {entries : List (Bytes × Field)} {key : Bytes} :
    key ∈ (ofList entries).entries.map Prod.fst ↔ key ∈ entries.map Prod.fst := by
  have hsome : key ∈ (ofList entries).entries.map Prod.fst ↔
      ((ofList entries).get? key).isSome := by
    rw [get?, Option.isSome_map, List.find?_isSome]
    simp
  rw [hsome, get?_ofList, Option.isSome_map, List.find?_isSome]
  simp

lemma size_ofList (entries : List (Bytes × Field)) :
    (ofList entries).size = (entries.map Prod.fst).dedup.length := by
  have hperm : ((ofList entries).entries.map Prod.fst).Perm (entries.map Prod.fst).dedup := by
    refine (List.perm_ext_iff_of_nodup (nodup_keys _) (List.nodup_dedup _)).2 fun key => ?_
    rw [mem_keys_ofList, List.mem_dedup]
  rw [← hperm.length_eq, List.length_map]
  rfl

/-- **No entry is lost** exactly if all keys differ. -/
theorem size_ofList_iff (entries : List (Bytes × Field)) :
    (ofList entries).size = entries.length ↔ (entries.map Prod.fst).Nodup := by
  rw [size_ofList, ← List.dedup_eq_self, ← List.length_map (f := Prod.fst)]
  constructor
  · exact fun hlen => (List.dedup_sublist _).eq_of_length hlen
  · exact fun heq => by rw [heq]

lemma mem_ofList_iff {entries : List (Bytes × Field)} (h : (entries.map Prod.fst).Nodup)
    {e : Bytes × Field} : e ∈ (ofList entries).entries ↔ e ∈ entries := by
  rw [mem_entries_iff, get?_ofList, Option.map_eq_some_iff]
  constructor
  · rintro ⟨e', hfind, he⟩
    have hkey : e'.1 = e.1 := by simpa using List.find?_some hfind
    rw [← Prod.ext hkey he]
    exact List.mem_reverse.1 (List.mem_of_find?_eq_some hfind)
  · intro hmem
    have hsome : (entries.reverse.find? fun e' => e'.1 = e.1).isSome := by
      rw [List.find?_isSome]
      exact ⟨e, List.mem_reverse.2 hmem, by simp⟩
    obtain ⟨e', hfind⟩ := Option.isSome_iff_exists.1 hsome
    have hkey : e'.1 = e.1 := by simpa using List.find?_some hfind
    have hmem' := List.mem_reverse.1 (List.mem_of_find?_eq_some hfind)
    exact ⟨e', hfind, by rw [List.inj_on_of_nodup_map h hmem' hmem hkey]⟩

end FieldMap

namespace Plan

/-! ### Keys -/

lemma colon_notMem_of_isName {name : Bytes} (h : IsName name) : (0x3A : UInt8) ∉ name := by
  obtain ⟨⟨b, r, rfl, hb, hr⟩, -⟩ := h
  intro hmem
  rcases List.mem_cons.1 hmem with rfl | hmem
  · exact absurd hb (by decide)
  · exact absurd (hr _ hmem) (by decide)

lemma key_inj {dotPath dotPath' name name' : Bytes} (hn : IsName name) (hn' : IsName name')
    (h : key dotPath name = key dotPath' name') : dotPath = dotPath' ∧ name = name' := by
  have hcolon := colon_notMem_of_isName hn
  have hcolon' := colon_notMem_of_isName hn'
  have hsplit : dotPath ++ 0x3A :: name = dotPath' ++ 0x3A :: name' := by
    rw [key, key, show (":" : Bytes) = [0x3A] from rfl] at h
    simpa using h
  -- a longer dot path would put a colon into the other name
  rcases List.append_eq_append_iff.1 hsplit with ⟨as, hp, has⟩ | ⟨as, hp, has⟩
  · cases as with
    | nil => exact ⟨by simpa using hp.symm, (List.cons.inj has).2⟩
    | cons a as =>
      refine absurd ?_ hcolon
      rw [(List.cons.inj has).2]
      simp
  · cases as with
    | nil => exact ⟨by simpa using hp, (List.cons.inj has).2.symm⟩
    | cons a as =>
      refine absurd ?_ hcolon'
      rw [(List.cons.inj has).2]
      simp

def keyOf (s : SourceSet) (d : Declared) : Bytes := key (dotPathOf s d.file) d.definition.name

lemma map_key_globalsIn (s : SourceSet) (t : Tree) :
    (globalsIn s t).map Global.key = t.vars.map (keyOf s) := by
  refine List.ext_getElem? fun i => ?_
  simp only [List.getElem?_map, getElem?_globalsIn, Option.map_map]
  rfl

/-- No two variables have both the same dot path and the same name. -/
def Unshared (s : SourceSet) (t : Tree) : Prop :=
  ∀ d ∈ t.vars, ∀ d' ∈ t.vars, dotPathOf s d.file = dotPathOf s d'.file →
    d.definition.name = d'.definition.name → d = d'

/-- Every variable has a field of its own: keys differ, there are as many fields as variables, and
the field of a variable's key is where the variable lies. -/
structure Keeps (p : Plan) : Prop where
  keys : (p.globals.map Global.key).Nodup
  size : p.program.buffer.fields.size = p.globals.length
  field : ∀ g ∈ p.globals, p.program.field? g.key = some ⟨4, g.offset⟩

def entries (p : Plan) : List (Bytes × Field) :=
  p.globals.map fun g => (g.key, ⟨cellSize, g.offset⟩)

lemma map_fst_entries (p : Plan) : p.entries.map Prod.fst = p.globals.map Global.key := by
  simp [entries]

lemma keeps_iff (p : Plan) : p.Keeps ↔ (p.globals.map Global.key).Nodup := by
  refine ⟨Keeps.keys, fun h => ⟨h, ?_, fun g hg => ?_⟩⟩
  · have hsize := (FieldMap.size_ofList_iff p.entries).2 (p.map_fst_entries ▸ h)
    rwa [entries, List.length_map] at hsize
  · rw [Program.field?, ← FieldMap.mem_entries_iff]
    exact (FieldMap.mem_ofList_iff (p.map_fst_entries ▸ h)).2 (List.mem_map_of_mem hg)

end Plan

namespace Project

variable {texts : List SourceText}

lemma isName_of_definition (hp : (sourcesOf texts).parse.failures = 0) {d : Declared}
    (hd : (treeOf texts).definition? d.item = some d) : IsName d.definition.name := by
  obtain ⟨next, h⟩ := numbered_treeOf texts
  obtain ⟨span, hi, -⟩ := Tree.definition?_eq_some.1 hd
  obtain ⟨j, x, hx, hfile⟩ := exists_text hi
  obtain ⟨k, hk⟩ := h.exists_at hi
  rw [hfile] at hk
  obtain ⟨it, hit, hplain⟩ := (stored?_of_at hp hx k).2 d.item hk
  obtain ⟨e, -, rfl⟩ : ∃ e, _ ∧ _ := Option.map_eq_some_iff.1
    (show Option.map _ _ = some it by simpa [Tree.stored?, hi] using hit)
  have hparses := (failures_iff texts).1 hp x (List.mem_of_getElem? hx)
  exact Grammar.isName_of_outline hparses (List.mem_of_getElem? hplain)

lemma nodup_keys_iff (hp : (sourcesOf texts).parse.failures = 0) :
    ((treeOf texts).vars.map (Plan.keyOf (sourcesOf texts))).Nodup ↔
      Plan.Unshared (sourcesOf texts) (treeOf texts) := by
  obtain ⟨next, h⟩ := numbered_treeOf texts
  have hnodup : (treeOf texts).vars.Nodup :=
    h.pairwise_vars.imp fun hlt heq => absurd hlt (by rw [heq]; exact Nat.lt_irrefl _)
  have hname : ∀ d ∈ (treeOf texts).vars, IsName d.definition.name :=
    fun d hd => isName_of_definition hp (h.mem_vars_iff.1 hd).1
  constructor
  · intro hkeys d hd d' hd' hdot hsame
    exact List.inj_on_of_nodup_map hkeys hd hd' (by rw [Plan.keyOf, Plan.keyOf, hdot, hsame])
  · intro hunshared
    refine List.Nodup.map_on (fun d hd d' hd' hkey => ?_) hnodup
    obtain ⟨hdot, hsame⟩ := Plan.key_inj (hname d hd) (hname d' hd') hkey
    exact hunshared d hd d' hd' hdot hsame

lemma file_of_dotPath (hnodup : (texts.map SourceText.dotPath).Nodup) {d d' : Declared}
    (hd : (treeOf texts).definition? d.item = some d)
    (hd' : (treeOf texts).definition? d'.item = some d')
    (hdot : Plan.dotPathOf (sourcesOf texts) d.file = Plan.dotPathOf (sourcesOf texts) d'.file) :
    d.file = d'.file := by
  have htext : ∀ {d}, (treeOf texts).definition? d.item = some d →
      ∃ j x, texts[j]? = some x ∧ d.file = j + 1 ∧
        Plan.dotPathOf (sourcesOf texts) d.file = x.dotPath := by
    intro d hd
    obtain ⟨span, hi, -⟩ := Tree.definition?_eq_some.1 hd
    obtain ⟨j, x, hx, hfile⟩ := exists_text hi
    obtain ⟨f, hf, hdot⟩ := get?_sourcesOf hx
    rw [← hfile] at hf
    exact ⟨j, x, hx, hfile, by simp [Plan.dotPathOf, hf, hdot]⟩
  obtain ⟨j, x, hx, hfile, hpath⟩ := htext hd
  obtain ⟨j', x', hx', hfile', hpath'⟩ := htext hd'
  have hsame : (texts.map SourceText.dotPath)[j]? = (texts.map SourceText.dotPath)[j']? := by
    rw [List.getElem?_map, List.getElem?_map, hx, hx', Option.map_some, Option.map_some,
      ← hpath, ← hpath', hdot]
  have hlt : j < (texts.map SourceText.dotPath).length := by
    simpa using (List.getElem?_eq_some_iff.1 hx).1
  rw [hfile, hfile', (List.getElem?_inj hlt hnodup).1 hsame]

lemma unshared_of_sound (hnodup : (texts.map SourceText.dotPath).Nodup) {root : Bytes}
    {r : Resolution}
    (hsound : ¬ Validation.Violation (sourcesOf texts) (treeOf texts) root r) :
    Plan.Unshared (sourcesOf texts) (treeOf texts) := by
  obtain ⟨next, h⟩ := numbered_treeOf texts
  intro d hd d' hd' hdot hname
  have hdef := (h.mem_vars_iff.1 hd).1
  have hdef' := (h.mem_vars_iff.1 hd').1
  have hfile := file_of_dotPath hnodup hdef hdef' hdot
  by_contra hne
  exact hsound (.duplicate ⟨hdef, hfile, hname⟩ ⟨hdef', rfl, rfl⟩ hne)

end Project

end StateBuffer
