import StateBuffer.Proofs.Syntax.Failure
import StateBuffer.Proofs.Syntax.Spans

/-!
The place of a syntax error. Reading stops where the text is blocked, so the tokens before the
error can be completed to a module, and no module has one more of them. Both compare the text with
another one that begins with the same bytes; the tokens in front stay the same as long as the
character after the last of them does not change what it is.
-/

namespace StateBuffer

open StateBuffer.Utf8

lemma lineEnds_iff {s : Bytes} : LineEnds s ↔ s = [] ∨ ∃ r, s = 0x0A :: r := by
  cases s <;> simp [LineEnds]

lemma lineEnds_words (words : List Bytes) : LineEnds (words.flatMap (0x0A :: ·)) := by
  rw [lineEnds_iff]
  cases words with
  | nil => exact .inl rfl
  | cons w words => exact .inr ⟨_, rfl⟩

namespace Grammar

lemma moduleOf_append {file : FileId} {node next last : NodeId} {ts us : List Lexeme}
    {items more : List ParsedItem} (h : ModuleOf file node ts items next)
    (h' : ModuleOf file next us more last) :
    ModuleOf file node (ts ++ us) (items ++ more) last := by
  induction h with
  | nil => exact h'
  | cons hi _ ih =>
    rw [List.append_assoc]
    exact .cons hi (ih h')

lemma stop_cover (s t : Span) : (s.cover t).stop = s.stop ∨ (s.cover t).stop = t.stop := by
  unfold Span.cover
  split_ifs <;> simp

lemma moduleOf_stop {file : FileId} {node last : NodeId} {ts : List Lexeme}
    {items : List ParsedItem} {stop : Nat} (h : ModuleOf file node ts items last)
    (hts : ∀ u ∈ ts, u.stop ≤ stop) : ∀ it ∈ items, it.span.stop.toNat ≤ stop := by
  induction h with
  | nil => simp
  | @cons _ _ _ ts us it items hi _ ih =>
    obtain ⟨hleft, hright⟩ := List.forall_mem_append.1 hts
    refine List.forall_mem_cons.2 ⟨?_, ih hright⟩
    obtain ⟨first, semicolon, hf, hl, hspan, -⟩ := itemOf_outer hi
    -- offsets are kept in 32 bits, which does not make them larger
    have hbound : ∀ u ∈ ts, (u.span file).stop.toNat ≤ stop := fun u hu =>
      Nat.le_trans (Nat.mod_le _ _) (hleft u hu)
    have hfirst := hbound first (List.mem_of_mem_head? hf)
    have hlast := hbound semicolon (List.mem_of_getLast? hl)
    rw [hspan]
    rcases stop_cover (first.span file) (semicolon.span file) with hstop | hstop
    · rwa [hstop]
    · rwa [hstop]

end Grammar

section Editions

variable [CodePoint.Edition]

/-! ### Another text after the same tokens -/

/-- The text `more` may stand where `rest` stands: it ends a comment if that did, and it is glued to
a word only if that was. -/
structure Replaces (rest more : Bytes) : Prop where
  lineEnds : LineEnds rest → LineEnds more
  glued : Glued more → Glued rest

lemma LineEnds.not_glued {s : Bytes} (h : LineEnds s) : ¬ Glued s := by
  rw [← runsOn_iff]
  rcases lineEnds_iff.1 h with rfl | ⟨r, rfl⟩
  · simp [runsOn, next]
  · rw [runsOn, next_ascii (by decide)]
    exact Bool.eq_false_iff.1 (by cbv)

lemma replaces_of_next {rest more : Bytes} (h : next rest = next more) : Replaces rest more := by
  constructor
  · intro hl
    rw [lineEnds_iff] at hl ⊢
    rcases hl with rfl | ⟨r, rfl⟩
    · cases more with
      | nil => exact .inl rfl
      | cons b r =>
        have hsize := next_size_pos b r
        rw [← h] at hsize
        exact absurd hsize (by decide)
    · rw [next_ascii (by decide)] at h
      obtain ⟨tail, htail, -⟩ := encode_of_next h.symm (by decide)
      exact .inr ⟨tail, htail⟩
  · intro hg
    rw [← runsOn_iff] at hg ⊢
    rwa [runsOn, h]

lemma replaces_encode {p : Nat} (hp : IsScalar p) (rest more : Bytes) :
    Replaces (encode p ++ rest) (encode p ++ more) :=
  replaces_of_next (by rw [next_encode hp, next_encode hp])

lemma replaces_ascii {b : UInt8} (hb : b < 0x80) (rest more : Bytes) :
    Replaces (b :: rest) (b :: more) :=
  replaces_of_next (by rw [next_ascii hb, next_ascii hb])

lemma Trivia.replace {s rest : Bytes} (h : Trivia s rest) :
    ∃ front, s = front ++ rest ∧ ∀ more, Replaces rest more →
      Trivia (front ++ more) more ∧ Replaces s (front ++ more) := by
  induction h with
  | none rest => exact ⟨[], rfl, fun more hr => ⟨.none more, hr⟩⟩
  | @space p s rest hp _ ih =>
    obtain ⟨front, rfl, hmore⟩ := ih
    refine ⟨encode p ++ front, (List.append_assoc ..).symm, fun more hr => ?_⟩
    rw [List.append_assoc]
    exact ⟨.space hp (hmore more hr).1, replaces_encode (CodePoint.isScalar_of_isSpace hp) _ _⟩
  | @comment text s rest ht hs _ ih =>
    obtain ⟨front, rfl, hmore⟩ := ih
    refine ⟨0x2F :: 0x2F :: (text ++ front), by simp, fun more hr => ?_⟩
    obtain ⟨htrivia, hr'⟩ := hmore more hr
    simp only [List.cons_append, List.append_assoc]
    exact ⟨.comment ht (hr'.lineEnds hs) htrivia, replaces_ascii (by decide) _ _⟩

/-- A token and what stands in front of it stay when another text follows. -/
lemma Leads.replace {before : Nat} {s r rest more : Bytes} {t : Lexeme}
    (h : Leads (before + rest.length) s t (r ++ rest)) (hr : Replaces (r ++ rest) (r ++ more)) :
    ∃ front, s = front ++ rest ∧ Leads (before + more.length) (front ++ more) t (r ++ more) ∧
      Replaces s (front ++ more) := by
  obtain ⟨b, text, hb, -, hlt, -⟩ := h.isToken.head
  obtain ⟨htrivia, hshape, hstart⟩ := h
  obtain ⟨front, hs, hmore⟩ := htrivia.replace
  have hb' : b < 0x80 := UInt8.lt_iff_toNat_lt.2 (by simp only [UInt8.reduceToNat]; omega)
  obtain ⟨htrivia', hr'⟩ := hmore (t.text ++ (r ++ more)) (by
    rw [hb]
    exact replaces_ascii hb' _ _)
  refine ⟨front ++ (t.text ++ r), by simp [hs], ⟨by simpa using htrivia', ?_, ?_⟩,
    by simpa using hr'⟩
  · exact hshape.imp_right fun ⟨hw, hg⟩ => ⟨hw, fun hg' => hg (hr.glued hg')⟩
  · rw [hstart]
    simp only [List.length_append]
    omega

/-- **Tokens stay when another text follows** that may stand there. -/
lemma Lexed.replace {before : Nat} {s rest more : Bytes} {ts : List Lexeme}
    (h : Lexed (before + rest.length) s ts rest) (hr : Replaces rest more) :
    ∃ front, s = front ++ rest ∧ Lexed (before + more.length) (front ++ more) ts more ∧
      Replaces s (front ++ more) := by
  generalize hsize : before + rest.length = size at h
  induction h with
  | nil ht =>
    obtain ⟨front, hs, hmore⟩ := ht.replace
    exact ⟨front, hs, .nil (hmore more hr).1, (hmore more hr).2⟩
  | cons hl _ ih =>
    obtain ⟨r, rfl, hs, hr'⟩ := ih hr hsize
    subst hsize
    obtain ⟨front, rfl, hl', hr''⟩ := hl.replace hr'
    exact ⟨front, rfl, .cons hl' hs, hr''⟩

lemma Lexed.suffix {size : Nat} {s rest : Bytes} {ts : List Lexeme} (h : Lexed size s ts rest) :
    rest <:+ s := by
  induction h with
  | nil ht => exact ht.suffix
  | cons hl _ ih =>
    obtain ⟨ht, -, -⟩ := hl
    exact (ih.trans (List.suffix_append _ _)).trans ht.suffix

lemma Lexed.split {size : Nat} {s rest : Bytes} {ts us : List Lexeme}
    (h : Lexed size s (ts ++ us) rest) : ∃ s', Lexed size s ts s' ∧ Lexed size s' us rest := by
  induction ts generalizing s with
  | nil => exact ⟨s, .nil (.none s), h⟩
  | cons t ts ih =>
    cases h with
    | cons hl hts =>
      obtain ⟨s', h1, h2⟩ := ih hts
      exact ⟨s', .cons hl h1, h2⟩

lemma Lexed.upTo {content rest : Bytes} {l r : List Lexeme} {u : Lexeme}
    (h : Lexed content.length content (l ++ u :: r) rest) :
    Lexed content.length content (l ++ [u]) (content.drop u.stop) ∧ u.stop ≤ content.length := by
  obtain ⟨s, hl, hu⟩ := h.split
  cases hu with
  | @cons _ s' _ _ _ hu _ =>
    have hlexed := hl.append (.cons hu (.nil (.none s')))
    obtain ⟨htrivia, -, hstart⟩ := hu
    have hlen := htrivia.suffix.length_le
    have hle := hl.length_le
    rw [List.length_append] at hlen hstart
    have hstop : content.length - s'.length = u.stop := by
      unfold Lexeme.stop
      omega
    have hdrop := List.suffix_iff_eq_drop.1 hlexed.suffix
    rw [hstop] at hdrop
    exact ⟨hdrop ▸ hlexed, by omega⟩

/-- **A token stands in both of two texts** that agree up to its end and in the character after
it. -/
lemma Lexed.shared {content other : Bytes} {l r : List Lexeme} {u : Lexeme}
    (h : Lexed other.length other (l ++ u :: r) [])
    (hbefore : other.take u.stop = content.take u.stop)
    (hafter : next (other.drop u.stop) = next (content.drop u.stop)) :
    Lexed content.length content (l ++ [u]) (content.drop u.stop) := by
  obtain ⟨hu, hle⟩ := h.upTo
  have hle' : u.stop ≤ content.length := by
    have hlen := congrArg List.length hbefore
    rw [List.length_take, List.length_take] at hlen
    omega
  have hsize : ∀ {s : Bytes}, u.stop ≤ s.length → s.length = u.stop + (s.drop u.stop).length := by
    intro s hs
    rw [List.length_drop]
    omega
  rw [hsize hle] at hu
  obtain ⟨front, hfront, hlexed, -⟩ := hu.replace (replaces_of_next hafter)
  have htake : front = other.take u.stop := by
    have hsplit := hfront.symm.trans (List.take_append_drop u.stop other).symm
    exact List.append_cancel_right hsplit
  rwa [htake, hbefore, List.take_append_drop, ← hsize hle'] at hlexed

lemma lexed_words (size : Nat) {words : List Bytes} (h : ∀ w ∈ words, IsToken w) :
    ∃ us, Lexed size (words.flatMap (0x0A :: ·)) us [] ∧ us.map Lexeme.text = words := by
  induction words with
  | nil => exact ⟨[], .nil (.none _), rfl⟩
  | cons w words ih =>
    obtain ⟨hw, hwords⟩ := List.forall_mem_cons.1 h
    obtain ⟨us, hus, htext⟩ := ih hwords
    refine ⟨⟨size - (w ++ words.flatMap (0x0A :: ·)).length, w⟩ :: us, .cons ⟨?_, ?_, rfl⟩ hus, ?_⟩
    · exact .space (p := 0x0A) (by decide) (.none _)
    · exact hw.imp_right fun hw => ⟨hw, (lineEnds_words words).not_glued⟩
    · rw [List.map_cons, htext]

namespace Grammar

/-! ### Where reading stopped -/

section Stopped

variable {id : FileId} {node : NodeId} {content : Bytes} {e : SyntaxError}

/-- The tokens `ts` derive the items of a file, the tokens `us` after them lead into a further item
up to the place `q`, and no token of `rest`, which is what is left, leads on from there. -/
structure Stopped (id : FileId) (node : NodeId) (content : Bytes) (items : List ParsedItem)
    (ts us : List Lexeme) (q : Place) (rest : Bytes) : Prop where
  lexed : Lexed content.length content (ts ++ us) rest
  items : ∃ last, ModuleOf id node ts items last
  trail : Trail .item (us.map Lexeme.text) q
  blocked : Lacks content.length rest fun x => ∃ q', Step q x q'

lemma stopped_of_error (h : (file id content node).error = some e) :
    ∃ ts us q rest, Stopped id node content (file id content node).items ts us q rest ∧
      e.offset = content.length - rest.length := by
  have hsize := size_start id content node
  obtain ⟨⟨ts, n, hm, hmoved⟩, hf, -, hstop⟩ :=
    items_sound 0 (c := Cursor.start id content node) rfl rfl
  obtain ⟨d, c1, hitem⟩ := hstop e (by simpa [file, hf] using h)
  have hb := item_blocked hitem
  have hrewind : ∀ c : Cursor, (d.rewind c).size = c.size ∧ (d.rewind c).rest = c.rest :=
    fun c => ⟨rfl, rfl⟩
  rw [(hrewind _).1, (hrewind _).2, hmoved.size, hsize] at hb
  obtain ⟨q, s, ⟨us, hus, htrail⟩, ho, hlacks⟩ := hb
  have hskip := (trivia_dropTrivia s).1
  refine ⟨ts, us, q, dropTrivia s, ⟨?_, ⟨_, hm⟩, htrail, hlacks.after_trivia hskip⟩, ho⟩
  have hts : Lexed content.length content ts _ := hsize ▸ hmoved.lexed
  simpa using (hts.append hus).append (.nil hskip)

variable {items : List ParsedItem} {ts us : List Lexeme} {q : Place} {rest : Bytes}

lemma Stopped.length_le (h : Stopped id node content items ts us q rest) :
    rest.length ≤ content.length := by
  have := h.lexed.length_le
  omega

lemma Stopped.stop_le (h : Stopped id node content items ts us q rest) {u : Lexeme}
    (hu : u ∈ ts ++ us) : u.stop ≤ content.length - rest.length :=
  ((h.lexed.placed (Nat.le_refl _)).within u hu).2.2

/-- **What was read is the beginning of a module**: the shortest way back from the place where
reading stopped completes it. -/
lemma Stopped.viable (h : Stopped id node content items ts us q rest) :
    ∃ more vs further last, more.length ≤ room ∧
      Lexed (content.take (content.length - rest.length) ++ more).length
        (content.take (content.length - rest.length) ++ more) vs [] ∧
      ModuleOf id node vs (items ++ further) last := by
  have hle := h.length_le
  obtain ⟨last, hm⟩ := h.items
  set more : Bytes := (completion q).flatMap (0x0A :: ·)
  have hend : LineEnds more := lineEnds_words _
  have hr : Replaces rest more := ⟨fun _ => hend, fun hg => absurd hg hend.not_glued⟩
  have hlexed : Lexed (content.length - rest.length + rest.length) content (ts ++ us) rest := by
    rw [Nat.sub_add_cancel hle]
    exact h.lexed
  obtain ⟨front, hfront, hfront', -⟩ := hlexed.replace hr
  have htake : content.take (content.length - rest.length) = front := by
    rw [hfront, List.length_append, Nat.add_sub_cancel, List.take_left]
  obtain ⟨ws, hws, htext⟩ := lexed_words (content.length - rest.length + more.length)
    (trail_completion q).isToken
  have htrail : Trail .item ((us ++ ws).map Lexeme.text) .item := by
    rw [List.map_append, htext]
    exact h.trail.append (trail_completion q)
  obtain ⟨further, last', hm'⟩ := moduleOf_of_trail htrail last
  refine ⟨more, ts ++ (us ++ ws), further, last', length_completion_le q, ?_,
    moduleOf_append hm hm'⟩
  have hlen : (front ++ more).length = content.length - rest.length + more.length := by
    rw [← htake, List.length_append, List.length_take]
    omega
  rw [htake, hlen, ← List.append_assoc]
  exact hfront'.append hws

/-- **No module reaches further**: a token that a module shares with the text, together with the
character after it, ends at the offset where reading stopped or before. -/
lemma Stopped.furthest (h : Stopped id node content items ts us q rest) {file : FileId}
    {first last : NodeId} {other : Bytes} {vs : List Lexeme} {items' : List ParsedItem}
    (hl : Lexed other.length other vs []) (hm : ModuleOf file first vs items' last) {u : Lexeme}
    (hu : u ∈ vs) (hbefore : other.take u.stop = content.take u.stop)
    (hafter : next (other.drop u.stop) = next (content.drop u.stop)) :
    u.stop ≤ content.length - rest.length := by
  obtain ⟨l, r, rfl⟩ := List.append_of_mem hu
  rcases (hl.shared hbefore hafter).compare h.lexed with ⟨ws, hws, -⟩ | ⟨v, ws, s', hws, hv⟩
  · exact h.stop_le (by rw [hws]; simp)
  · -- the module goes on with a token where the text is blocked
    exfalso
    obtain ⟨last', hm'⟩ := h.items
    have hread : Trail .item ((ts ++ us).map Lexeme.text) q := by
      rw [List.map_append]
      exact (moduleOf_trail hm').append h.trail
    have htrail := moduleOf_trail hm
    rw [List.append_cons, hws, List.append_assoc, List.map_append] at htrail
    exact h.blocked v s' hv (htrail.next hread)

end Stopped

end Grammar

namespace Tree

open Grammar

/-- The offset `stop` is where a file with the items `items` in front goes wrong. -/
structure BreaksAt (t : Tree) (id : FileId) (content : Bytes) (node : NodeId) (stop : Nat)
    (items : List ParsedItem) : Prop where
  within : stop ≤ content.length
  /-- These items were stored. -/
  stored : (t.addFile id content node).1.items.map (t.addFile id content node).2.stored? =
    items.map some
  /-- They end before the offset or there. -/
  after : ∀ it ∈ items, it.span.stop.toNat ≤ stop
  /-- So do their tokens, also where spans of 32 bits do not tell. -/
  kept : ∃ ts rest last, Lexed content.length content ts rest ∧ ModuleOf id node ts items last ∧
    ∀ u ∈ ts, u.stop ≤ stop
  /-- The text up to there goes on, in a few bytes, to a module that has the same items in front. It
  is read without an error and its items are stored, unless it has no room in 32-bit offsets. -/
  viable : ∃ (more : Bytes) (ts : List Lexeme) (further : List ParsedItem) (last : NodeId),
    more.length ≤ room ∧
    Lexed (content.take stop ++ more).length (content.take stop ++ more) ts [] ∧
    ModuleOf id node ts (items ++ further) last ∧
    (stop + more.length < 2 ^ 32 →
      (t.addFile id (content.take stop ++ more) node).1.error = none ∧
        (t.addFile id (content.take stop ++ more) node).1.items.map
            (t.addFile id (content.take stop ++ more) node).2.stored? = (items ++ further).map some)
  /-- No module has a token that ends beyond and agrees with the text up to its end and in the
  character after it. -/
  furthest : ∀ other ts file first last items', Lexed other.length other ts [] →
    ModuleOf file first ts items' last →
    ∀ u ∈ ts, other.take u.stop = content.take u.stop →
      next (other.drop u.stop) = next (content.drop u.stop) → u.stop ≤ stop

/-- **Syntax errors are located exactly.** The offset of an error lies in the text and after the
items that are kept; the text up to it is the beginning of a module that has these items in front,
and of a file without an error wherever the offsets of 32 bits reach as far; and no module agrees
with the text beyond it. All this holds with the letters and digits of any edition of Unicode. -/
theorem addFile_error_breaksAt (t : Tree) (id : FileId) (content : Bytes) (node : NodeId)
    (e : SyntaxError) (h : (t.addFile id content node).1.error = some e) :
    ∃ (stop : Nat) (items : List ParsedItem),
      e.offset = stop ∧ t.BreaksAt id content node stop items := by
  obtain ⟨he, -, hi⟩ := addFile_eq t id content node
  obtain ⟨ts, us, q, rest, hs, ho⟩ := stopped_of_error (he ▸ h)
  have hle := hs.length_le
  obtain ⟨last, hm⟩ := hs.items
  have hstop : ∀ u ∈ ts, u.stop ≤ content.length - rest.length := fun u hu =>
    hs.stop_le (List.mem_append_left us hu)
  refine ⟨content.length - rest.length, (file id content node).items, by omega, ?_⟩
  constructor
  case within => exact Nat.sub_le _ _
  case stored => exact hi
  case after => exact moduleOf_stop hm hstop
  case kept =>
    obtain ⟨s, hkept, -⟩ := hs.lexed.split
    exact ⟨ts, s, last, hkept, hm, hstop⟩
  case viable =>
    obtain ⟨more, vs, further, last', hroom, hlexed, hmodule⟩ := hs.viable
    obtain ⟨hok, hitems, -⟩ := file_ok_iff.2 ⟨vs, hlexed, hmodule⟩
    obtain ⟨he', -, hi'⟩ :=
      addFile_eq t id (content.take (content.length - rest.length) ++ more) node
    exact ⟨more, vs, further, last', hroom, hlexed, hmodule,
      fun _ => ⟨he'.trans hok, by rw [hi', hitems]⟩⟩
  case furthest =>
    intro other vs file first last items' hl hm u hu hbefore hafter
    exact hs.furthest hl hm hu hbefore hafter

end Tree

end Editions

namespace Tree

open Grammar

/-- The dot after the last name of a path is given back, and the error still stands after it. -/
theorem addFile_error_breaksAt_dot :
    (Tree.empty.addFile 1 "var a=1;\npub import ~.b.;" 0).1.error =
        some ⟨1, 24, ["identifier"]⟩ ∧
      ∃ (stop : Nat) (items : List ParsedItem), (24 : Int) = stop ∧
        Tree.empty.BreaksAt 1 "var a=1;\npub import ~.b.;" 0 stop items := by
  have h : (Tree.empty.addFile 1 "var a=1;\npub import ~.b.;" 0).1.error =
      some ⟨1, 24, ["identifier"]⟩ := by decide +kernel
  exact ⟨h, addFile_error_breaksAt Tree.empty 1 _ 0 _ h⟩

end Tree

end StateBuffer
