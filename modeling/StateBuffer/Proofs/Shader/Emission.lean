import StateBuffer.Proofs.Shader.Reading
import StateBuffer.Proofs.Shader.Tokens
import StateBuffer.Proofs.Text.Numerals
import StateBuffer.Shader.Emit

/-!
The shader of a plan reads as the tree that it denotes. Its text is cut at its blanks into chunks of
tokens, which are scanned one after the other, and the tokens are read by the rules for structs,
variables, functions and assignments.
-/

namespace StateBuffer

namespace Shader

open Wgsl Wgsl.Token

/-! ### The tokens of a shader -/

def placeTokens (n : NodeId) : Chunk := [.word bufferName, .symbol ".", .word (memberName n)]

def numberTokens (i : Int) : Chunk :=
  if i < 0 then [.symbol "-", .integer (Bytes.ofNat i.natAbs)]
  else [.integer (Bytes.ofNat i.natAbs)]

def valueTokens : InitValue → Chunk
  | .const value => [.word "i32", .symbol "("] ++ numberTokens value.toInt ++ [.symbol ")"]
  | .global n => placeTokens n

def initChunks (i : Init) : List Chunk :=
  [placeTokens i.target, [.symbol "="], valueTokens i.value ++ [.symbol ";"]]

def memberChunks (g : Global) : List Chunk :=
  [[.word (memberName g.node), .symbol ":"], [.word "i32", .symbol ","]]

def frontChunks : List Chunk := [[.word "struct"], [.word structName], [.symbol "\x7b"]]

def bufferChunks : List Chunk :=
  [[.symbol "@", .word "group", .symbol "(", .integer "0", .symbol ")"],
    [.symbol "@", .word "binding", .symbol "(", .integer "0", .symbol ")"],
    [.word "var", .symbol "<", .word "storage", .symbol ","], [.word "read_write", .symbol ">"],
    [.word bufferName, .symbol ":"], [.word structName, .symbol ";"]]

def entryChunks : List Chunk :=
  [[.symbol "@", .word "compute"],
    [.symbol "@", .word "workgroup_size", .symbol "(", .integer "1", .symbol ","],
    [.integer "1", .symbol ","], [.integer "1", .symbol ")"], [.word "fn"],
    [.word entryPoint, .symbol "(", .symbol ")"], [.symbol "\x7b"]]

def middleChunks : List Chunk := [.symbol "\x7d"] :: (bufferChunks ++ entryChunks)

/-- The chunks of a shader but for its last brace. -/
def chunks (p : Plan) : List Chunk :=
  frontChunks ++ p.globals.flatMap memberChunks ++ middleChunks ++ p.inits.flatMap initChunks

/-- Chunks with blanks behind them. -/
def spaced (cs : List Chunk) : Bytes := cs.flatMap fun c => chunkText c ++ [0x20]

lemma spaced_append (cs cs' : List Chunk) : spaced (cs ++ cs') = spaced cs ++ spaced cs' :=
  List.flatMap_append

lemma spaced_flatMap {α : Type} (l : List α) (f : α → List Chunk) :
    spaced (l.flatMap f) = l.flatMap fun a => spaced (f a) :=
  List.flatMap_assoc

lemma spaced_cons (c : Chunk) (cs : List Chunk) :
    spaced (c :: cs) = chunkText c ++ ([0x20] ++ spaced cs) := by
  rw [spaced, List.flatMap_cons, List.append_assoc]
  rfl

lemma memberText_eq (g : Global) : memberText g = spaced (memberChunks g) := by
  rw [memberText, memberChunks, spaced_cons, chunkText_cons, List.append_assoc]
  rfl

lemma placeText_eq (n : NodeId) : place n = chunkText (placeTokens n) := by
  simp only [place, placeTokens, chunkText_cons, chunkText_nil, text,
    List.append_nil, List.append_assoc]

lemma numberText_eq (i : Int) : Bytes.ofInt i = chunkText (numberTokens i) := by
  unfold Bytes.ofInt numberTokens
  split_ifs
  · simp only [chunkText_cons, chunkText_nil, text, List.append_nil]
    rfl
  · simp only [chunkText_cons, chunkText_nil, text, List.append_nil]

lemma valueText_eq (v : InitValue) : valueText v = chunkText (valueTokens v) := by
  cases v with
  | const value =>
    rw [valueText, valueTokens, chunkText_append, chunkText_append, numberText_eq]
    rfl
  | global n => exact placeText_eq n

lemma initText_eq (i : Init) : initText i = spaced (initChunks i) := by
  rw [initText, placeText_eq, valueText_eq, initChunks, spaced_cons, spaced_cons, spaced_cons,
    chunkText_append]
  simp only [List.append_assoc]
  rfl

lemma emit_eq (p : Plan) : emit p = spaced (chunks p) ++ "\x7d" := by
  have hmembers : p.globals.flatMap memberText = spaced (p.globals.flatMap memberChunks) := by
    rw [spaced_flatMap]
    exact congrArg p.globals.flatMap (funext memberText_eq)
  have hinits : p.inits.flatMap initText = spaced (p.inits.flatMap initChunks) := by
    rw [spaced_flatMap]
    exact congrArg p.inits.flatMap (funext initText_eq)
  have hfront : Bytes.ofString "struct " ++ structName ++ " \x7b " = spaced frontChunks := by
    decide +kernel
  have hmiddle : "\x7d @group(0) @binding(0) var<storage, read_write> " ++ bufferName ++ ": " ++
      structName ++ "; @compute @workgroup_size(1, 1, 1) fn " ++ entryPoint ++ "() \x7b " =
      spaced middleChunks := by
    decide +kernel
  rw [emit, hmembers, hinits, chunks, spaced_append, spaced_append, spaced_append, ← hmiddle,
    hfront]
  simp only [List.append_assoc]

/-! ### Scanning -/

lemma isPlain_memberName (n : NodeId) : (Wgsl.Token.word (memberName n)).isPlain = true := by
  have hbytes : (Bytes.ofNat n).all isWordByte = true :=
    List.all_eq_true.2 fun b hb => isWordByte_of_isDigit (Bytes.isDigit_of_mem_ofNat hb)
  rw [isPlain, show memberName n = 0x76 :: Bytes.ofNat n from rfl, List.all_cons, hbytes,
    List.head?_cons]
  decide

lemma isPlain_ofNat (n : Nat) : (Wgsl.Token.integer (Bytes.ofNat n)).isPlain = true := by
  have hne : (Bytes.ofNat n).isEmpty = false := by simpa using Bytes.ofNat_ne_nil n
  rw [isPlain, hne, List.all_eq_true.2 fun b hb => Bytes.isDigit_of_mem_ofNat hb]
  rfl

lemma fits_place (n : NodeId) {c : Chunk} (hc : fits c = true)
    (hend : (Wgsl.Token.word (memberName n)).endsBefore (chunkText c).head? = true) :
    fits (placeTokens n ++ c) = true := by
  have hmember := fits_cons (isPlain_memberName n) hend hc
  have hdot := fits_cons (show (Wgsl.Token.symbol ".").isPlain = true by decide) rfl hmember
  exact fits_cons (show (Wgsl.Token.word bufferName).isPlain = true by decide) rfl hdot

lemma fits_number (i : Int) {c : Chunk} (hc : fits (.symbol ")" :: c) = true) :
    fits (numberTokens i ++ .symbol ")" :: c) = true := by
  have hdigits := fits_cons (isPlain_ofNat i.natAbs) rfl hc
  unfold numberTokens
  split_ifs
  · -- a digit follows the sign
    obtain ⟨b, rest, hb⟩ := List.exists_cons_of_ne_nil (Bytes.ofNat_ne_nil i.natAbs)
    have hdigit : Bytes.isDigit b = true :=
      Bytes.isDigit_of_mem_ofNat (show b ∈ Bytes.ofNat i.natAbs by simp [hb])
    have hhead : (chunkText (.integer (Bytes.ofNat i.natAbs) :: .symbol ")" :: c)).head? =
        some b := by rw [chunkText_cons, text, hb]; rfl
    refine fits_cons (by decide) ?_ hdigits
    show endsBefore (chunkText (.integer _ :: .symbol ")" :: c)).head? _ = true
    rw [hhead]
    simp [endsBefore, hdigit]
  · exact hdigits

lemma fits_value (v : InitValue) : fits (valueTokens v ++ [.symbol ";"]) = true := by
  cases v with
  | const value =>
    have hnumber := fits_number value.toInt
      (show fits [.symbol ")", .symbol ";"] = true by decide)
    have hopen := fits_cons (show (Wgsl.Token.symbol "(").isPlain = true by decide) rfl hnumber
    have hword := fits_cons (show (Wgsl.Token.word "i32").isPlain = true by decide) rfl hopen
    simpa [valueTokens] using hword
  | global n => exact fits_place n (by decide) rfl

lemma fits_init (i : Init) {c : Chunk} (hc : c ∈ initChunks i) : fits c = true := by
  simp only [initChunks, List.mem_cons, List.not_mem_nil, or_false] at hc
  rcases hc with rfl | rfl | rfl
  · simpa using fits_place i.target (show fits [] = true from rfl) rfl
  · decide
  · exact fits_value i.value

lemma fits_member (g : Global) {c : Chunk} (hc : c ∈ memberChunks g) :
    fits c = true := by
  simp only [memberChunks, List.mem_cons, List.not_mem_nil, or_false] at hc
  rcases hc with rfl | rfl
  · exact fits_cons (isPlain_memberName g.node) rfl (by decide)
  · decide

lemma fits_chunks (p : Plan) {c : Chunk} (hc : c ∈ chunks p) : fits c = true := by
  have hfront : ∀ c ∈ frontChunks, fits c = true := by decide
  have hmiddle : ∀ c ∈ middleChunks, fits c = true := by decide +kernel
  simp only [chunks, List.mem_append, List.mem_flatMap] at hc
  rcases hc with ((hc | ⟨g, -, hc⟩) | hc) | ⟨i, -, hc⟩
  · exact hfront c hc
  · exact fits_member g hc
  · exact hmiddle c hc
  · exact fits_init i hc

/-- **The tokens of a shader**: those of its chunks and the last brace. -/
theorem scan_emit (p : Plan) : scan (emit p) = (chunks p).flatten ++ [.symbol "\x7d"] := by
  have hlast : scan "\x7d" = [.symbol "\x7d"] := by
    have hscan : scan (text (.symbol "\x7d") ++ []) = .symbol "\x7d" :: scan [] :=
      scan_plain (by decide) (by decide)
    rw [List.append_nil, scan] at hscan
    exact hscan
  rw [emit_eq, spaced, scan_chunks fun c hc => fits_chunks p hc, hlast]

/-! ### Reading -/

lemma isName_memberName (n : NodeId) : Reader.isName (memberName n) = true := by
  have hall : ∀ w ∈ Reader.keywords ++ Reader.typeNames, w.head? = some 0x76 →
      ∀ b ∈ w.tail.head?, Bytes.isDigit b = false := by decide +kernel
  obtain ⟨b, rest, hb⟩ := List.exists_cons_of_ne_nil (Bytes.ofNat_ne_nil n)
  have hdigit : Bytes.isDigit b = true :=
    Bytes.isDigit_of_mem_ofNat (show b ∈ Bytes.ofNat n by simp [hb])
  have hname : memberName n = 0x76 :: b :: rest := by
    rw [← hb]
    rfl
  have hnot : memberName n ∉ Reader.keywords ++ Reader.typeNames := by
    intro hmem
    rw [hname] at hmem
    exact absurd hdigit (by simp [hall _ hmem rfl b rfl])
  rw [List.mem_append, not_or] at hnot
  simpa [Reader.isName_iff] using hnot

/-- The names that every shader declares or marks something with. -/
def fixedNames : List Bytes :=
  [bufferName, structName, entryPoint, "group", "binding", "storage", "read_write", "compute",
    "workgroup_size"]

lemma isName_fixed : ∀ w ∈ fixedNames, Reader.isName w = true := by decide +kernel

lemma cellType_plain : Reader.keywords.contains (Bytes.ofString "i32") = false ∧
    Bytes.ofString "i32" ≠ "array" ∧ Bytes.ofString "i32" ≠ "ptr" := by decide +kernel

section Reading

open Reader

variable (rest : List Wgsl.Token)

lemma exec_place (n : NodeId) (hbare : Bare rest) (fuel : Nat) :
    exec (unary (fuel + 3)) (placeTokens n ++ rest) = (some (placeTree n), rest) :=
  exec_member (isName_fixed bufferName (by simp [fixedNames])) (isName_memberName n) hbare fuel

lemma exec_number (i : Int) (fuel : Nat) :
    exec (unary (fuel + 3)) (numberTokens i ++ .symbol ")" :: rest) =
      (some (numberTree i), .symbol ")" :: rest) := by
  have hbare : Bare (.symbol ")" :: rest) := bare_of_symbol (by decide) rest
  have hdigits := exec_integer (Bytes.ofNat i.natAbs) hbare
  unfold numberTokens numberTree
  split_ifs
  · exact exec_minus hdigits fuel
  · exact hdigits (fuel + 1)

lemma exec_valueTokens (v : InitValue) (fuel : Nat) :
    exec (unary (fuel + 18)) (valueTokens v ++ .symbol ";" :: rest) =
      (some (valueTree v), .symbol ";" :: rest) := by
  have hbare : Bare (.symbol ";" :: rest) := bare_of_symbol (by decide) rest
  cases v with
  | const value =>
    have hnumber := exec_number (.symbol ";" :: rest) value.toInt
    have hhead : (numberTokens value.toInt ++ .symbol ")" :: .symbol ";" :: rest).head? ≠
        some (.symbol ")") := by
      unfold numberTokens
      split_ifs <;> simp +decide
    have hne : numberTokens value.toInt ++ .symbol ")" :: .symbol ";" :: rest ≠ [] := by simp
    have htokens : valueTokens (.const value) ++ .symbol ";" :: rest = .word "i32" ::
        .symbol "(" :: (numberTokens value.toInt ++ .symbol ")" :: .symbol ";" :: rest) := by
      simp [valueTokens]
    rw [htokens]
    exact exec_convert hnumber hne hhead hbare fuel
  | global n => exact exec_place (.symbol ";" :: rest) n hbare (fuel + 15)

lemma exec_init (i : Init) (fuel : Nat) :
    exec (statement (fuel + 34)) ((initChunks i).flatten ++ rest) = (some (initTree i), rest) := by
  have hbuffer := isName_fixed bufferName (by simp [fixedNames])
  have hassign := exec_assign hbuffer (isName_memberName i.target)
    (exec_valueTokens rest i.value) fuel
  have htokens : (initChunks i).flatten ++ rest = .word bufferName :: .symbol "." ::
      .word (memberName i.target) :: .symbol "=" ::
        (valueTokens i.value ++ .symbol ";" :: rest) := by
    simp [initChunks, placeTokens]
  rw [htokens, exec_statement hbuffer]
  exact hassign

lemma exec_inits (inits : List Init) (fuel : Nat) :
    exec (statements (fuel + inits.length + 35))
      ((inits.flatMap initChunks).flatten ++ .symbol "\x7d" :: rest) =
      (some (inits.map initTree), rest) := by
  induction inits with
  | nil => exact exec_statements_nil (fuel + 34)
  | cons i inits ih =>
    have hinit := exec_init ((inits.flatMap initChunks).flatten ++ .symbol "\x7d" :: rest) i
      (fuel + inits.length + 1)
    rw [List.flatMap_cons, List.flatten_append, List.append_assoc]
    exact exec_statements_cons (by simp [initChunks, placeTokens]) hinit ih

lemma exec_globals (globals : List Global) (fuel : Nat) :
    exec (members (fuel + globals.length + 1))
      ((globals.flatMap memberChunks).flatten ++ .symbol "\x7d" :: rest) =
      (some (globals.map fun g => ⟨[], memberName g.node, .named "i32" []⟩), rest) := by
  induction globals with
  | nil => exact exec_members_nil fuel
  | cons g globals ih =>
    rw [List.flatMap_cons, List.flatten_append, List.append_assoc]
    exact exec_members_cons (by simp [memberChunks])
      (exec_field (isName_memberName g.node) cellType_plain.1 cellType_plain.2.1 cellType_plain.2.2
        (by simp +decide) (fuel + globals.length)) ih

lemma exec_buffer (fuel : Nat) :
    exec (declaration (fuel + 17)) (bufferChunks.flatten ++ rest) =
      (some (some (.variable ⟨[attributeTree "group" [0], attributeTree "binding" [0]], bufferName,
        some (.named structName []), none⟩)), rest) := by
  have hbinding := fun ts => exec_attributes_values (isName_fixed "binding" (by simp [fixedNames]))
    (exec_attributeValues_single "0" _ fuel) (exec_attributes_word "var" ts (fuel + 14))
  have hgroup := fun ts => exec_attributes_values (isName_fixed "group" (by simp [fixedNames]))
    (exec_attributeValues_single "0" _ (fuel + 1)) (hbinding ts)
  have hstruct := (isName_iff.1 (isName_fixed structName (by simp [fixedNames]))).1
  exact exec_variable (isName_fixed _ (by simp [fixedNames]))
    (isName_fixed _ (by simp [fixedNames])) (isName_fixed _ (by simp [fixedNames])) hstruct
    (by decide) (by decide) (hgroup _)

lemma exec_entry (inits : List Init) (fuel : Nat) :
    exec (declaration (fuel + inits.length + 36)) (entryChunks.flatten ++
        ((inits.flatMap initChunks).flatten ++ .symbol "\x7d" :: rest)) =
      (some (some (.function
        ⟨[attributeTree "compute" [], attributeTree "workgroup_size" [1, 1, 1]],
          entryPoint, [], none, inits.map initTree⟩)), rest) := by
  have hvalues := fun ts => exec_attributeValues_cons "1" (exec_attributeValues_cons "1"
    (exec_attributeValues_single "1" ts (fuel + inits.length + 17)))
  have hsize := fun ts => exec_attributes_values
    (isName_fixed "workgroup_size" (by simp [fixedNames])) (hvalues _)
    (exec_attributes_word "fn" ts (fuel + inits.length + 33))
  have hcompute := fun ts => exec_attributes_cons (isName_fixed "compute" (by simp [fixedNames]))
    (by simp +decide) (hsize ts)
  exact exec_function (isName_fixed _ (by simp [fixedNames])) (exec_inits rest inits fuel) _
    (hcompute _)

/-- **The tokens of a shader** read as its tree. -/
lemma exec_chunks (p : Plan) (fuel : Nat) :
    exec (declarations (fuel + p.globals.length + p.inits.length + 40))
        ((chunks p).flatten ++ [.symbol "\x7d"]) = (some (tree p).declarations, []) := by
  have htokens : (chunks p).flatten ++ [.symbol "\x7d"] = .word "struct" :: .word structName ::
      .symbol "\x7b" :: ((p.globals.flatMap memberChunks).flatten ++ .symbol "\x7d" ::
        (bufferChunks.flatten ++ (entryChunks.flatten ++
          ((p.inits.flatMap initChunks).flatten ++ [.symbol "\x7d"])))) := by
    simp [chunks, frontChunks, middleChunks]
  have hentry := exec_entry [] p.inits (fuel + p.globals.length + 1)
  have hbuffer := exec_buffer
    (entryChunks.flatten ++ ((p.inits.flatMap initChunks).flatten ++ [.symbol "\x7d"]))
    (fuel + p.globals.length + p.inits.length + 21)
  have hstruct := exec_struct (isName_fixed structName (by simp [fixedNames]))
    (exec_globals (bufferChunks.flatten ++ (entryChunks.flatten ++
      ((p.inits.flatMap initChunks).flatten ++ [.symbol "\x7d"]))) p.globals
      (fuel + p.inits.length + 38))
  rw [show fuel + p.globals.length + 1 + p.inits.length + 36 =
    fuel + p.globals.length + p.inits.length + 37 by omega] at hentry
  rw [show fuel + p.inits.length + 38 + p.globals.length + 1 =
    fuel + p.globals.length + p.inits.length + 39 by omega] at hstruct
  rw [htokens]
  refine exec_declarations_cons (by simp) hstruct ?_
  refine exec_declarations_cons (by simp [bufferChunks]) hbuffer ?_
  exact exec_declarations_cons (by simp [entryChunks]) hentry (exec_declarations_nil _)

end Reading

lemma length_chunks (p : Plan) :
    p.globals.length + p.inits.length ≤ (chunks p).flatten.length := by
  have hmembers : p.globals.length ≤ (p.globals.flatMap memberChunks).flatten.length := by
    induction p.globals with
    | nil => exact Nat.zero_le _
    | cons g globals ih =>
      rw [List.flatMap_cons, List.flatten_append, List.length_append, List.length_cons]
      have : (memberChunks g).flatten.length = 4 := rfl
      omega
  have hinits : p.inits.length ≤ (p.inits.flatMap initChunks).flatten.length := by
    induction p.inits with
    | nil => exact Nat.zero_le _
    | cons i inits ih =>
      have hone : 1 ≤ (initChunks i).flatten.length := by simp [initChunks, placeTokens]
      rw [List.flatMap_cons, List.flatten_append, List.length_append, List.length_cons]
      omega
  simp only [chunks, List.flatten_append, List.length_append]
  omega

/-- **A shader reads as the tree that it denotes**, whatever its plan. -/
theorem ofText?_emit (p : Plan) : ModuleTree.ofText? (emit p) = some (tree p) := by
  have hlength := length_chunks p
  obtain ⟨fuel, hfuel⟩ : ∃ fuel,
      20 * (((chunks p).flatten ++ [Wgsl.Token.symbol "\x7d"]).length + 2) =
        p.globals.length + p.inits.length + 40 + fuel := by
    rw [List.length_append]
    exact Nat.exists_eq_add_of_le (by omega)
  have hread := exec_chunks p fuel
  rw [show fuel + p.globals.length + p.inits.length + 40 =
    p.globals.length + p.inits.length + 40 + fuel by omega, ← hfuel] at hread
  rw [ModuleTree.ofText?, scan_emit]
  exact congrArg (fun x : Option _ × List Wgsl.Token => x.1.map ModuleTree.mk) hread

end Shader

end StateBuffer
