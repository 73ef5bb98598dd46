import StateBuffer.Shader.Token
import StateBuffer.Shader.Tree

/-!
Reading WGSL, as the front end `Wgsl.frontEnd` does it. Semicolons after statements, trailing
commas, and the brackets that close an argument list, a type's argument list, an index or an
attribute may be left out, and the end of the text ends a list too; the operators have their usual
precedence; a type name constructs a value, any other name before parentheses calls a function. A
reader that fails has taken the tokens before the one it cannot take, since an attribute goes on
from there when one of its values fails.
-/

namespace StateBuffer

namespace Wgsl

namespace Reader

def typeNames : List Bytes :=
  (["bool", "i32", "u32", "f32", "f16", "vec2", "vec3", "vec4", "mat2x2", "mat2x3", "mat2x4",
    "mat3x2", "mat3x3", "mat3x4", "mat4x2", "mat4x3", "mat4x4", "array", "atomic", "ptr",
    "sampler", "sampler_comparison", "texture_1d", "texture_2d", "texture_2d_array", "texture_3d",
    "texture_cube", "texture_cube_array", "texture_multisampled_2d", "texture_storage_1d",
    "texture_storage_2d", "texture_storage_2d_array", "texture_storage_3d", "texture_depth_2d",
    "texture_depth_2d_array", "texture_depth_cube", "texture_depth_cube_array",
    "texture_depth_multisampled_2d"] :
    List String).map Bytes.ofString

def keywords : List Bytes :=
  (["alias", "break", "case", "const", "const_assert", "continue", "continuing", "default",
    "diagnostic", "discard", "else", "enable", "false", "fn", "for", "if", "let", "loop",
    "override", "return", "struct", "switch", "true", "var", "while"] :
    List String).map Bytes.ofString

def isName (word : Bytes) : Bool := !keywords.contains word && !typeNames.contains word

/-- The binary operators, from loose to tight. -/
def levels : List (List Bytes) :=
  [["||"], ["&&"], ["|"], ["^"], ["&"], ["==", "!="], ["<", ">", "<=", ">="], ["<<", ">>"],
    ["+", "-"], ["*", "/", "%"]]

def unaryOperators : List Bytes := ["-", "!", "~", "&", "*"]

def assignments : List Bytes :=
  ["=", "+=", "-=", "*=", "/=", "%=", "&=", "|=", "^=", "<<=", ">>="]

/-- A reader of tokens. Also after a failure there are tokens left. -/
abbrev Reading (α : Type) := OptionT (StateM (List Token)) α

/-- The next token, which stays where it is. -/
def peek : Reading (Option Token) := return (← get).head?

def advance : Reading Unit := modify List.tail

def sees (text : Bytes) : Reading Bool := return (← peek) = some (.symbol text)

/-- Takes a token if it is next, and tells whether it was. -/
def acceptToken (token : Token) : Reading Bool := do
  if (← peek) = some token then
    advance
    return true
  else return false

/-- Takes a symbol if it is next, and tells whether it was. -/
def accept (text : Bytes) : Reading Bool := acceptToken (.symbol text)

/-- Takes a keyword if it is next, and tells whether it was. -/
def acceptWord (text : Bytes) : Reading Bool := acceptToken (.word text)

def skip (text : Bytes) : Reading Unit := do let _ ← accept text

def expect (text : Bytes) : Reading Unit := do
  if !(← accept text) then failure

/-- Does a list end here, at its closing symbol or at the end of the text? -/
def listEnds (close : Bytes) : Reading Bool := return (← sees close) || (← peek).isNone

def name? : Reading (Option Bytes) := do
  match ← peek with
  | some (.word w) =>
    if isName w then
      advance
      return some w
    else return none
  | _ => return none

def name : Reading Bytes := do
  match ← name? with
  | some w => return w
  | none => failure

/-- What a reader gives, if it does not fail; the tokens that it took stay taken either way. -/
def tried {α : Type} (p : Reading α) : Reading (Option α) := OptionT.mk (some <$> p.run)

/-- What parentheses with values make of the expression before them: a name is called, a type
constructs from these values, and any other expression stays what it is. -/
def applied : ExprTree → List ExprTree → ExprTree
  | .ident function, values => .call function values
  | .construct type _, values => .construct type values
  | base, _ => base

def isInteger : ExprTree → Bool
  | .literal .integer _ => true
  | _ => false

mutual

def type : Nat → Reading TypeTree
  | 0 => failure
  | fuel + 1 => do
    match ← peek with
    | some (.word w) =>
      if keywords.contains w then failure
      advance
      if w = "array" then
        expect "<"
        let element ← type fuel
        let isSized ← arraySize fuel
        expect ">"
        return .array element isSized
      else if w = "ptr" then
        expect "<"
        let _ ← name
        expect ","
        let target ← type fuel
        if ← accept "," then
          let _ ← name?
        expect ">"
        return .pointer target
      else if ← accept "<" then
        let arguments ← typeArguments fuel
        skip ">"
        return .named w arguments
      else return .named w []
    | _ => failure

def typeArguments : Nat → Reading (List TypeTree)
  | 0 => failure
  | fuel + 1 => do
    if ← listEnds ">" then return []
    let first ← type fuel
    if ← accept "," then return first :: (← typeArguments fuel) else return [first]

/-- The size of an array after its comma, if there is one: is it an integer? Sizes have no
operators. -/
def arraySize : Nat → Reading Bool
  | 0 => failure
  | fuel + 1 => do
    if ← accept "," then return isInteger (← primary fuel) else return false

def expression : Nat → Reading ExprTree
  | 0 => failure
  | fuel + 1 => binary fuel levels

/-- Operands joined by the operators of a level, grouped to the left. -/
def binary : Nat → List (List Bytes) → Reading ExprTree
  | 0, _ => failure
  | fuel + 1, [] => unary fuel
  | fuel + 1, operators :: tighter => do
    let left ← binary fuel tighter
    binaryRest fuel operators tighter left

/-- The further operands of a level. -/
def binaryRest : Nat → List Bytes → List (List Bytes) → ExprTree → Reading ExprTree
  | 0, _, _, _ => failure
  | fuel + 1, operators, tighter, left => do
    match ← peek with
    | some (.symbol s) =>
      if operators.contains s then
        advance
        let right ← binary fuel tighter
        binaryRest fuel operators tighter (.binary s left right)
      else return left
    | _ => return left

def unary : Nat → Reading ExprTree
  | 0 => failure
  | fuel + 1 => do
    match ← peek with
    | some (.symbol s) =>
      if unaryOperators.contains s then
        advance
        return .unary s (← unary fuel)
      else suffixes fuel (← primary fuel)
    | _ => suffixes fuel (← primary fuel)

/-- Members, indexes and values in parentheses after an operand. -/
def suffixes : Nat → ExprTree → Reading ExprTree
  | 0, _ => failure
  | fuel + 1, base => do
    if ← accept "." then
      let member ← name
      suffixes fuel (.member base member)
    else if ← accept "[" then
      let place ← expression fuel
      skip "]"
      suffixes fuel (.index base place)
    else if ← accept "(" then
      let values ← arguments fuel
      skip ")"
      suffixes fuel (applied base values)
    else return base

/-- A literal, a name, a type or an expression in parentheses. -/
def primary : Nat → Reading ExprTree
  | 0 => failure
  | fuel + 1 => do
    match ← peek with
    | some (.integer text) =>
      advance
      return .literal .integer text
    | some (.float text) =>
      advance
      return .literal .float text
    | some (.word w) =>
      if w = "true" ∨ w = "false" then
        advance
        return .literal .bool w
      else if typeNames.contains w then return .construct (← type fuel) []
      else if keywords.contains w then failure
      else
        advance
        return .ident w
    | _ =>
      expect "("
      let inner ← expression fuel
      expect ")"
      return inner

def arguments : Nat → Reading (List ExprTree)
  | 0 => failure
  | fuel + 1 => do
    if ← listEnds ")" then return []
    let first ← expression fuel
    if ← accept "," then return first :: (← arguments fuel) else return [first]

end

/-- A type after a colon, if there is one. -/
def declaredType (fuel : Nat) : Reading (Option TypeTree) := do
  if ← accept ":" then return some (← type fuel) else return none

/-- A value after an equals sign, if there is one. -/
def initializer (fuel : Nat) : Reading (Option ExprTree) := do
  if ← accept "=" then return some (← expression fuel) else return none

/-- Passes the address space and the access mode of a variable; in their brackets both names and the
closing one may be missing. -/
def addressSpace : Reading Unit := do
  if ← accept "<" then
    let _ ← name?
    if ← accept "," then
      let _ ← name?
    skip ">"

/-- What follows `var`: address space, name, type and value. -/
def declaredVariable (marks : List AttributeTree) (fuel : Nat) : Reading ValueTree := do
  addressSpace
  let n ← name
  let t ← declaredType fuel
  let v ← initializer fuel
  skip ";"
  return ⟨marks, n, t, v⟩

/-- What follows the keyword of a constant: name, type and the value, which must be there. -/
def declaredConstant (marks : List AttributeTree) (fuel : Nat) : Reading ValueTree := do
  let n ← name
  let t ← declaredType fuel
  expect "="
  let v ← expression fuel
  skip ";"
  return ⟨marks, n, t, some v⟩

/-- An assignment or an expression standing alone. -/
def simple (fuel : Nat) : Reading Stmt := do
  let left ← expression fuel
  match ← peek with
  | some (.symbol s) =>
    if assignments.contains s then
      advance
      let right ← expression fuel
      skip ";"
      return .assign left s right
    else
      skip ";"
      return .expression left
  | _ => return .expression left

/-- The value after `return`, if there is one. -/
def returned (fuel : Nat) : Reading (Option ExprTree) := do
  if ← accept ";" then return none
  else if ← sees "\x7d" then return none
  else
    let v ← expression fuel
    skip ";"
    return some v

def wordOnly (s : Stmt) : Reading Stmt := do
  advance
  skip ";"
  return s

mutual

def statement : Nat → Reading Stmt
  | 0 => failure
  | fuel + 1 => do
    match ← peek with
    | some (.word w) =>
      if w = "var" then
        advance
        let v ← declaredVariable [] fuel
        return .variable v.name v.type v.value
      else if w = "let" then
        advance
        let v ← declaredConstant [] fuel
        return .variable v.name v.type v.value
      else if w = "return" then
        advance
        return .return (← returned fuel)
      else if w = "if" then
        advance
        let condition ← expression fuel
        let body ← block fuel
        return .conditional condition body (← elseBranch fuel)
      else if w = "while" then
        advance
        let condition ← expression fuel
        return .whileLoop condition (← block fuel)
      else if w = "loop" then
        advance
        return .loop (← block fuel)
      else if w = "for" then
        advance
        expect "("
        let first ← forFirst fuel
        let condition ← forCondition fuel
        let last ← forLast fuel
        return .forLoop first condition last (← block fuel)
      else if w = "break" then wordOnly .break
      else if w = "continue" then wordOnly .continue
      else if w = "discard" then wordOnly .discard
      else simple fuel
    | _ => if ← sees "\x7b" then return .block (← block fuel) else simple fuel

def block : Nat → Reading (List Stmt)
  | 0 => failure
  | fuel + 1 => do
    expect "\x7b"
    statements fuel

def statements : Nat → Reading (List Stmt)
  | 0 => failure
  | fuel + 1 => do
    if ← accept "\x7d" then return []
    let first ← statement fuel
    return first :: (← statements fuel)

/-- The branch after `else`, if there is one: another condition or a block. -/
def elseBranch : Nat → Reading (List Stmt)
  | 0 => failure
  | fuel + 1 => do
    if ← acceptWord "else" then
      if (← peek) = some (.word "if") then return [← statement fuel] else block fuel
    else return []

/-- The first step of a loop, or only its semicolon. -/
def forFirst : Nat → Reading (List Stmt)
  | 0 => failure
  | fuel + 1 => do
    if ← accept ";" then return [] else return [← statement fuel]

/-- The condition of a loop, or only its semicolon. -/
def forCondition : Nat → Reading (Option ExprTree)
  | 0 => failure
  | fuel + 1 => do
    if ← accept ";" then return none
    let v ← expression fuel
    skip ";"
    return some v

/-- The last step of a loop and the closing parenthesis. -/
def forLast : Nat → Reading (List Stmt)
  | 0 => failure
  | fuel + 1 => do
    if ← accept ")" then return []
    let s ← statement fuel
    expect ")"
    return [s]

end

def attributeValues : Nat → Reading (List ExprTree)
  | 0 => failure
  | fuel + 1 => do
    if ← listEnds ")" then return []
    match ← tried (expression fuel) with
    | none => return []
    | some first =>
      if ← accept "," then return first :: (← attributeValues fuel) else return [first]

/-- Attributes in front of a declaration. A mark without a name is passed over. -/
def attributes : Nat → Reading (List AttributeTree)
  | 0 => failure
  | fuel + 1 => do
    if !(← accept "@") then return []
    match ← name? with
    | none => attributes fuel
    | some n =>
      if ← accept "(" then
        let values ← attributeValues fuel
        skip ")"
        return ⟨n, values⟩ :: (← attributes fuel)
      else return ⟨n, []⟩ :: (← attributes fuel)

def member (fuel : Nat) : Reading Member := do
  let marks ← attributes fuel
  let n ← name
  expect ":"
  return ⟨marks, n, ← type fuel⟩

/-- The members of a struct up to the closing brace; commas between them may be left out. -/
def members : Nat → Reading (List Member)
  | 0 => failure
  | fuel + 1 => do
    if ← accept "\x7d" then return []
    let first ← member fuel
    skip ","
    return first :: (← members fuel)

/-- The parameters of a function up to the closing parenthesis. -/
def parameters : Nat → Reading (List Member)
  | 0 => failure
  | fuel + 1 => do
    if ← accept ")" then return []
    let first ← member fuel
    if ← accept "," then return first :: (← parameters fuel)
    expect ")"
    return [first]

def result (fuel : Nat) : Reading (Option ResultTree) := do
  if ← accept "->" then
    let marks ← attributes fuel
    return some ⟨marks, ← type fuel⟩
  else return none

/-- A declaration. What `enable` asks for is read over and leaves no declaration. -/
def declaration (fuel : Nat) : Reading (Option Declaration) := do
  let marks ← attributes fuel
  match ← peek with
  | some (.word w) =>
    advance
    if w = "struct" then
      let n ← name
      expect "\x7b"
      return some (.struct ⟨n, ← members fuel⟩)
    else if w = "fn" then
      let n ← name
      expect "("
      let ps ← parameters fuel
      let r ← result fuel
      return some (.function ⟨marks, n, ps, r, ← block fuel⟩)
    else if w = "var" then return some (.variable (← declaredVariable marks fuel))
    else if w = "const" ∨ w = "let" then return some (.constant (← declaredConstant marks fuel))
    else if w = "alias" then
      let n ← name
      expect "="
      let t ← type fuel
      skip ";"
      return some (.alias n t)
    else if w = "enable" then
      modify fun tokens => (tokens.dropWhile (· ≠ .symbol ";")).drop 1
      return none
    else failure
  | _ => failure

def declarations : Nat → Reading (List Declaration)
  | 0 => failure
  | fuel + 1 => do
    if (← peek).isNone then return []
    let first ← declaration fuel
    return first.toList ++ (← declarations fuel)

end Reader

/-- The module of a text; `none` if it is not in the grammar. No chain of calls takes more than
twenty steps between two tokens. -/
def ModuleTree.ofText? (s : Bytes) : Option ModuleTree :=
  let tokens := Token.scan s
  (((Reader.declarations (20 * (tokens.length + 2))).run tokens).1).map ModuleTree.mk

end Wgsl

end StateBuffer
