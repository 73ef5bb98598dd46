import StateBuffer.Resolution.Basic

/-!
Values known at compile time: literals that fit, and constants whose references lead through
constants to such a literal. Values of constants are remembered in a cache.
-/

namespace StateBuffer

/-- The values of constants worked out so far; `none` for a constant without a value. -/
abbrev ConstantCache := List (ItemId × Option Int32)

namespace Resolution

/-- Follows a constant for at most `fuel` steps; `visiting` lists the constants on the way. -/
def foldConstant (r : Resolution) :
    Nat → List ItemId → ItemId → ConstantCache → Option Int32 × ConstantCache
  | 0, _, _, cache => (none, cache)
  | fuel + 1, visiting, item, cache =>
    match cache.find? fun entry => entry.1 = item with
    | some (_, value) => (value, cache)
    | none =>
      match r.tree.definition? item with
      | none => (none, cache)
      | some d =>
        if d.definition.kind ≠ .const ∨ item ∈ visiting then (none, cache)
        else
          let found := (r.tree.expr? d.definition.value).map fun e => (e.node, e.body)
          let (value, cache) := match found with
            | none => (none, cache)
            | some (_, .literal digits) => (Literal.value? digits, cache)
            | some (node, .name _) =>
              match r.binding? node with
              | none => (none, cache)
              | some b =>
                if b.target.definition.kind ≠ .const then (none, cache)
                else r.foldConstant fuel (item :: visiting) b.target.item cache
          (value, (item, value) :: cache)

def constant (r : Resolution) (item : ItemId) (cache : ConstantCache) :
    Option Int32 × ConstantCache :=
  r.foldConstant (r.tree.items.size + 1) [] item cache

def exprValue (r : Resolution) (e : Expr) (cache : ConstantCache) : Option Int32 × ConstantCache :=
  match e.body with
  | .literal digits => (Literal.value? digits, cache)
  | .name _ =>
    match r.binding? e.node with
    | none => (none, cache)
    | some b =>
      if b.target.definition.kind ≠ .const then (none, cache) else r.constant b.target.item cache

end Resolution

end StateBuffer
