import StateBuffer.Syntax.Cursor

/-!
Putting readers together: alternatives, repetition, options and scopes. An alternative or an
option that fails leaves the cursor where it was; a repetition that stops leaves it after the last
complete item.
-/

namespace StateBuffer

namespace Parser

def fail {α : Type} (e : SyntaxError) : Parser α := fun c => (.error e, c)

/-- The next free node number. -/
def freshId : Parser NodeId := fun c => (.ok c.nextId, { c with nextId := c.nextId + 1 })

/-- The open scopes, outermost first. -/
def scope : Parser Scope := fun c => (.ok c.scope, c)

/-- Takes note of a name that was read. -/
def record (name : Bytes) : Parser Unit := fun c =>
  (.ok (), { c with matched := name :: c.matched })

/-- Tries alternatives from the same place; `error` is what those before them ran into. -/
def choiceFrom {α : Type} (fallback : α) (error : Option SyntaxError) : List (Parser α) → Parser α
  | [], c => match error with
    | none => (.ok fallback, c)
    | some e => (.error e, c)
  | p :: ps, c => match p c with
    | (.ok a, c') => (.ok a, c')
    | (.error e, c') => choiceFrom fallback (SyntaxError.merge error (some e)) ps (c'.rewind c)

/-- The first alternative that succeeds. If all fail their errors merge; if there is none the
result is the fallback. -/
def choice {α : Type} (fallback : α) (alternatives : List (Parser α)) : Parser α :=
  choiceFrom fallback none alternatives

/-- The result of a reader, or nothing at all: neither a result nor a move. -/
def attempt {α : Type} (p : Parser α) : Parser (Option α) := fun c =>
  match p c with
  | (.ok a, c') => (.ok (some a), c')
  | (.error _, c') => (.ok none, c'.rewind c)

/-- Opens a scope under a fresh node number for the time of a reader. -/
def inScope {α : Type} (body : NodeId → Parser α) : Parser α := fun c =>
  let id := c.nextId
  let (result, c') := body id { c with nextId := c.nextId + 1, scope := c.scope ++ [id] }
  (result, { c' with scope := c.scope })

/-- What a repetition found: its items, the error that ended it when enough items were there, and
the error that makes it fail when they were not. -/
structure Repetition (α : Type) where
  items : List α
  deferred : Option SyntaxError
  fatal : Option SyntaxError

/-- Why a repetition found no further item. -/
inductive Stop where
  | separator (e : SyntaxError)
  | item (e : SyntaxError)

/-- A separator, if one is due, and an item. -/
def further {α : Type} (separator : Option (Parser Unit)) (item : Parser α) (c : Cursor) :
    Except Stop α × Cursor :=
  let separated : Except SyntaxError Unit × Cursor := match separator with
    | none => (.ok (), c)
    | some sep => sep c
  match separated with
  | (.error e, c) => (.error (.separator e), c)
  | (.ok _, c) => match item c with
    | (.error e, c) => (.error (.item e), c)
    | (.ok a, c) => (.ok a, c)

/-- How many items that take nothing a repetition forgives at number `index`: the first item may be
one if a separator may follow it. -/
def forgiven (separator : Option (Parser Unit)) (index : Nat) : Nat :=
  if index = 0 && separator.isSome then 1 else 0

/-- No item after the first is forgiven. -/
theorem forgiven_succ (separator : Option (Parser Unit)) (index : Nat) :
    forgiven separator (index + 1) = 0 := by simp [forgiven]

/-- Reads items from number `index` on. An item that takes nothing ends the repetition once there
are enough of them, unless it is the first and a separator may follow. -/
def manyFrom {α : Type} (least : Nat) (separator : Option (Parser Unit)) (item : Parser α)
    (index : Nat) (c : Cursor) : Repetition α × Cursor :=
  let start := c.skipTrivia
  if start.atEnd && least ≤ index then (⟨[], none, none⟩, start)
  else
    match further (if index = 0 then none else separator) item start with
    | (.error (.separator e), c') => (⟨[], some e, none⟩, c'.rewind start)
    | (.error (.item e), c') =>
      if index < least then (⟨[], none, some e⟩, c'.rewind start)
      else (⟨[], some e, none⟩, c'.rewind start)
    | (.ok a, c') =>
      if c'.rest.length + (least - (index + 1))
          < c.rest.length + (least - index) + forgiven separator index then
        let (more, c'') := manyFrom least separator item (index + 1) c'
        ({ more with items := a :: more.items }, c'')
      else (⟨[a], none, none⟩, c')
termination_by c.rest.length + (least - index) + forgiven separator index
decreasing_by rw [forgiven_succ]; assumption

/-- Reads items with separators between them, up to the end of the text or the first failure. -/
def many {α : Type} (least : Nat) (separator : Option (Parser Unit)) (item : Parser α) :
    Parser (Repetition α) := fun c =>
  let (found, c) := manyFrom least separator item 0 c
  (.ok found, c)

end Parser

end StateBuffer
