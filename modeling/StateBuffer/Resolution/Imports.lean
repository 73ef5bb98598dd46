import StateBuffer.Source.Set
import StateBuffer.Syntax.Tree

/-!
Imports between files. Each import is an edge to the file with the dot path it names, if there is
one. Once all edges are known, every file has a list of the files it can see: itself, the targets
of its imports with the latest import first, and then breadth first whatever those files import
publicly.
-/

namespace StateBuffer

structure ImportEdge where
  item : ItemId
  file : FileId
  isPublic : Bool
  /-- The imported file; `none` if no file has the dot path. -/
  target : Option FileId
  /-- The path as it is written. -/
  dotPath : Bytes
  /-- The path of the file that was looked for. -/
  triedPath : Bytes
  used : Bool
  deriving DecidableEq, Repr, Inhabited

def ImportEdge.isSelfImport (e : ImportEdge) : Bool := e.target = some e.file

/-- A visible file, and the import of the looking file that made it so. -/
structure Reach where
  file : FileId
  via : Option ItemId
  deriving DecidableEq, Repr, Inhabited

/-- The edges by item, which items each file imports in order, and the visible files of every file
once they are known. -/
structure ImportIndex where
  edges : List ImportEdge
  direct : List (FileId × ItemId)
  reach : Option (List (FileId × List Reach))
  deriving Inhabited

namespace ImportIndex

def empty : ImportIndex := ⟨[], [], none⟩

def edge? (x : ImportIndex) (item : ItemId) : Option ImportEdge :=
  x.edges.find? fun e => e.item = item

def edgesOf (x : ImportIndex) (file : FileId) : List ImportEdge :=
  (x.direct.filter fun d => d.1 = file).filterMap fun d => x.edge? d.2

/-- The components of an import path after its tildes. -/
def namesOf (segments : List Segment) : List Bytes := segments.map Segment.text

/-- How many tildes lead an import path, and the components after them. -/
def splitPath : List Segment → Nat × List Bytes
  | .parent _ :: rest =>
    let (up, names) := splitPath rest
    (up + 1, names)
  | rest => (0, namesOf rest)

/-- The directory an import path starts from: how many levels above the root, and the components
below it. A path without tildes starts at the root; each tilde drops one component of the importing
file's own dot path, and then goes up. -/
def startOf (dotPath : Bytes) (up : Nat) : Nat × List Bytes :=
  if up = 0 then (0, [])
  else
    let parts := Bytes.split 0x2E dotPath
    (up - parts.length, parts.take (parts.length - up))

def triedPath (root : Bytes) (above : Nat) (parts : List Bytes) : Bytes :=
  let steps := List.replicate above (".." : Bytes) ++ parts
  let steps := if root.isEmpty then steps else Bytes.trimEndOf Path.separator root :: steps
  Bytes.join [Path.separator] steps ++ ".gpex"

/-- The target of an import and the path that was tried. -/
def resolve (sources : SourceSet) (root : Bytes) (file : FileId) (i : Import) :
    Except Fault (Option FileId × Bytes) := do
  let (up, names) := splitPath i.segments
  let (above, start) ←
    if up = 0 then pure (0, [])
    else do
      let f ← sources.get file
      pure (startOf f.dotPath up)
  let parts := start ++ names
  let target := if 0 < above then none else sources.find? (Bytes.join "." parts)
  return (target, triedPath root above parts)

def register (x : ImportIndex) (sources : SourceSet) (tree : Tree) (root : Bytes) (file : FileId)
    (item : ItemId) : Except Fault (ImportEdge × ImportIndex) :=
  if x.reach.isSome then .error .importAfterConsolidation
  else
    match tree.importOf? item with
    | none => .error .notAnImport
    | some i => do
      let (target, tried) ← resolve sources root file i
      let edge : ImportEdge := ⟨item, file, i.isPublic, target, i.dotPath, tried, false⟩
      let others := x.edges.filter fun e => e.item ≠ item
      return (edge, { x with edges := others ++ [edge], direct := x.direct ++ [(file, item)] })

/-- Appends the targets of edges that are not yet in the list. -/
def addTargets (via : ImportEdge → Option ItemId) (edges : List ImportEdge)
    (reached : List Reach) : List Reach :=
  edges.foldl
    (fun reached e => match e.target with
      | none => reached
      | some file =>
        if reached.any fun r => r.file = file then reached else reached ++ [⟨file, via e⟩])
    reached

def publicEdges (x : ImportIndex) (file : FileId) : List ImportEdge :=
  ((x.edgesOf file).filter ImportEdge.isPublic).reverse

/-- Follows public imports from the entry number `next` on, for at most `fuel` entries. -/
def grow (x : ImportIndex) : Nat → Nat → List Reach → List Reach
  | 0, _, reached => reached
  | fuel + 1, next, reached =>
    match reached[next]? with
    | none => reached
    | some r => x.grow fuel (next + 1) (addTargets (fun _ => r.via) (x.publicEdges r.file) reached)

/-- The files visible from a file in order of priority. Every entry but the first is the target of
an edge, so as many steps as there are edges see them all. -/
def visibleFrom (x : ImportIndex) (file : FileId) : List Reach :=
  x.grow (x.edges.length + 1) 1
    (addTargets (fun e => some e.item) (x.edgesOf file).reverse [⟨file, none⟩])

/-- Computes the visible files of all files, once. -/
def consolidate (x : ImportIndex) (sources : SourceSet) : ImportIndex :=
  match x.reach with
  | some _ => x
  | none => { x with reach := some (sources.ids.map fun file => (file, x.visibleFrom file)) }

def reachable (x : ImportIndex) (file : FileId) : Except Fault (List Reach) :=
  match x.reach with
  | none => .error .notConsolidated
  | some table => .ok (((table.find? fun entry => entry.1 = file).map Prod.snd).getD [])

/-- The files visible from a file; none before they are known. -/
def visible (x : ImportIndex) (file : FileId) : List Reach :=
  match x.reachable file with
  | .ok reached => reached
  | .error _ => []

/-- Takes note that something came through an import. -/
def markUsed (x : ImportIndex) (item : ItemId) : ImportIndex :=
  { x with edges := x.edges.map fun e => if e.item = item then { e with used := true } else e }

end ImportIndex

end StateBuffer
