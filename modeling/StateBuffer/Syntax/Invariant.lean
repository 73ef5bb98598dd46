import StateBuffer.Syntax.Tree

/-!
A check on the places recorded in a tree. In a module read from a text, item spans are not empty,
lie in the text and follow one another; the spans of an item's parts lie inside it, a value after
its name; and node numbers grow in source order.
-/

namespace StateBuffer

inductive SpanFault where
  | noItem (id : ItemId)
  | wrongFile (found expected : FileId)
  | badSpan (span : Span) (size : Nat)
  | overlap (span : Span) (previousStop : UInt32)
  | segmentOutside (segment item : Span)
  | nodeDoesNotGrow (node : NodeId) (previous : Int)
  | definitionOutside (item : Span)
  | noValue (item : Span)
  | valueMisplaced (value item : Span)
  deriving DecidableEq, Repr

def SpanFault.message : SpanFault → Bytes
  | .noItem id => "nil item for id=" ++ Bytes.ofNat id
  | .wrongFile found expected =>
    "item span file mismatch: got=" ++ Bytes.ofNat found ++ " want=" ++ Bytes.ofNat expected
  | .badSpan span size =>
    "bad item span " ++ span.text ++ " (content " ++ Bytes.ofNat size ++ " bytes)"
  | .overlap span stop =>
    "item span " ++ span.text ++ " overlaps previous item ending at " ++ Bytes.ofNat stop.toNat
  | .segmentOutside segment item =>
    "import segment " ++ segment.text ++ " outside item " ++ item.text
  | .nodeDoesNotGrow node previous =>
    "node id " ++ Bytes.ofNat node ++ " does not grow (previous " ++ Bytes.ofInt previous ++ ")"
  | .definitionOutside item => "definition spans outside item " ++ item.text
  | .noValue item => "definition at " ++ item.text ++ " has no value"
  | .valueMisplaced value item =>
    "value span " ++ value.text ++ " misplaced in item " ++ item.text

namespace Tree

/-- The last node number must be smaller than the next one. -/
def checkNode (last : Int) (node : NodeId) : Except SpanFault Int :=
  if (node : Int) ≤ last then .error (.nodeDoesNotGrow node last) else .ok node

/-- Checks the parts of an item that spans `item`, and gives its last node number. -/
def checkBody (t : Tree) (item : Span) (last : Int) : ItemBody → Except SpanFault Int
  | .imports i =>
    match i.segments.find? fun s => !s.span.inside item with
    | some s => .error (.segmentOutside s.span item)
    | none => checkNode last i.node
  | .definition d =>
    if !(d.keywordSpan.inside item && d.nameSpan.inside item) then .error (.definitionOutside item)
    else do
      let last ← checkNode last d.node
      match t.expr? d.value with
      | none => .error (.noValue item)
      | some e =>
        if !e.span.inside item || e.span.start < d.nameSpan.stop then
          .error (.valueMisplaced e.span item)
        else checkNode last e.node

/-- Checks items in order, after one that ended at `previousStop` with node number `last`. -/
def checkItems (t : Tree) (file : FileId) (size : Nat) (previousStop : UInt32) (last : Int) :
    List ItemId → Except SpanFault Unit
  | [] => .ok ()
  | id :: ids =>
    match t.item? id with
    | none => .error (.noItem id)
    | some item =>
      let span := item.span
      if span.file ≠ file then .error (.wrongFile span.file file)
      else if span.stop ≤ span.start ∨ size < span.stop.toNat then .error (.badSpan span size)
      else if span.start < previousStop then .error (.overlap span previousStop)
      else do
        let last ← t.checkBody span last item.body
        t.checkItems file size span.stop last ids

/-- Checks the module of a file with a text of `size` bytes. -/
def checkSpans (t : Tree) (file : FileId) (size : Nat) : Except SpanFault Unit :=
  let items := ((t.modules[file - 1]?).map Module.items).getD []
  t.checkItems file size 0 (-1) items

end Tree

end StateBuffer
