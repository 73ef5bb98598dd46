import StateBuffer.Data.Json
import StateBuffer.Diagnostic.Bag
import StateBuffer.Source.Set
import StateBuffer.Text.Ansi
import StateBuffer.Text.Quoted

/-!
The three written forms of diagnostics: one line each with its notes, the same with the source
line and a caret below it, and JSON for tools.
-/

namespace StateBuffer

namespace Diagnostic

/-- The file of a span and the position of its start; nothing without files, or when the span lies
in none of them. -/
def locate (sources : Option SourceSet) (span : Span) : Option (SourceFile × Position) := do
  let set ← sources
  let file ← set.get? span.file
  return (file, file.position span.start)

def placeText (file : SourceFile) (p : Position) : Bytes :=
  file.path ++ ":" ++ Bytes.ofNat p.line.toNat ++ ":" ++ Bytes.ofNat p.column.toNat

def severityLabel (s : Severity) (colored : Bool) : Bytes :=
  match s with
  | .error => Style.boldRed.apply colored s.name
  | .warning => Style.boldYellow.apply colored s.name
  | _ => Style.cyan.apply colored s.name

def lineText (sources : Option SourceSet) (colored : Bool) (s : Severity) (message : Bytes)
    (span : Span) : Bytes :=
  let place := match locate sources span with
    | some (file, p) => " " ++ Style.faint.apply colored ("(at " ++ placeText file p ++ ")")
    | none => []
  severityLabel s colored ++ ": " ++ message ++ place ++ "\n"

def notesText (sources : Option SourceSet) (colored : Bool) (d : Diagnostic) : Bytes :=
  d.notes.flatMap fun n => "  --> " ++ lineText sources colored n.severity n.message n.span

/-- The display form: the diagnostic and its notes, a line each. -/
def display (sources : Option SourceSet) (colored : Bool) (d : Diagnostic) : Bytes :=
  lineText sources colored d.severity d.message d.span ++ notesText sources colored d

/-- The source line of a span with a caret and tildes under the span; nothing for an empty line. -/
def context (sources : Option SourceSet) (span : Span) : Bytes :=
  match locate sources span with
  | none => []
  | some (file, start) =>
    let stop := file.position span.stop
    let line := file.line start.line.toNat
    if line.isEmpty then []
    else
      let gutter := Bytes.padLeft 4 (Bytes.ofNat start.line.toNat) ++ " | "
      let width := if stop.line = start.line ∧ start.column < stop.column
        then (stop.column - start.column).toNat else 1
      gutter ++ line ++ "\n" ++ Bytes.spaces (gutter.length + start.column.toNat - 1) ++ "^"
        ++ List.replicate (width - 1) (Bytes.byte '~') ++ "\n"

end Diagnostic

namespace Bag

/-- How many diagnostics are not shown, if any. -/
def droppedText (b : Bag) : Bytes :=
  if b.dropped = 0 then []
  else "... " ++ Bytes.ofNat b.dropped ++ " more diagnostics not shown\n"

def display (b : Bag) (sources : Option SourceSet) (colored : Bool) : Bytes :=
  b.items.flatMap (Diagnostic.display sources colored)

/-- All diagnostics with source lines and notes as asked for, and the number of those left out. -/
def pretty (b : Bag) (sources : Option SourceSet) (colored notes context : Bool) : Bytes :=
  (b.items.flatMap fun d =>
    Diagnostic.lineText sources colored d.severity d.message d.span
      ++ (if context then Diagnostic.context sources d.span else [])
      ++ (if notes then Diagnostic.notesText sources colored d else []))
    ++ b.droppedText

/-- A number as a JSON member; zero has none. -/
def numberMember (key : String) (n : UInt32) : List (Bytes × Json) :=
  if n = 0 then [] else [Json.entry key (Json.ofNat n.toNat)]

/-- The place of a span as a JSON member, if it has one. -/
def placeMember (sources : Option SourceSet) (positions : Bool) (span : Span) :
    List (Bytes × Json) :=
  match Diagnostic.locate sources span with
  | none => []
  | some (file, p) =>
    let bytes := [Json.entry "file" (.string file.path),
      Json.entry "start_byte" (Json.ofNat span.start.toNat),
      Json.entry "end_byte" (Json.ofNat span.stop.toNat)]
    let lines := if positions then
      numberMember "start_line" p.line ++ numberMember "start_col" p.column else []
    [Json.entry "location" (.object (bytes ++ lines))]

def noteJson (sources : Option SourceSet) (positions : Bool) (n : Note) : Json :=
  .object ([Json.entry "severity" (.string n.severity.name),
    Json.entry "message" (.string n.message)] ++ placeMember sources positions n.span)

def diagnosticJson (sources : Option SourceSet) (positions notes : Bool) (d : Diagnostic) : Json :=
  let noteList := if notes && !d.notes.isEmpty
    then [Json.entry "notes" (.array (d.notes.map (noteJson sources positions)))] else []
  .object ([Json.entry "severity" (.string d.severity.name),
    Json.entry "code" (.string d.code.id), Json.entry "message" (.string d.message)]
    ++ placeMember sources positions d.span ++ noteList)

/-- The JSON form of at most `most` diagnostics (all of them unless `most` is positive), with the
counts of all. -/
def json (b : Bag) (sources : Option SourceSet) (positions notes : Bool) (most : Int) : Bytes :=
  let shown := if 0 < most then b.items.take most.toNat else b.items
  Json.document (.object
    [Json.entry "diagnostics" (.array (shown.map (diagnosticJson sources positions notes))),
      Json.entry "count" (Json.ofNat shown.length),
      Json.entry "errors" (Json.ofNat (b.count .error)),
      Json.entry "warnings" (Json.ofNat (b.count .warning))])

end Bag

end StateBuffer
