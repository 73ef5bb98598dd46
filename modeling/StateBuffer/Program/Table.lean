import StateBuffer.Program.Basic
import StateBuffer.Text.Columns

/-!
The layout of a state buffer as a table, one line a field in the order of offsets, with the values
of the fields if they are known.
-/

namespace StateBuffer

namespace Program

/-- Drops the spaces at the end of a line and ends it. -/
def tableLine (s : Bytes) : Bytes := Bytes.trimEndOf 0x20 s ++ "\n"

def valueCell (values : Option (List (Bytes × Int32))) (key : Bytes) : Bytes :=
  match values with
  | none => []
  | some known => "  " ++ match known.find? fun v => v.1 = key with
    | some (_, value) => Bytes.ofInt value.toInt
    | none => ("-" : Bytes)

def table (p : Program) (values : Option (List (Bytes × Int32))) : Bytes :=
  let rows := p.buffer.byOffset
  let width := rows.foldl (fun w r => max w (Columns.width r.1)) 5
  let head : Bytes := "OFFSET  SIZE  " ++ Columns.fillRight width "FIELD"
    ++ if values.isSome then ("  VALUE" : Bytes) else []
  let line (r : Bytes × Field) : Bytes :=
    Bytes.padLeft 6 (Bytes.ofNat r.2.offset.toNat) ++ "  "
      ++ Bytes.padLeft 4 (Bytes.ofNat r.2.size.toNat) ++ "  "
      ++ Columns.fillRight width r.1 ++ valueCell values r.1
  tableLine head ++ rows.flatMap (fun r => tableLine (line r))
    ++ Bytes.ofNat rows.length ++ " field(s), " ++ Bytes.ofNat p.buffer.size.toNat ++ " byte(s)\n"

end Program

end StateBuffer
