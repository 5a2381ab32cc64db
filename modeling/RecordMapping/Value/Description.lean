import RecordMapping.Value.Basic
import RecordMapping.Number.Decimal
import RecordMapping.Text.Quoted
/-!
The texts of values in messages: scalars as they are, and everything else with the kind around
its content.
-/
namespace RecordMapping.Value

open RecordMapping.Number RecordMapping.Text

def boolText (b : Bool) : String :=
  if b then "true" else "false"

private def around (kind content : String) : String :=
  kind ++ "(" ++ content ++ ")"

private def bracketed (items : List String) : String :=
  "[" ++ String.intercalate ", " items ++ "]"

mutual

def describe : Value → String
  | .blob bytes => around "Blob" (bracketed (bytes.map fun b => showNat b.toNat))
  | .bool b => around "Bool" (boolText b)
  | .float x => around "Float" (x.write .detailed)
  | .int n => around "Int" (showInt n.toInt)
  | .list items => around "List" (bracketed (describeItems items))
  | .null => "Null"
  | .record attributes => around "Record" (bracketed (describeAttributes attributes))
  | .text s => around "Text" (quoted s)
  | .uint n => around "Uint" (showNat n.toNat)

def describeItems : List Value → List String
  | [] => []
  | v :: rest => describe v :: describeItems rest

def describeAttributes : List (Named Value) → List String
  | [] => []
  | ⟨name, v⟩ :: rest =>
    ("Attribute \x7b name: " ++ quoted name ++ ", value: " ++ describe v ++ " \x7d") ::
      describeAttributes rest

end

def plainText : Value → String
  | .bool b => boolText b
  | .float x => x.write .plain
  | .int n => showInt n.toInt
  | .text s => s
  | .uint n => showNat n.toNat
  | v => describe v

end RecordMapping.Value
