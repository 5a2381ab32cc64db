import RecordMapping.Value.Description
import RecordMapping.Text.Blank
/-!
Coercion of values to a declared kind. Nothing is lost on the way: a number becomes an equal
number, a text the value that it denotes, and a list is coerced item by item.
-/
namespace RecordMapping

open RecordMapping.Number RecordMapping.Text

structure CoercionError where
  origin : ValueKind
  wanted : ValueKind
  value : String
deriving DecidableEq

def CoercionError.message (e : CoercionError) : String :=
  "cannot coerce " ++ e.origin.name ++ " value '" ++ e.value ++ "' to " ++ e.wanted.name

namespace Value

/-- Reads the scalar of a given kind that a text denotes, blanks around it aside. -/
def ofText? (s : String) : ValueKind → Option Value
  | .int => (Text.integer? (trim s.toList)).bind int?
  | .uint => (Text.unsigned? (trim s.toList)).bind fun n => uint? n
  | .float => (Binary64.ofText? (trim s.toList)).map .float
  | .bool =>
    if trim s.toList = "true".toList then some (.bool true)
    else if trim s.toList = "false".toList then some (.bool false)
    else none
  | .blob => some (.blob s.toUTF8.data.toList)
  | _ => none

/-- The value of a scalar kind that is equal to a value of another kind. -/
def convert? (v : Value) : ValueKind → Option Value
  | .list => some (.list [v])
  | kind =>
    match v, kind with
    | .int n, .uint => uint? n.toInt
    | .int n, .float => some (.float (.ofInt n.toInt))
    | .uint n, .int => int? n.toNat
    | .uint n, .float => some (.float (.ofInt n.toNat))
    | .float x, .int => x.integer?.bind int?
    | .float x, .uint => x.integer?.bind uint?
    | .bool b, .int => some (.int (if b then 1 else 0))
    | .bool b, .uint => some (.uint (if b then 1 else 0))
    | .text s, kind => ofText? s kind
    | .int _, .text | .uint _, .text | .float _, .text | .bool _, .text =>
      some (.text v.plainText)
    | _, _ => none

mutual

/-- The value of the given kind that is equal to this one. A `null` stays as it is, and a list
aimed at another kind is coerced item by item. -/
def coerce (kind : ValueKind) : Value → Except CoercionError Value
  | .null => .ok .null
  | .list items =>
    if kind = .list then .ok (.list items)
    else (coerceItems kind items).map .list
  | v =>
    match v.kind? with
    | none => .ok v
    | some origin =>
      if origin = kind then .ok v
      else match v.convert? kind with
        | some w => .ok w
        | none => .error ⟨origin, kind, v.plainText⟩

def coerceItems (kind : ValueKind) : List Value → Except CoercionError (List Value)
  | [] => .ok []
  | v :: rest =>
    match coerce kind v with
    | .error e => .error e
    | .ok w => (coerceItems kind rest).map (w :: ·)

end

end Value
end RecordMapping
