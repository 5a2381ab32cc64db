import RecordMapping.Value.Basic
/-!
The types of plain fields, what a field of each type holds, and how that is written to a value and
read from one.
-/
namespace RecordMapping

open RecordMapping.Number

inductive Width where
  | w8
  | w16
  | w32
  | w64
deriving DecidableEq

def Width.bits : Width → Nat
  | .w8 => 8
  | .w16 => 16
  | .w32 => 32
  | .w64 => 64

inductive IntType where
  | signed (w : Width)
  | unsigned (w : Width)
deriving DecidableEq

namespace IntType

def low : IntType → Int
  | signed w => -(Nat.pow 2 (w.bits - 1) : Int)
  | unsigned _ => 0

def high : IntType → Int
  | signed w => (Nat.pow 2 (w.bits - 1) : Int) - 1
  | unsigned w => (Nat.pow 2 w.bits : Int) - 1

def Carrier (t : IntType) : Type :=
  { n : Int // t.low ≤ n ∧ n ≤ t.high }

instance (t : IntType) : DecidableEq t.Carrier :=
  inferInstanceAs (DecidableEq { n : Int // t.low ≤ n ∧ n ≤ t.high })

def ofInt? (t : IntType) (n : Int) : Option t.Carrier :=
  if h : t.low ≤ n ∧ n ≤ t.high then some ⟨n, h⟩ else none

def zero (t : IntType) : t.Carrier :=
  ⟨0, by cases t with | signed w | unsigned w => cases w <;> decide⟩

def toValue : (t : IntType) → t.Carrier → Value
  | signed _, n => .int (Int64.ofInt n.val)
  | unsigned _, n => .uint (UInt64.ofNat n.val.toNat)

end IntType

inductive DataType where
  | int (t : IntType)
  | single
  | double
  | bool
  | text
  | value
  | option (t : DataType)
  | list (t : DataType)
deriving DecidableEq

namespace DataType

def Carrier : DataType → Type
  | int t => t.Carrier
  | single => Binary32
  | double => Binary64
  | bool => Bool
  | text => String
  | value => Value
  | option t => Option t.Carrier
  | list t => List t.Carrier

def blank : (t : DataType) → t.Carrier
  | int t => t.zero
  | single => Binary32.ofInt 0
  | double => Binary64.ofInt 0
  | bool => false
  | text => ""
  | value => Value.null
  | option t => (none : Option t.Carrier)
  | list t => ([] : List t.Carrier)

def valueKind : DataType → Option ValueKind
  | int (.signed _) => some .int
  | int (.unsigned _) => some .uint
  | single | double => some .float
  | bool => some .bool
  | text => some .text
  | value => none
  | option t => t.valueKind
  | list _ => some .list

def writeOption {α : Type} (write : α → Value) : Option α → Value
  | none => .null
  | some x => write x

def writeList {α : Type} (write : α → Value) (xs : List α) : Value :=
  .list (xs.map write)

def toValue : (t : DataType) → t.Carrier → Value
  | int t, n => t.toValue n
  | single, x => .float (Binary32.toDouble x)
  | double, x => .float x
  | bool, b => .bool b
  | text, s => .text s
  | value, v => v
  | option t, o => writeOption t.toValue o
  | list t, xs => writeList t.toValue xs

def integerPart? : Value → Option Int
  | .int n => some n.toInt
  | .uint n => some n.toNat
  | .float x => x.truncate?
  | _ => none

def readAll {α : Type} (read : Value → Option α) : List Value → Option (List α)
  | [] => some []
  | v :: rest =>
    match read v, readAll read rest with
    | some x, some xs => some (x :: xs)
    | _, _ => none

def single? : Value → Option Binary32
  | .int n => some (Binary32.ofInt n.toInt)
  | .uint n => some (Binary32.ofInt n.toNat)
  | .float x => some (Binary32.ofDouble x)
  | _ => none

def double? : Value → Option Binary64
  | .int n => some (Binary64.ofInt n.toInt)
  | .uint n => some (Binary64.ofInt n.toNat)
  | .float x => some x
  | _ => none

def bool? : Value → Option Bool
  | .bool b => some b
  | _ => none

def readOption {α : Type} (read : Value → Option α) : Value → Option (Option α)
  | .null => some none
  | v => (read v).map some

def readList {α : Type} (read : Value → Option α) : Value → Option (List α)
  | .list items => readAll read items
  | .null => some []
  | _ => none

/-- Reads a value into a field of the type. Numbers of any kind are accepted for a numeric type
as far as their integer part fits, and `null` is an empty option or list. -/
def ofValue? : (t : DataType) → Value → Option t.Carrier
  | int t, v => (integerPart? v).bind t.ofInt?
  | single, v => single? v
  | double, v => double? v
  | bool, v => bool? v
  | text, v => v.text?
  | value, v => some v
  | option t, v => readOption t.ofValue? v
  | list t, v => readList t.ofValue? v

end DataType
end RecordMapping
