import RecordMapping.Named
import RecordMapping.Number.Binary
/-!
Values: what the attributes of a record and the operands of a condition hold, whatever the store.
-/
namespace RecordMapping

open RecordMapping.Number

inductive Value where
  | blob (bytes : List UInt8)
  | bool (b : Bool)
  | float (x : Binary64)
  | int (n : Int64)
  | list (items : List Value)
  | null
  | record (attributes : List (Named Value))
  | text (s : String)
  | uint (n : UInt64)

abbrev Attribute := Named Value

inductive ValueKind where
  | blob
  | bool
  | float
  | int
  | list
  | record
  | text
  | uint
deriving DecidableEq

def ValueKind.name : ValueKind → String
  | .blob => "blob"
  | .bool => "bool"
  | .float => "float"
  | .int => "int"
  | .list => "list"
  | .record => "record"
  | .text => "text"
  | .uint => "uint"

def ValueKind.all : List ValueKind :=
  [.blob, .bool, .float, .int, .list, .record, .text, .uint]

def ValueKind.ofName? (name : String) : Option ValueKind :=
  all.find? (·.name == name)

namespace Value

/-- The kind of a value; only `null` has none. -/
def kind? : Value → Option ValueKind
  | .blob _ => some .blob
  | .bool _ => some .bool
  | .float _ => some .float
  | .int _ => some .int
  | .list _ => some .list
  | .null => none
  | .record _ => some .record
  | .text _ => some .text
  | .uint _ => some .uint

def isNull : Value → Bool
  | .null => true
  | _ => false

def text? : Value → Option String
  | .text s => some s
  | _ => none

def list? : Value → Option (List Value)
  | .list items => some items
  | _ => none

def record? : Value → Option (List Attribute)
  | .record attributes => some attributes
  | _ => none

def asList : Value → List Value
  | .list items => items
  | v => [v]

def int? (n : Int) : Option Value :=
  if -0x8000000000000000 ≤ n ∧ n < 0x8000000000000000 then some (.int (Int64.ofInt n)) else none

def uint? (n : Int) : Option Value :=
  if 0 ≤ n ∧ n ≤ 0xFFFFFFFFFFFFFFFF then some (.uint (UInt64.ofNat n.toNat)) else none

mutual

/-- Equality of values as a store sees it: floating-point numbers are compared as numbers. -/
def same : Value → Value → Bool
  | .blob a, .blob b => a == b
  | .bool a, .bool b => a == b
  | .float a, .float b => a.same b
  | .int a, .int b => a == b
  | .list a, .list b => sameItems a b
  | .null, .null => true
  | .record a, .record b => sameAttributes a b
  | .text a, .text b => a == b
  | .uint a, .uint b => a == b
  | _, _ => false

def sameItems : List Value → List Value → Bool
  | [], [] => true
  | a :: as, b :: bs => same a b && sameItems as bs
  | _, _ => false

def sameAttributes : List (Named Value) → List (Named Value) → Bool
  | [], [] => true
  | ⟨m, a⟩ :: as, ⟨n, b⟩ :: bs => m == n && same a b && sameAttributes as bs
  | _, _ => false

end

end Value
end RecordMapping
