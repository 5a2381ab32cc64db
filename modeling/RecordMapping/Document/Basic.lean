import RecordMapping.Named
import RecordMapping.Number.Binary
/-!
Documents: structured data as it is exchanged, whatever its text looks like.
-/
namespace RecordMapping

open RecordMapping.Number

inductive Document where
  | null
  | bool (b : Bool)
  | integer (n : Int)
  | decimal (x : Binary64)
  | text (s : String)
  | list (items : List Document)
  | table (entries : List (Named Document))
deriving Inhabited

/-- Reads something off the front of a text; `none` if it is not there. -/
abbrev Reader (α : Type) := List Char → Option (α × List Char)

/-- What the formats of documents leave open. -/
structure Dialect where
  /-- What may stand beside the name of an alternative without content. -/
  isUnit : Document → Bool
  /-- Whether a list may be longer than the members that it stands for. -/
  allowsExtra : Bool

namespace Document

def isNull : Document → Bool
  | null => true
  | _ => false

def bool? : Document → Option Bool
  | bool b => some b
  | _ => none

def text? : Document → Option String
  | text s => some s
  | _ => none

def list? : Document → Option (List Document)
  | list items => some items
  | _ => none

def integerWithin? (low high : Int) : Document → Option Int
  | integer n => if low ≤ n ∧ n ≤ high then some n else none
  | _ => none

def number? : Document → Option Binary64
  | integer n => some (.ofInt n)
  | decimal x => some x
  | _ => none

def count? (d : Document) : Option UInt64 :=
  (d.integerWithin? 0 0xFFFFFFFFFFFFFFFF).map fun n => UInt64.ofNat n.toNat

/-- The members of a structure by name, or by position, in which case there have to be at least
`least` of them. Other names are ignored. -/
def members? (dialect : Dialect) (names : List String) (least : Nat) :
    Document → Option (List (Option Document))
  | table entries => some (names.map fun name => Named.lookup name entries)
  | list items =>
    if least ≤ items.length ∧ (dialect.allowsExtra ∨ items.length ≤ names.length) then
      some (names.mapIdx fun i _ => items[i]?)
    else none
  | _ => none

def unitName? (dialect : Dialect) : Document → Option String
  | text name => some name
  | table [⟨name, content⟩] => if dialect.isUnit content then some name else none
  | _ => none

end Document
end RecordMapping
