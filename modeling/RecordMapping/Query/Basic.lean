import RecordMapping.Query.Condition
/-!
Queries: what a store is asked to select or to delete.
-/
namespace RecordMapping

inductive Direction where
  | ascending
  | descending
deriving DecidableEq

def Direction.name : Direction → String
  | .ascending => "ASC"
  | .descending => "DESC"

def Direction.ofName? (name : String) : Option Direction :=
  [Direction.ascending, .descending].find? (·.name == name)

/-- One entry of an ordering; later entries only order what earlier ones leave equal. -/
structure SortKey where
  name : String
  direction : Direction
deriving DecidableEq

/-- A limit of zero lets everything after the skipped records through. -/
structure Query where
  collection : String
  condition : Option Condition
  sorts : List SortKey
  skip : UInt64
  limit : UInt64

def Query.ofCollection (collection : String) : Query :=
  ⟨collection, none, [], 0, 0⟩

/-- Removes the listed attributes from the matching records, or whole records if none is listed. -/
structure DeleteQuery where
  collection : String
  condition : Option Condition
  attributes : List String

def Query.deletion (q : Query) : DeleteQuery :=
  ⟨q.collection, q.condition, []⟩

end RecordMapping
