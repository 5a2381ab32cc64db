import RecordMapping.Value.Basic
/-!
Records: the stored form of an entity, that is the collection it belongs to and its attributes in
order. Names may repeat; a name stands for its first attribute.
-/
namespace RecordMapping

structure Record where
  name : String
  attributes : List Attribute

namespace Record

def add (r : Record) (name : String) (value : Value) : Record :=
  { r with attributes := r.attributes ++ [⟨name, value⟩] }

def find? (r : Record) (name : String) : Option Value :=
  Named.lookup name r.attributes

def size (r : Record) : Nat :=
  r.attributes.length

def names (r : Record) : List String :=
  r.attributes.map (·.name)

def same (r s : Record) : Bool :=
  r.name == s.name && Value.sameAttributes r.attributes s.attributes

end Record
end RecordMapping
