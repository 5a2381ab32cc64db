import RecordMapping.Catalog.Descriptor
import RecordMapping.Text.Case
/-!
Metadata: the fields of an entity type, where its records are stored, and its place in a
hierarchy. A name stands for the first field that carries it.
-/
namespace RecordMapping

/-- How the records of one subtype are told from the others in the collection they share. -/
structure Inheritance where
  discriminator : String
  value : String
  root : String
deriving DecidableEq

structure EntityMetadata where
  collection : String
  type : String
  fields : List FieldDescriptor
  inheritance : Option Inheritance
deriving DecidableEq

namespace EntityMetadata

def extending (m : EntityMetadata) (i : Inheritance) : EntityMetadata :=
  { m with collection := i.root, inheritance := some i }

def field? (m : EntityMetadata) (name : String) : Option FieldDescriptor :=
  m.fields.find? (·.name == name)

def positions (m : EntityMetadata) : List (Named Nat) :=
  m.fields.map (·.name) |>.eraseDups.map fun name => ⟨name, m.fields.findIdx (·.name == name)⟩

def id? (m : EntityMetadata) : Option FieldDescriptor :=
  m.fields.find? (·.isId)

/-- The attribute that a field is stored under; a name that is no field stands for itself. -/
def nativeName (m : EntityMetadata) (name : String) : String :=
  match m.field? name with
  | some f => f.nativeName
  | none => name

/-- The field meant by an identifier in a method name: the one of that very name, else the one
whose name has a small first letter instead, else, unless case is strict, the first that differs
in the case of ASCII letters only. -/
def resolve? (m : EntityMetadata) (strict : Bool) (identifier : String) : Option FieldDescriptor :=
  if identifier = "" then none
  else (m.field? identifier).or <|
    (m.field? (String.ofList (Text.decapitalize identifier.toList))).or <|
    if strict then none
    else m.fields.find? fun f => Text.sameIgnoringCase f.name identifier

def withDefaultPolicy (p : EmbeddedPolicy) (m : EntityMetadata) : EntityMetadata :=
  { m with fields := m.fields.map (·.withDefaultPolicy p) }

end EntityMetadata
end RecordMapping
