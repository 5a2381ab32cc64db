import RecordMapping.Catalog.Metadata
import RecordMapping.Entity.Basic
/-!
Schemas: the declared entity types with their blank entities, and the roots that have subtypes as
their variants.
-/
namespace RecordMapping

structure EntityType where
  metadata : EntityMetadata
  blank : Entity

/-- The root of a hierarchy stored in one collection; every variant wraps one subtype. -/
structure Root where
  type : String
  collection : String
  discriminator : String
  variants : List (Named String)

structure RootValue where
  variant : String
  entity : Entity

structure Schema where
  types : List EntityType
  roots : List Root

namespace Schema

def type? (s : Schema) (type : String) : Option EntityType :=
  s.types.find? (·.metadata.type == type)

def root? (s : Schema) (type : String) : Option Root :=
  s.roots.find? (·.type == type)

def blank (s : Schema) (type : String) : Entity :=
  match s.type? type with
  | some t => t.blank
  | none => .mk type [] []

def instantiate? (s : Schema) (root : Root) (type : String) : Option RootValue :=
  (root.variants.find? (·.value == type)).map fun v => ⟨v.name, s.blank type⟩

end Schema
end RecordMapping
