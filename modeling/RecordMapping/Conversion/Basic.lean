import RecordMapping.Conversion.Encoding
import RecordMapping.Conversion.Decoding
import RecordMapping.Record
import RecordMapping.Schema
/-!
Conversion between entities and records. The records of a hierarchy are read as the subtype that
their discriminator selects, and as no other.
-/
namespace RecordMapping

/-- The subtype that the discriminator among the attributes selects. -/
def Hierarchy.select (h : Hierarchy) (attributes : List Attribute) :
    Except MappingError CatalogEntry :=
  match Named.lookup h.discriminator attributes with
  | none | some .null => .error (.missingDiscriminator h.root h.discriminator)
  | some v =>
    let value := match v.coerce .text with
      | .ok (.text s) => s
      | _ => v.describe
    match h.subtype? value with
    | some entry => .ok entry
    | none => .error (.unmappedDiscriminator h.root h.discriminator value)

structure Mapping where
  schema : Schema
  catalog : Catalog

namespace Mapping

def entry (m : Mapping) (type : String) : Except MappingError CatalogEntry :=
  match m.catalog.entry? type with
  | some entry => .ok entry
  | none => .error (.unknownEntity type)

def subtypeOf (m : Mapping) (member : EntityMetadata) (r : Record) :
    Except MappingError CatalogEntry :=
  match member.inheritance.bind fun i => m.catalog.hierarchy? i.root with
  | some h => h.select r.attributes
  | none => .error (.missingInheritance member.type)

def instantiate (m : Mapping) (entry : CatalogEntry) (attributes : List Attribute) :
    Except MappingError Entity :=
  (m.catalog.fillBy m.schema.blank entry attributes
    (m.schema.blank entry.metadata.type)).result

def toRecord (m : Mapping) (e : Entity) : Except MappingError Record := do
  let entry ← m.entry e.type
  return ⟨entry.metadata.collection, ← m.catalog.encode e⟩

/-- A new entity of the given type; a subtype accepts only the records that select it. -/
def toEntity (m : Mapping) (type : String) (r : Record) : Except MappingError Entity := do
  let entry ← m.entry type
  if entry.metadata.inheritance.isSome then
    let subtype ← m.subtypeOf entry.metadata r
    if subtype.metadata.type ≠ entry.metadata.type then
      throw (.subtypeMismatch entry.metadata.type subtype.metadata.type)
  m.instantiate entry r.attributes

def populate (m : Mapping) (e : Entity) (r : Record) : Filling :=
  match m.entry e.type with
  | .ok entry => m.catalog.fillBy m.schema.blank entry r.attributes e
  | .error error => .fail e error

def toInherited (m : Mapping) (member : EntityMetadata) (r : Record) :
    Except MappingError Entity := do
  m.instantiate (← m.subtypeOf member r) r.attributes

def toRoot (m : Mapping) (root : Root) (r : Record) : Except MappingError RootValue := do
  match m.catalog.hierarchy? root.collection with
  | none => throw (.missingInheritance root.type)
  | some h =>
    let entry ← h.select r.attributes
    match m.schema.instantiate? root entry.metadata.type with
    | none => throw (.unknownEntity entry.metadata.type)
    | some v =>
      let filled ← (m.catalog.fillBy m.schema.blank entry r.attributes v.entity).result
      return ⟨v.variant, filled⟩

def toDynamic (m : Mapping) (r : Record) : Except MappingError Entity := do
  match m.catalog.hierarchy? r.name with
  | some h => m.instantiate (← h.select r.attributes) r.attributes
  | none =>
    match m.catalog.inCollection? r.name with
    | some entry => m.instantiate entry r.attributes
    | none => throw (.unknownCollection r.name)

end Mapping
end RecordMapping
