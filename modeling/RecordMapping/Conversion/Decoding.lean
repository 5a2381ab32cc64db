import RecordMapping.Catalog.Basic
import RecordMapping.Entity.Basic
/-!
Decoding: filling an entity from attributes, along the layout of its type. A field without an
attribute stays as it is, a flattened field is entered if any name of its layout is present, and
the elements of a collection are appended. What was filled before an error stays filled.
-/
namespace RecordMapping

/-- The entity as far as it was filled, and what stopped the filling. -/
structure Filling where
  entity : Entity
  error? : Option MappingError

namespace Filling

def done (e : Entity) : Filling := ⟨e, none⟩

def fail (e : Entity) (error : MappingError) : Filling := ⟨e, some error⟩

def andThen (r : Filling) (next : Entity → Filling) : Filling :=
  match r.error? with
  | none => next r.entity
  | some _ => r

def result (r : Filling) : Except MappingError Entity :=
  match r.error? with
  | none => .ok r.entity
  | some e => .error e

end Filling

def isPresent (attributes : List Attribute) (name : String) : Bool :=
  match Named.lookup name attributes with
  | some v => !v.isNull
  | none => false

namespace Entity

def fillNested (blank : String → Entity) (owner field : String) (e : Entity)
    (fill : Entity → Filling) : Filling :=
  match e.nested? blank field with
  | none => .fail e (.unknownField owner field)
  | some inner =>
    let r := fill inner
    ⟨e.putNested field r.entity, r.error?⟩

def fillElement (blank : String → Entity) (owner field : String) (e : Entity)
    (fill : Entity → Filling) : Filling :=
  match e.element? blank field with
  | none => .fail e (.unknownField owner field)
  | some inner =>
    let r := fill inner
    ⟨e.append field r.entity, r.error?⟩

def fillPlain (owner : String) (f : FieldDescriptor) (attributes : List Attribute) (e : Entity) :
    Filling :=
  match Named.lookup f.nativeName attributes with
  | none => .done e
  | some v =>
    let coerced : Except MappingError Value := match f.valueKind with
      | some kind => (v.coerce kind).mapError (MappingError.coercion owner f.name)
      | none => .ok v
    match coerced.bind (e.write f.name) with
    | .ok filled => .done filled
    | .error error => .fail e error

end Entity

namespace Catalog

theorem sizeOf_lt_of_lookup {name : String} {v : Value} {attributes : List Attribute}
    (h : Named.lookup name attributes = some v) : sizeOf v < sizeOf attributes := by
  have := List.sizeOf_lt_of_mem (Named.mem_of_lookup h)
  simp only [Named.mk.sizeOf_spec] at this
  omega

mutual

/-- Fills the fields of a layout in order; `owner` is the type that they belong to. -/
def fill (c : Catalog) (blank : String → Entity) (owner : String) (attributes : List Attribute) :
    List LayoutItem → Entity → Filling
  | [], e => .done e
  | item :: rest, e =>
    (fillItem c blank owner attributes item e).andThen (fill c blank owner attributes rest)
termination_by items => (sizeOf attributes, sizeOf items)

def fillItem (c : Catalog) (blank : String → Entity) (owner : String)
    (attributes : List Attribute) : LayoutItem → Entity → Filling
  | .group f target items, e =>
    if (LayoutItem.allNames items).any (isPresent attributes) then
      e.fillNested blank owner f.name (fill c blank target.type attributes items)
    else .done e
  | .detached f, e => e.fillPlain owner f attributes
  | .stored f, e =>
    match f.kind, f.target with
    | .embedded, some target | .entity, some target =>
      match h : Named.lookup f.nativeName attributes with
      | none | some .null => .done e
      | some v =>
        match c.entry? target with
        | none => .fail e (.unknownEntity (owner ++ "::" ++ f.name))
        | some entry =>
          match v with
          | .record inner =>
            have := sizeOf_lt_of_lookup h
            have : sizeOf inner < sizeOf attributes := by
              simp only [Value.record.sizeOf_spec] at this
              omega
            e.fillNested blank owner f.name (fill c blank entry.metadata.type inner entry.items)
          | _ => .fail e (.unexpectedValue owner f.name .record)
    | .collection, some target =>
      match h : Named.lookup f.nativeName attributes with
      | none | some .null => .done e
      | some v =>
        match c.entry? target with
        | none => .fail e (.unknownEntity (owner ++ "::" ++ f.name))
        | some entry =>
          match v with
          | .list values =>
            have := sizeOf_lt_of_lookup h
            have : sizeOf values < sizeOf attributes := by
              simp only [Value.list.sizeOf_spec] at this
              omega
            fillElements c blank owner f.name entry values e
          | _ => .fail e (.unexpectedValue owner f.name .list)
    | _, _ => e.fillPlain owner f attributes
termination_by item => (sizeOf attributes, sizeOf item)

def fillElements (c : Catalog) (blank : String → Entity) (owner field : String)
    (entry : CatalogEntry) : List Value → Entity → Filling
  | [], e => .done e
  | .record inner :: rest, e =>
    (e.fillElement blank owner field
        (fill c blank entry.metadata.type inner entry.items)).andThen
      (fillElements c blank owner field entry rest)
  | _ :: _, e => .fail e (.unexpectedValue owner field .record)
termination_by values => (sizeOf values, 0)

end

def fillBy (c : Catalog) (blank : String → Entity) (entry : CatalogEntry)
    (attributes : List Attribute) (e : Entity) : Filling :=
  fill c blank entry.metadata.type attributes entry.items e

end Catalog
end RecordMapping
