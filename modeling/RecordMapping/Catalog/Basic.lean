import RecordMapping.Catalog.Layout
import RecordMapping.Config.Settings
/-!
Catalogs: the registered entity types, accepted only if their names tell them apart. Types,
collections and the discriminators of a hierarchy are unique, every target is registered, and
every type has a layout.
-/
namespace RecordMapping

inductive CatalogError where
  | conflictingAttribute (root entity expected found : String)
  | duplicateCollection (name first second : String)
  | duplicateDiscriminator (root value : String)
  | duplicateEntity (entity : String)
  | duplicateField (entity field : String)
  | unregisteredTarget (entity field : String)
deriving DecidableEq

def CatalogError.message : CatalogError → String
  | conflictingAttribute root entity expected found =>
    "hierarchy '" ++ root ++ "' uses discriminator attribute '" ++ expected ++ "' but '" ++
      entity ++ "' declares '" ++ found ++ "'"
  | duplicateCollection name first second =>
    "collection '" ++ name ++ "' is registered by both '" ++ first ++ "' and '" ++ second ++ "'"
  | duplicateDiscriminator root value =>
    "discriminator value '" ++ value ++ "' is used twice in hierarchy '" ++ root ++ "'"
  | duplicateEntity entity => "entity '" ++ entity ++ "' is registered twice"
  | duplicateField entity field =>
    "entity '" ++ entity ++ "' declares field or attribute '" ++ field ++ "' more than once"
  | unregisteredTarget entity field =>
    "field '" ++ field ++ "' of '" ++ entity ++ "' points at an entity type that is not registered"

structure CatalogEntry where
  metadata : EntityMetadata
  items : List LayoutItem

def CatalogEntry.memberOf? (entry : CatalogEntry) (root : String) :
    Option (Inheritance × CatalogEntry) :=
  match entry.metadata.inheritance with
  | some i => if i.root = root then some (i, entry) else none
  | none => none

structure Catalog where
  settings : Settings
  entries : List CatalogEntry

structure Hierarchy where
  root : String
  discriminator : String
  subtypes : List (Named CatalogEntry)

namespace Hierarchy

def subtype? (h : Hierarchy) (value : String) : Option CatalogEntry :=
  Named.lookup value h.subtypes

def sorted (h : Hierarchy) : List (Named CatalogEntry) :=
  h.subtypes.mergeSort fun a b => decide (a.name ≤ b.name)

end Hierarchy

namespace EntityMetadata

/-- The first field whose name, or whose own attribute, an earlier field has taken. -/
def duplicateField? (m : EntityMetadata) : Option String :=
  go [] [] m.fields
where
  go (names natives : List String) : List FieldDescriptor → Option String
    | [] => none
    | f :: rest =>
      if f.name ∈ names ∨ (f.isFlattened = false ∧ f.nativeName ∈ natives) then some f.name
      else go (f.name :: names) (if f.isFlattened then natives else f.nativeName :: natives) rest

def isSubtypeOf (m : EntityMetadata) (root : String) : Bool :=
  match m.inheritance with
  | some i => i.root == root
  | none => false

def isPlainIn (m : EntityMetadata) (collection : String) : Bool :=
  m.inheritance.isNone && m.collection == collection

/-- What keeps a type from joining those registered before it. -/
def conflict? (earlier : List EntityMetadata) (m : EntityMetadata) : Option CatalogError :=
  if earlier.any (·.type == m.type) then some (.duplicateEntity m.type)
  else
    match m.inheritance with
    | some i =>
      let siblings := (earlier.filter (·.isSubtypeOf i.root)).filterMap (·.inheritance)
      match siblings with
      | [] => none
      | first :: _ =>
        if first.discriminator ≠ i.discriminator then
          some (.conflictingAttribute i.root m.type first.discriminator i.discriminator)
        else if siblings.any (·.value == i.value) then
          some (.duplicateDiscriminator i.root i.value)
        else none
    | none =>
      (earlier.find? (·.isPlainIn m.collection)).map fun first =>
        .duplicateCollection m.collection first.type m.type

end EntityMetadata

namespace Catalog

/-- Registers the types one after the other, embedded fields taking the default policy. -/
def register (policy : EmbeddedPolicy) (earlier : List EntityMetadata) :
    List EntityMetadata → Except CatalogError (List EntityMetadata)
  | [] => .ok earlier
  | m :: rest =>
    match m.duplicateField? with
    | some field => .error (.duplicateField m.type field)
    | none =>
      let m := m.withDefaultPolicy policy
      match m.conflict? earlier with
      | some e => .error e
      | none => register policy (earlier ++ [m]) rest

def rootClash? (types : List EntityMetadata) : Option CatalogError :=
  types.findSome? fun m => m.inheritance.bind fun i =>
    (types.find? (·.isPlainIn i.root)).map fun plain =>
      .duplicateCollection i.root plain.type ("hierarchy '" ++ i.root ++ "'")

def strayTarget? (types : List EntityMetadata) : Option CatalogError :=
  types.findSome? fun m => m.fields.findSome? fun f => f.target.bind fun t =>
    if types.any (·.type == t) then none else some (.unregisteredTarget m.type f.name)

def entryOf (types : List EntityMetadata) (m : EntityMetadata) :
    Except CatalogError CatalogEntry :=
  let seen := (m.inheritance.map (·.discriminator)).toList
  match LayoutItem.expand types ((types.map (·.type)).erase m.type) seen m.fields with
  | .ok items => .ok ⟨m, items⟩
  | .error field => .error (.duplicateField m.type field)

def entriesOf (types : List EntityMetadata) :
    List EntityMetadata → Except CatalogError (List CatalogEntry)
  | [] => .ok []
  | m :: rest => do
    let entry ← entryOf types m
    let entries ← entriesOf types rest
    return entry :: entries

def build (settings : Settings) (types : List EntityMetadata) : Except CatalogError Catalog := do
  let types ← register settings.embedded [] types
  match (rootClash? types).or (strayTarget? types) with
  | some e => .error e
  | none => return ⟨settings, ← entriesOf types types⟩

def entry? (c : Catalog) (type : String) : Option CatalogEntry :=
  c.entries.find? (·.metadata.type == type)

def inCollection? (c : Catalog) (collection : String) : Option CatalogEntry :=
  c.entries.find? (·.metadata.isPlainIn collection)

def members (c : Catalog) (root : String) : List (Inheritance × CatalogEntry) :=
  c.entries.filterMap (·.memberOf? root)

def hierarchy? (c : Catalog) (root : String) : Option Hierarchy :=
  match c.members root with
  | [] => none
  | (first, _) :: _ =>
    some ⟨root, first.discriminator, (c.members root).map fun (i, entry) => ⟨i.value, entry⟩⟩

end Catalog
end RecordMapping
