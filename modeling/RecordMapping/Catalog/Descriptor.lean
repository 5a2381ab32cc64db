import RecordMapping.Value.Basic
/-!
Descriptors: how the fields of an entity type map to the attributes of its records.
-/
namespace RecordMapping

inductive FieldKind where
  /-- A value copied into one attribute. -/
  | plain
  /-- The identifier, otherwise plain. -/
  | id
  /-- A part of the entity, nested under one attribute or flattened among its owner's. -/
  | embedded
  /-- A related entity, nested under one attribute. -/
  | entity
  /-- A list of values or of nested entities. -/
  | collection
deriving DecidableEq

def FieldKind.name : FieldKind → String
  | .plain => "plain"
  | .id => "id"
  | .embedded => "embedded"
  | .entity => "entity"
  | .collection => "collection"

inductive EmbeddedPolicy where
  | nested
  | flattened
deriving DecidableEq

def EmbeddedPolicy.name : EmbeddedPolicy → String
  | .nested => "nested"
  | .flattened => "flattened"

def EmbeddedPolicy.ofName? (name : String) : Option EmbeddedPolicy :=
  [EmbeddedPolicy.nested, .flattened].find? (·.name == name)

structure FieldDescriptor where
  name : String
  nativeName : String
  kind : FieldKind
  valueKind : Option ValueKind
  declaredPolicy : Option EmbeddedPolicy
  target : Option String
deriving DecidableEq

namespace FieldDescriptor

def ofKind (name : String) (kind : FieldKind) : FieldDescriptor :=
  ⟨name, name, kind, none, none, none⟩

def plain (name : String) : FieldDescriptor := ofKind name .plain

def id (name : String) : FieldDescriptor := ofKind name .id

def collection (name : String) : FieldDescriptor :=
  { ofKind name .collection with valueKind := some .list }

def embedded (name target : String) : FieldDescriptor :=
  { ofKind name .embedded with target := some target }

def entity (name target : String) : FieldDescriptor :=
  { ofKind name .entity with target := some target }

def entityCollection (name target : String) : FieldDescriptor :=
  { ofKind name .collection with target := some target }

/-- Embedded fields are nested unless they say otherwise. -/
def policy (f : FieldDescriptor) : EmbeddedPolicy :=
  f.declaredPolicy.getD .nested

def isId (f : FieldDescriptor) : Bool :=
  f.kind == .id

def isNested (f : FieldDescriptor) : Bool :=
  f.kind == .embedded || f.kind == .entity

def isFlattened (f : FieldDescriptor) : Bool :=
  f.kind == .embedded && f.declaredPolicy == some .flattened

def withDefaultPolicy (p : EmbeddedPolicy) (f : FieldDescriptor) : FieldDescriptor :=
  if f.kind = .embedded ∧ f.declaredPolicy = none then { f with declaredPolicy := some p } else f

end FieldDescriptor
end RecordMapping
