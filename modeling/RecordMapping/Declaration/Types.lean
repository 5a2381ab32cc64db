import RecordMapping.Declaration.Variants
import RecordMapping.Schema
/-!
Declared types: the entity type and the root that a plan stands for, once the names in it are
looked up in a module.
-/
namespace RecordMapping.Declaration

def pathOf (home : String) (type : String) : String :=
  home ++ "::" ++ type

namespace FieldPlan

/-- The descriptor of a planned field whose values are of a kind; one of another shape declares
none. -/
def describe (home : String) (kind : Option ValueKind) (f : FieldPlan) : FieldDescriptor :=
  let base : FieldDescriptor := match f.shape with
    | .value true _ => { FieldDescriptor.id f.name with valueKind := kind }
    | .value false true => FieldDescriptor.collection f.name
    | .value false false => { FieldDescriptor.plain f.name with valueKind := kind }
    | .many t => FieldDescriptor.entityCollection f.name (pathOf home t.text)
    | .single t | .optional t =>
      if f.embedded then FieldDescriptor.embedded f.name (pathOf home t.text)
      else FieldDescriptor.entity f.name (pathOf home t.text)
  { base with nativeName := f.native.getD f.name, declaredPolicy := f.policy }

/-- The descriptor of a planned field; `none` if nothing is known of the type of its values. -/
def descriptor? (home : String) (f : FieldPlan) : Option FieldDescriptor :=
  match f.kindType? with
  | none => some (f.describe home none)
  | some t => t.dataType?.map fun d => f.describe home d.valueKind

def blankSlot? (s : Schema) (home : String) (f : FieldPlan) : Option Slot :=
  match f.shape with
  | .value _ _ => f.type.dataType?.map fun t => .data t t.blank
  | .single t => (s.type? (pathOf home t.text)).map fun t => .single t.blank
  | .optional t => some (.optional (pathOf home t.text) none)
  | .many t => some (.many (pathOf home t.text) [])

end FieldPlan

/-- What a skipped field holds in a new entity. It may be of any type, and nothing is known of what
is no plain data. -/
def FieldDeclaration.hiddenSlot (f : FieldDeclaration) : Slot :=
  match f.type.dataType? with
  | some t => .data t t.blank
  | none => .optional f.type.text none

/-- The inheritance that a plan declares; `none` if its root is not in the schema. -/
def Plan.inheritance? (s : Schema) (home : String) (p : Plan) : Option (Option Inheritance) :=
  match p.root with
  | none => some none
  | some (root, value) =>
    (s.root? (pathOf home root)).map fun r => some ⟨r.discriminator, value, r.collection⟩

/-- The entity type of a plan. Its roots and the types that it holds directly have to be in the
schema already. -/
def Plan.entityType? (s : Schema) (home : String) (p : Plan) : Option EntityType := do
  let descriptors ← p.fields.mapM fun f => f.descriptor? home
  let slots ← p.fields.mapM fun f => (f.blankSlot? s home).map (Named.mk f.name)
  let inheritance ← p.inheritance? s home
  let path := pathOf home p.type
  let plain : EntityMetadata := ⟨p.collection, path, descriptors, none⟩
  let metadata := match inheritance with
    | some i => plain.extending i
    | none => plain
  return ⟨metadata, .mk path slots (p.skipped.map fun f => ⟨f.name, f.hiddenSlot⟩)⟩

def addStruct? (home : String) (s : Schema) (d : StructDeclaration) : Option Schema := do
  let plan ← d.plan.toOption
  let type ← plan.entityType? s home
  return { s with types := s.types ++ [type] }

def addRoot? (home : String) (s : Schema) (d : RootDeclaration) : Option Schema := do
  let plan ← d.plan.toOption
  let root : Root := ⟨pathOf home d.name, plan.collection, plan.discriminator,
    plan.subtypes.map fun v => ⟨v.name, pathOf home v.value.text⟩⟩
  return { s with roots := s.roots ++ [root] }

def schema? (home : String) (roots : List RootDeclaration) (structs : List StructDeclaration) :
    Option Schema := do
  let s ← roots.foldlM (addRoot? home) ⟨[], []⟩
  structs.foldlM (addStruct? home) s

end RecordMapping.Declaration
