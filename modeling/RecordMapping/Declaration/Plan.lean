import RecordMapping.Catalog.Descriptor
import RecordMapping.Declaration.TypeExpr
/-!
Plans: how the fields of a declared structure are described, read and written. The markers of the
structure and of its fields are checked in the order in which they are written, and the first
fault is the one reported.
-/
namespace RecordMapping.Declaration

structure Marker where
  word : String
  value? : Option String

structure FieldDeclaration where
  name : String
  type : TypeExpr
  markers : List Marker

inductive ItemShape where
  | fields
  | tuple
  | unit
  | variants
deriving DecidableEq

structure StructDeclaration where
  name : String
  fields : List FieldDeclaration
  markers : List Marker
  shape : ItemShape
  /-- The parameters with the brackets around them; without any, the type is not generic. -/
  parameters : String

inductive DeclarationError where
  | generic
  | notFields
  | unknownTypeMarker
  | unknownFieldMarker
  | unknownRootMarker
  | literalMarker
  | signMarker
  | missingValue
  | unexpectedValue
  | discriminatorWithoutRoot
  | nameWithRoot
  | embeddedAndEntity
  | policyWithoutEmbedded
  | twoPolicies
  | nestedId
  | notVariants
  | noVariant
  | notOneSubtype
deriving DecidableEq

def DeclarationError.message : DeclarationError → String
  | generic => "Entity cannot be derived for generic types"
  | notFields => "Entity can only be derived for structs with named fields"
  | unknownTypeMarker => "expected `name`, `extends` or `discriminator`"
  | unknownFieldMarker =>
    "expected `id`, `name`, `embedded`, `entity`, `flatten`, `nested` or `skip`"
  | unknownRootMarker => "expected `collection` or `discriminator`"
  | literalMarker => "unexpected literal in nested attribute, expected ident"
  | signMarker => "unexpected token in nested attribute, expected ident"
  | missingValue => "expected `=`"
  | unexpectedValue => "expected `,`"
  | discriminatorWithoutRoot => "`discriminator` requires `extends`"
  | nameWithRoot => "subtypes are stored in the root's collection; drop `name`"
  | embeddedAndEntity => "a field is either `embedded` or `entity`"
  | policyWithoutEmbedded => "`flatten` and `nested` apply to `embedded` fields"
  | twoPolicies => "choose one of `flatten` or `nested`"
  | nestedId => "an `id` field must be a plain value"
  | notVariants => "Polymorphic can only be derived for enums"
  | noVariant => "a polymorphic root needs at least one subtype variant"
  | notOneSubtype => "each variant must wrap exactly one subtype entity"

structure TypeOptions where
  name : Option String
  root : Option String
  discriminator : Option String

structure FieldOptions where
  id : Bool
  name : Option String
  embedded : Bool
  entity : Bool
  flatten : Bool
  nested : Bool
  skip : Bool

def Marker.fault (m : Marker) (unknown : DeclarationError) : DeclarationError :=
  match Token.ofText m.word with
  | .name _ :: _ | .sign "::" _ :: .name _ :: _ => unknown
  | .literal _ :: _ | .sign "-" _ :: .literal _ :: _ => .literalMarker
  | _ => .signMarker

def Marker.needValue (m : Marker) : Except DeclarationError String :=
  match m.value? with
  | some v => .ok v
  | none => .error .missingValue

def Marker.needNone {α : Type} (m : Marker) (result : α) : Except DeclarationError α :=
  match m.value? with
  | some _ => .error .unexpectedValue
  | none => .ok result

namespace TypeOptions

def add (o : TypeOptions) (m : Marker) : Except DeclarationError TypeOptions :=
  match m.word with
  | "name" => m.needValue.map fun v => { o with name := some v }
  | "extends" => m.needValue.map fun v => { o with root := some (TypeExpr.parse v).text }
  | "discriminator" => m.needValue.map fun v => { o with discriminator := some v }
  | _ => .error (m.fault .unknownTypeMarker)

def check (o : TypeOptions) : Except DeclarationError TypeOptions :=
  if o.discriminator.isSome ∧ o.root.isNone then .error .discriminatorWithoutRoot
  else if o.name.isSome ∧ o.root.isSome then .error .nameWithRoot
  else .ok o

def ofMarkers (markers : List Marker) : Except DeclarationError TypeOptions :=
  (markers.foldlM add ⟨none, none, none⟩).bind check

end TypeOptions

namespace FieldOptions

def add (o : FieldOptions) (m : Marker) : Except DeclarationError FieldOptions :=
  match m.word with
  | "id" => m.needNone { o with id := true }
  | "name" => m.needValue.map fun v => { o with name := some v }
  | "embedded" => m.needNone { o with embedded := true }
  | "entity" => m.needNone { o with entity := true }
  | "flatten" => m.needNone { o with flatten := true }
  | "nested" => m.needNone { o with nested := true }
  | "skip" => m.needNone { o with skip := true }
  | _ => .error (m.fault .unknownFieldMarker)

def check (o : FieldOptions) : Except DeclarationError FieldOptions :=
  if o.embedded && o.entity then .error .embeddedAndEntity
  else if (o.flatten || o.nested) && !o.embedded then .error .policyWithoutEmbedded
  else if o.flatten && o.nested then .error .twoPolicies
  else if o.id && (o.embedded || o.entity) then .error .nestedId
  else .ok o

def ofMarkers (markers : List Marker) : Except DeclarationError FieldOptions :=
  (markers.foldlM add ⟨false, none, false, false, false, false, false⟩).bind check

def policy? (o : FieldOptions) : Option EmbeddedPolicy :=
  if o.flatten then some .flattened else if o.nested then some .nested else none

end FieldOptions

inductive FieldShape where
  /-- Plain data, possibly the identifier or a list. -/
  | value (id many : Bool)
  | single (target : TypeExpr)
  | optional (target : TypeExpr)
  | many (target : TypeExpr)

structure FieldPlan where
  name : String
  type : TypeExpr
  shape : FieldShape
  embedded : Bool
  native : Option String
  policy : Option EmbeddedPolicy

structure Plan where
  type : String
  collection : String
  /-- The root that the type extends, and its discriminator there. -/
  root : Option (String × String)
  fields : List FieldPlan
  skipped : List FieldDeclaration

def FieldDeclaration.plan? (f : FieldDeclaration) : Except DeclarationError (Option FieldPlan) := do
  let o ← FieldOptions.ofMarkers f.markers
  if o.skip then return none
  let shape : FieldShape :=
    if o.embedded || o.entity then
      match f.type.inner? "Vec", f.type.inner? "Option" with
      | some element, _ => .many element
      | none, some inner => .optional inner
      | none, none => .single f.type
    else .value o.id (f.type.inner? "Vec").isSome
  return some ⟨f.name, f.type, shape, o.embedded, o.name, o.policy?⟩

def StructDeclaration.isGeneric (d : StructDeclaration) : Bool :=
  match Token.ofText d.parameters with
  | .sign "<" _ :: .sign ">" _ :: _ => false
  | .sign "<" _ :: _ => true
  | _ => false

def StructDeclaration.plan (d : StructDeclaration) : Except DeclarationError Plan := do
  if d.isGeneric then throw .generic
  if d.shape ≠ .fields then throw .notFields
  let o ← TypeOptions.ofMarkers d.markers
  let plans ← d.fields.mapM fun f => f.plan?.map fun plan => (f, plan)
  return {
    type := d.name
    collection := o.name.getD d.name
    root := o.root.map fun root => (root, o.discriminator.getD d.name)
    fields := plans.filterMap (·.2)
    skipped := plans.filterMap fun (f, plan) => if plan.isNone then some f else none }

namespace FieldPlan

def kindName (f : FieldPlan) : String :=
  match f.shape with
  | .value true _ => "id"
  | .value false true => "collection"
  | .value false false => "plain"
  | .many _ => "entity_collection"
  | .single _ | .optional _ => if f.embedded then "embedded" else "entity"

def target? (f : FieldPlan) : Option TypeExpr :=
  match f.shape with
  | .value _ _ => none
  | .single t | .optional t | .many t => some t

def kindType? (f : FieldPlan) : Option TypeExpr :=
  match f.shape with
  | .value true _ | .value false false => some f.type
  | _ => none

def readName (f : FieldPlan) : String :=
  match f.shape with
  | .value _ _ => "value"
  | .single _ => "entity"
  | .optional _ => "optional_entity"
  | .many _ => "entities"

def write? (f : FieldPlan) : Option TypeExpr :=
  match f.shape with
  | .value _ _ => some f.type
  | _ => none

def nested? (f : FieldPlan) : Option (Option TypeExpr) :=
  match f.shape with
  | .single _ => some none
  | .optional t => some (some t)
  | _ => none

def push? (f : FieldPlan) : Option TypeExpr :=
  match f.shape with
  | .many t => some t
  | _ => none

end FieldPlan

namespace Plan

def reads (p : Plan) : List (Named String) :=
  p.fields.map fun f => ⟨f.name, f.readName⟩

def writes (p : Plan) : List (Named TypeExpr) :=
  p.fields.filterMap fun f => f.write?.map (⟨f.name, ·⟩)

def nesteds (p : Plan) : List (Named (Option TypeExpr)) :=
  p.fields.filterMap fun f => f.nested?.map (⟨f.name, ·⟩)

def pushes (p : Plan) : List (Named TypeExpr) :=
  p.fields.filterMap fun f => f.push?.map (⟨f.name, ·⟩)

end Plan
end RecordMapping.Declaration
