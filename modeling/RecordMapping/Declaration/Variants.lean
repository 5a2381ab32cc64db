import RecordMapping.Declaration.Plan
/-!
Roots: declared alternatives, each of which wraps one subtype.
-/
namespace RecordMapping.Declaration

structure VariantDeclaration where
  name : String
  /-- What follows the name. -/
  body : String

structure RootDeclaration where
  name : String
  variants : List VariantDeclaration
  markers : List Marker
  shape : ItemShape

structure RootPlan where
  collection : String
  discriminator : String
  subtypes : List (Named TypeExpr)

structure RootOptions where
  collection : Option String
  discriminator : Option String

def RootOptions.add (o : RootOptions) (m : Marker) : Except DeclarationError RootOptions :=
  match m.word with
  | "collection" => m.needValue.map fun v => { o with collection := some v }
  | "discriminator" => m.needValue.map fun v => { o with discriminator := some v }
  | _ => .error (m.fault .unknownRootMarker)

def tupleField : Form :=
  Form.dropped (Form.attributes ++ Form.visibility) ++ Form.type true ++
    Form.dropped (Form.opt (Form.spelled ","))

def VariantDeclaration.subtype (v : VariantDeclaration) :
    Except DeclarationError (Named TypeExpr) :=
  match Token.ofText v.body with
  | .group .round inside :: _ =>
    match tupleField.readAll? inside with
    | some type => .ok ⟨v.name, ⟨type⟩⟩
    | none => .error .notOneSubtype
  | _ => .error .notOneSubtype

def RootDeclaration.plan (d : RootDeclaration) : Except DeclarationError RootPlan := do
  if d.shape ≠ .variants then throw .notVariants
  if d.variants.isEmpty then throw .noVariant
  let o ← d.markers.foldlM RootOptions.add ⟨none, none⟩
  let subtypes ← d.variants.mapM (·.subtype)
  return ⟨o.collection.getD d.name, o.discriminator.getD "dtype", subtypes⟩

end RecordMapping.Declaration
