import RecordMapping.Catalog.Descriptor
/-!
Settings of the mapping and of the queries made from method names.
-/
namespace RecordMapping

structure Settings where
  /-- The policy of embedded fields that declare none. -/
  embedded : EmbeddedPolicy
  /-- Whether identifiers in method names have to match the case of field names. -/
  strictFieldCase : Bool
  /-- Whether arguments are coerced to the kind of their field. -/
  coerceArguments : Bool
deriving DecidableEq

def Settings.standard : Settings := ⟨.nested, false, true⟩

end RecordMapping
