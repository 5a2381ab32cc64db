import RecordMapping.Value.Coercion
/-!
What can go wrong between entities and records.
-/
namespace RecordMapping

inductive MappingError where
  | coercion (entity field : String) (cause : CoercionError)
  | fieldType (entity field value : String)
  | missingDiscriminator (root column : String)
  | missingId (entity : String)
  | missingInheritance (entity : String)
  | subtypeMismatch (entity found : String)
  | unexpectedValue (entity field : String) (expected : ValueKind)
  | unknownCollection (collection : String)
  | unknownEntity (entity : String)
  | unknownField (entity field : String)
  | unmappedDiscriminator (root column value : String)
deriving DecidableEq

namespace MappingError

def message : MappingError → String
  | coercion entity field cause =>
    "cannot convert attribute for field '" ++ field ++ "' of '" ++ entity ++ "': " ++ cause.message
  | fieldType entity field value =>
    "value " ++ value ++ " does not fit field '" ++ field ++ "' of '" ++ entity ++ "'"
  | missingDiscriminator root column =>
    "record for '" ++ root ++ "' has no discriminator attribute '" ++ column ++ "'"
  | missingId entity => "entity '" ++ entity ++ "' declares no id field"
  | missingInheritance entity =>
    "entity '" ++ entity ++ "' is not part of an inheritance hierarchy"
  | subtypeMismatch entity found =>
    "record of subtype '" ++ found ++ "' cannot be read as '" ++ entity ++ "'"
  | unexpectedValue entity field expected =>
    "field '" ++ field ++ "' of '" ++ entity ++ "' expects a " ++ expected.name ++ " value"
  | unknownCollection collection =>
    "no entity is registered for collection '" ++ collection ++ "'"
  | unknownEntity entity => "entity '" ++ entity ++ "' is not registered"
  | unknownField entity field =>
    "entity '" ++ entity ++ "' has no writable field '" ++ field ++ "'"
  | unmappedDiscriminator root column value =>
    "discriminator '" ++ value ++ "' in attribute '" ++ column ++ "' maps to no subtype of '" ++
      root ++ "'"

def cause? : MappingError → Option String
  | coercion _ _ cause => some cause.message
  | _ => none

end MappingError
end RecordMapping
