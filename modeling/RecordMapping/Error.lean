import RecordMapping.Catalog.Basic
import RecordMapping.Conversion.Error
import RecordMapping.Query.Error
import RecordMapping.Store.Basic
/-!
Errors of the library as a whole, each with the part it comes from.
-/
namespace RecordMapping

inductive ConfigError where
  | unreadable (path reason : String)
  | malformed
deriving DecidableEq

def ConfigError.message : ConfigError → String
  | unreadable path reason => "failed to read config '" ++ path ++ "': " ++ reason
  | malformed => "invalid config"

def ConfigError.cause? : ConfigError → Option String
  | unreadable _ reason => some reason
  | malformed => none

inductive Error where
  | catalog (e : CatalogError)
  | config (e : ConfigError)
  | store (e : StoreError)
  | mapping (e : MappingError)
  | query (e : QueryError)
deriving DecidableEq

namespace Error

def origin : Error → String
  | catalog _ => "catalog"
  | config _ => "config"
  | store _ => "driver"
  | mapping _ => "mapping"
  | query _ => "query"

def message : Error → String
  | catalog e => e.message
  | config e => e.message
  | store e => e.message
  | mapping e => e.message
  | query e => e.message

def cause? : Error → Option String
  | catalog _ => none
  | config e => e.cause?
  | store e => e.cause?
  | mapping e => e.cause?
  | query e => e.cause?

def messageWithOrigin (e : Error) : String :=
  e.origin ++ ": " ++ e.message

end Error
end RecordMapping
