import RecordMapping.Value.Coercion
/-!
What can go wrong while a query is made.
-/
namespace RecordMapping

open RecordMapping.Text

inductive QueryError where
  | arity (method : String) (expected found : Nat)
  | coercion (field : String) (cause : CoercionError)
  | emptyClause (method : String)
  | emptyLimit
  | invalidLimit (first last : UInt64)
  | invalidPage (page size : UInt64)
  | missingName (role : String)
  | unknownField (entity field : String)
  | unknownMethod (method : String)
  | unrecognized (method : String)
deriving DecidableEq

namespace QueryError

def message : QueryError → String
  | arity method expected found =>
    "method '" ++ method ++ "' expects " ++ showNat expected ++
      " argument(s) for its conditions, found " ++ showNat found
  | coercion field cause =>
    "cannot use argument for field '" ++ field ++ "': " ++ cause.message
  | emptyClause method => "method '" ++ method ++ "' has an empty condition or ordering clause"
  | emptyLimit => "limit must select at least one result"
  | invalidLimit first last =>
    "limit range " ++ showNat first.toNat ++ "..=" ++ showNat last.toNat ++
      " is invalid; start must be >= 1 and end >= start"
  | invalidPage page size =>
    "page " ++ showNat page.toNat ++ " of size " ++ showNat size.toNat ++
      " is invalid; both must be >= 1"
  | missingName role => "required argument '" ++ role ++ "' is missing"
  | unknownField entity field => "entity '" ++ entity ++ "' has no field matching '" ++ field ++ "'"
  | unknownMethod method => "no query method named '" ++ method ++ "'"
  | unrecognized method => "method '" ++ method ++ "' does not start with a recognized prefix"

def cause? : QueryError → Option String
  | coercion _ cause => some cause.message
  | _ => none

end QueryError
end RecordMapping
