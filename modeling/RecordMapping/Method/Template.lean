import RecordMapping.Config.Settings
import RecordMapping.Method.Name
import RecordMapping.Query.Paging
/-!
Templates: method names compiled once and turned into queries for given arguments. Values go to
the clauses in order, and the other arguments may stand anywhere among them.
-/
namespace RecordMapping.Method

inductive Argument where
  | value (v : Value)
  | sort (s : SortKey)
  | sorts (ss : List SortKey)
  | limit (l : Limit)
  | page (p : Pageable)

namespace Argument

def value? : Argument → Option Value
  | value v => some v
  | _ => none

def sortKeys : Argument → List SortKey
  | sort s => [s]
  | sorts ss => ss
  | _ => []

def limit? : Argument → Option Limit
  | limit l => some l
  | _ => none

def page? : Argument → Option Pageable
  | page p => some p
  | _ => none

end Argument

structure Invocation where
  method : String
  arguments : List Argument

structure Request where
  action : Action
  query : Query
  page : Option Pageable

structure Template where
  method : String
  collection : String
  name : Name
  /-- The native names of the fields that are stored under another name than their own. -/
  natives : List (Named String)
  coerces : Bool

def Clause.operand (c : Clause) (values : List Value) : Value × List Value :=
  match c.op with
  | .between =>
    (.list [values.headD .null, values.tail.headD .null], values.tail.tail)
  | .among => (.list (values.headD .null).asList, values.tail)
  | _ => (values.headD .null, values.tail)

namespace Template

def compile (method : String) (metadata : EntityMetadata) (settings : Settings) :
    Except QueryError Template := do
  let name ← Name.parse method metadata settings.strictFieldCase
  let renamed := metadata.fields.filter fun f => f.name != f.nativeName
  return ⟨method, metadata.collection, name,
    (renamed.map fun f => ⟨f.name, f.nativeName⟩).reverse, settings.coerceArguments⟩

def arity (t : Template) : Nat :=
  t.name.clauses.foldr (fun c total => c.op.arity + total) 0

/-- The operand as the field of the clause declares it; patterns are left alone. -/
def coerce (t : Template) (c : Clause) (operand : Value) : Except QueryError Value :=
  match c.valueKind with
  | some kind =>
    if t.coerces ∧ c.op ≠ .like then
      (operand.coerce kind).mapError (QueryError.coercion c.field)
    else .ok operand
  | none => .ok operand

def comparisons (t : Template) :
    List Clause → List Value → Except QueryError (List (Connector × Condition))
  | [], _ => .ok []
  | c :: rest, values => do
    let (operand, left) := c.operand values
    let operand ← t.coerce c operand
    return (c.connector, .compare c.native c.op operand) :: (← t.comparisons rest left)

def nativeSort (t : Template) (s : SortKey) : SortKey :=
  match Named.lookup s.name t.natives with
  | some native => { s with name := native }
  | none => s

/-- The query for the given arguments. Sorts among the arguments come first, then those of the
name, then those of the page; a limit takes precedence over the window of the page. -/
def assemble (t : Template) (arguments : List Argument) : Except QueryError Request := do
  let values := arguments.filterMap (·.value?)
  let limit := (arguments.filterMap (·.limit?)).getLast?
  let page := (arguments.filterMap (·.page?)).getLast?
  if values.length ≠ t.arity then
    throw (.arity t.method t.arity values.length)
  let comparisons ← t.comparisons t.name.clauses values
  let sorts := (arguments.flatMap (·.sortKeys)).map t.nativeSort ++
    t.name.sorts.map (fun o => ⟨o.native, o.direction⟩) ++
    (page.elim [] (·.sorts)).map t.nativeSort
  let (skip, take) : UInt64 × UInt64 := match limit, page with
    | some l, _ => (l.skip, l.limit)
    | none, some p => (p.skip, p.size)
    | none, none => (0, 0)
  return ⟨t.name.action,
    ⟨t.collection, Condition.fold comparisons, sorts, skip, take⟩, page⟩

end Template
end RecordMapping.Method
