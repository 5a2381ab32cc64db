import RecordMapping.Query.Paging
import RecordMapping.Wire.Value
/-!
The exchanged form of conditions, queries, pages and limits. Pages and limits are checked like new
ones when they are read.
-/
namespace RecordMapping

inductive ExchangeError where
  | malformed
  | invalid (e : QueryError)
deriving DecidableEq

namespace Document

def operatorNames : List (Named Operator) := [
  ⟨"Eq", .equals⟩, ⟨"Gt", .greater⟩, ⟨"Gte", .greaterOrEqual⟩, ⟨"Lt", .less⟩,
  ⟨"Lte", .lessOrEqual⟩, ⟨"Like", .like⟩, ⟨"Between", .between⟩, ⟨"In", .among⟩]

def operator? (d : Document) : Option Operator :=
  (d.unitName? exchange).bind fun name => Named.lookup name operatorNames

def ofOperator (op : Operator) : Document :=
  .text (((operatorNames.find? (·.value == op)).map (·.name)).getD "")

def comparison? (entries : List (Named Document)) : Option Condition :=
  match Named.lookup "attribute" entries, Named.lookup "op" entries,
    Named.lookup "value" entries with
  | some (.text name), some op, some operand =>
    match op.operator?, operand.value? with
    | some op, some operand => some (.compare name op operand)
    | _, _ => none
  | _, _, _ => none

mutual

def condition? : Document → Option Condition
  | .table [⟨"Compare", .table entries⟩] => comparison? entries
  | .table [⟨"And", .list items⟩] => (conditions? items).map .all
  | .table [⟨"Or", .list items⟩] => (conditions? items).map .any
  | .table [⟨"Not", inner⟩] => (condition? inner).map .not
  | _ => none

def conditions? : List Document → Option (List Condition)
  | [] => some []
  | d :: rest =>
    match condition? d, conditions? rest with
    | some c, some cs => some (c :: cs)
    | _, _ => none

end

mutual

def ofCondition : Condition → Document
  | .compare name op operand =>
    .table [⟨"Compare", .table [
      ⟨"attribute", .text name⟩, ⟨"op", ofOperator op⟩, ⟨"value", ofValue operand⟩]⟩]
  | .all conditions => .table [⟨"And", .list (ofConditions conditions)⟩]
  | .any conditions => .table [⟨"Or", .list (ofConditions conditions)⟩]
  | .not condition => .table [⟨"Not", ofCondition condition⟩]

def ofConditions : List Condition → List Document
  | [] => []
  | c :: rest => ofCondition c :: ofConditions rest

end

def optionalCondition? : Option Document → Option (Option Condition)
  | none | some .null => some none
  | some d => d.condition?.map some

def ofOptionalCondition : Option Condition → Document
  | none => .null
  | some c => ofCondition c

def direction? (d : Document) : Option Direction :=
  match d.unitName? exchange with
  | some "Asc" => some .ascending
  | some "Desc" => some .descending
  | _ => none

def sort? (d : Document) : Option SortKey :=
  match d.members? exchange ["attribute", "direction"] 2 with
  | some [some (.text name), some direction] => direction.direction?.map fun dir => ⟨name, dir⟩
  | _ => none

def sorts? (d : Document) : Option (List SortKey) :=
  d.list?.bind fun items => items.mapM sort?

def ofSort (s : SortKey) : Document :=
  .table [⟨"attribute", .text s.name⟩, ⟨"direction", .text (match s.direction with
    | .ascending => "Asc"
    | .descending => "Desc")⟩]

def ofCount (n : UInt64) : Document :=
  .integer n.toNat

def query? (d : Document) : Option Query :=
  match d.members? exchange ["collection", "condition", "sorts", "skip", "limit"] 5 with
  | some [some (.text collection), condition, some sorts, some skip, some limit] => do
    return ⟨collection, ← optionalCondition? condition, ← sorts.sorts?, ← skip.count?,
      ← limit.count?⟩
  | _ => none

def ofQuery (q : Query) : Document :=
  .table [⟨"collection", .text q.collection⟩, ⟨"condition", ofOptionalCondition q.condition⟩,
    ⟨"sorts", .list (q.sorts.map ofSort)⟩, ⟨"skip", ofCount q.skip⟩, ⟨"limit", ofCount q.limit⟩]

def deleteQuery? (d : Document) : Option DeleteQuery :=
  match d.members? exchange ["collection", "condition", "attributes"] 3 with
  | some [some (.text collection), condition, some (.list items)] => do
    return ⟨collection, ← optionalCondition? condition, ← items.mapM text?⟩
  | _ => none

def ofDeleteQuery (q : DeleteQuery) : Document :=
  .table [⟨"collection", .text q.collection⟩, ⟨"condition", ofOptionalCondition q.condition⟩,
    ⟨"attributes", .list (q.attributes.map .text)⟩]

def checked {α : Type} (r : Except QueryError α) : Except ExchangeError α :=
  r.mapError ExchangeError.invalid

def pageable? (d : Document) : Except ExchangeError Pageable :=
  match d.members? exchange ["page", "size", "sorts"] 2 with
  | some [some page, some size, sorts] =>
    match page.count?, size.count?, sorts.elim (some []) sorts? with
    | some page, some size, some sorts =>
      (checked (Pageable.of page size)).map (·.withSorts sorts)
    | _, _, _ => .error .malformed
  | _ => .error .malformed

def ofPageable (p : Pageable) : Document :=
  .table [⟨"page", ofCount p.page⟩, ⟨"size", ofCount p.size⟩,
    ⟨"sorts", .list (p.sorts.map ofSort)⟩]

def limit? (d : Document) : Except ExchangeError Limit :=
  match d.members? exchange ["skip", "limit"] 2 with
  | some [some skip, some limit] =>
    match skip.count?, limit.count? with
    | some skip, some limit => checked (Limit.window skip limit)
    | _, _ => .error .malformed
  | _ => .error .malformed

def ofLimit (l : Limit) : Document :=
  .table [⟨"skip", ofCount l.skip⟩, ⟨"limit", ofCount l.limit⟩]

end Document
end RecordMapping
