import RecordMapping.Store.Basic
import RecordMapping.Store.Pattern
/-!
A store in memory: a list of records. Values of unlike kinds are neither equal nor ordered, an
absent value comes before every other, and records that a query leaves unordered stay in the order
in which they were stored.
-/
namespace RecordMapping.Memory

def order : Option Value → Option Value → Ordering
  | some (.int a), some (.int b) => compare a.toInt b.toInt
  | some (.uint a), some (.uint b) => compare a.toNat b.toNat
  | some (.float a), some (.float b) => compare a.rank b.rank
  | some (.text a), some (.text b) => compareOfLessAndEq a b
  | none, some _ => .lt
  | some _, none => .gt
  | _, _ => .eq

def isSame (value : Option Value) (operand : Value) : Bool :=
  match value with
  | some v => v.same operand
  | none => false

def holds (value : Option Value) (operand : Value) : Operator → Bool
  | .equals => isSame value operand
  | .greater => order value (some operand) == .gt
  | .greaterOrEqual => order value (some operand) != .lt
  | .less => order value (some operand) == .lt
  | .lessOrEqual => order value (some operand) != .gt
  | .like =>
    match value, operand with
    | some (.text s), .text pattern => matchesPattern s pattern
    | _, _ => false
  | .between =>
    match operand with
    | .list [low, high] =>
      order value (some low) != .lt && order value (some high) != .gt
    | _ => false
  | .among =>
    match operand with
    | .list items => items.any (isSame value)
    | _ => false

mutual

def satisfies (r : Record) : Condition → Bool
  | .compare name op operand => holds (r.find? name) operand op
  | .all conditions => satisfiesAll r conditions
  | .any conditions => satisfiesAny r conditions
  | .not condition => !satisfies r condition

def satisfiesAll (r : Record) : List Condition → Bool
  | [] => true
  | c :: rest => satisfies r c && satisfiesAll r rest

def satisfiesAny (r : Record) : List Condition → Bool
  | [] => false
  | c :: rest => satisfies r c || satisfiesAny r rest

end

def isMatch (collection : String) (condition : Option Condition) (r : Record) : Bool :=
  r.name == collection && condition.all (satisfies r)

/-- How two records are ordered by the first sort that tells them apart. -/
def orderBy : List SortKey → Record → Record → Ordering
  | [], _, _ => .eq
  | s :: rest, a, b =>
    let first := order (a.find? s.name) (b.find? s.name)
    (match s.direction with
      | .ascending => first
      | .descending => first.swap).then (orderBy rest a b)

/-- Moves a record past those at the end of a list that come after it; the list is given from its
end. -/
def insertBack (sorts : List SortKey) (r : Record) : List Record → List Record
  | [] => [r]
  | last :: rest =>
    if orderBy sorts r last == .lt then last :: insertBack sorts r rest else r :: last :: rest

/-- Records in order; those that no sort tells apart keep their places. Sorting presumes that the
comparison is a total order on the records, as it is where an attribute holds values of one kind;
what it makes of other records is left open, and not to be relied on. -/
def sort (sorts : List SortKey) (records : List Record) : List Record :=
  (records.foldl (fun sorted r => insertBack sorts r sorted) []).reverse

/-- Some records are skipped, and no more than `limit` are taken unless that is zero. -/
def window (skip limit : UInt64) (records : List Record) : List Record :=
  let rest := records.drop skip.toNat
  if limit = 0 then rest else rest.take limit.toNat

def select (records : List Record) (q : Query) : List Record :=
  window q.skip q.limit (sort q.sorts (records.filter (isMatch q.collection q.condition)))

def count (records : List Record) (q : Query) : Nat :=
  (records.filter (isMatch q.collection q.condition)).length

def delete (records : List Record) (q : DeleteQuery) : List Record :=
  if q.attributes.isEmpty then
    records.filter fun r => !isMatch q.collection q.condition r
  else
    records.map fun r =>
      if isMatch q.collection q.condition r then
        { r with attributes := r.attributes.filter fun a => !q.attributes.contains a.name }
      else r

def store : Store (List Record) where
  select q records := (.ok (select records q), records)
  count q records := (.ok (UInt64.ofNat (count records q)), records)
  delete q records :=
    let affected := (records.filter (isMatch q.collection q.condition)).length
    (.ok (UInt64.ofNat affected), delete records q)
  insert r records := (.ok r, records ++ [r])

end RecordMapping.Memory
