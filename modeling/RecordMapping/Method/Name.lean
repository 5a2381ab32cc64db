import RecordMapping.Catalog.Metadata
import RecordMapping.Method.Words
import RecordMapping.Query.Basic
import RecordMapping.Query.Error
/-!
Method names: what a name such as `findByNameAndAgeLessThanOrderByAge` asks for. A name is a prefix,
then clauses between connectors, then an ordering. The words of connectors may also occur in field
names, so that all ways to cut the clauses are tried, shorter ones first.
-/
namespace RecordMapping.Method

inductive Action where
  | find
  | count
  | exist
  | delete
deriving DecidableEq

def Action.name : Action → String
  | .find => "find"
  | .count => "count"
  | .exist => "exists"
  | .delete => "delete"

structure Clause where
  connector : Connector
  field : String
  native : String
  op : Operator
  valueKind : Option ValueKind
deriving DecidableEq

structure FieldSort where
  field : String
  native : String
  direction : Direction
deriving DecidableEq

structure Name where
  action : Action
  clauses : List Clause
  sorts : List FieldSort
deriving DecidableEq

/-- The beginnings of method names, what they ask for, and whether clauses follow. -/
def prefixes : List (String × Action × Bool) := [
  ("findBy", .find, true),
  ("existsBy", .exist, true),
  ("countBy", .count, true),
  ("deleteBy", .delete, true),
  ("findAll", .find, false),
  ("countAll", .count, false)]

/-- The words that end a clause and the operators they stand for, longer ones first. -/
def suffixes : List (List String × Operator) := [
  (["Greater", "Than", "Equal"], .greaterOrEqual),
  (["Less", "Than", "Equal"], .lessOrEqual),
  (["Greater", "Than"], .greater),
  (["Less", "Than"], .less),
  (["Between"], .between),
  (["Like"], .like),
  (["In"], .among)]

def connector? (word : String) : Option Connector :=
  if word = "And" then some .and else if word = "Or" then some .or else none

def splitPrefix? (method : String) : Option (Action × Bool × String) :=
  prefixes.findSome? fun (start, action, clauses) =>
    (start.toList.isPrefixOf? method.toList).map fun rest => (action, clauses, String.ofList rest)

/-- The words before the first adjacent pair `Order`, `By`, and those after it. -/
def splitOrder : List String → List String × Option (List String)
  | [] => ([], none)
  | word :: rest =>
    match word, rest with
    | "Order", "By" :: sorts => ([], some sorts)
    | word, rest => ((splitOrder rest).map (word :: ·) id)

structure Scope where
  method : String
  metadata : EntityMetadata
  strict : Bool

namespace Scope

def resolve? (s : Scope) (identifier : String) : Option FieldDescriptor :=
  s.metadata.resolve? s.strict identifier

def unknownField (s : Scope) (identifier : String) : QueryError :=
  .unknownField s.metadata.collection identifier

def stem? (words suffix : List String) : Option (List String) :=
  if suffix.length < words.length then
    (suffix.reverse.isPrefixOf? words.reverse).map List.reverse
  else none

/-- The first way to read words as a field and a suffix, or the first identifier that is no
field. -/
def suffixed (s : Scope) (words : List String) :
    List (List String × Operator) → Option String → Except String (FieldDescriptor × Operator)
  | [], unknown =>
    let identifier := joined words
    match s.resolve? identifier with
    | some f => .ok (f, .equals)
    | none => .error (unknown.getD identifier)
  | (suffix, op) :: others, unknown =>
    match stem? words suffix with
    | none => suffixed s words others unknown
    | some stem =>
      let identifier := joined stem
      match s.resolve? identifier with
      | some f => .ok (f, op)
      | none => suffixed s words others (unknown.or (some identifier))

/-- Reads words as one clause: a field, and an operator suffix unless it is equality. -/
def clause (s : Scope) (connector : Connector) (words : List String) : Except QueryError Clause :=
  match s.suffixed words suffixes none with
  | .ok (f, op) => .ok ⟨connector, f.name, f.nativeName, op, f.valueKind⟩
  | .error identifier => .error (s.unknownField identifier)

/-- Reads words as clauses between connectors. `taken` are the words of the current clause so far
and `failed` is the error of the first shorter way to cut it. -/
def clausesFrom (s : Scope) (connector : Connector) (taken : List String)
    (failed : Option QueryError) : List String → Except QueryError (List Clause)
  | [] =>
    let attempt : Except QueryError (List Clause) :=
      if taken.isEmpty then .error (.emptyClause s.method)
      else (s.clause connector taken).map ([·])
    attempt.mapError fun e => failed.getD e
  | word :: rest =>
    match connector? word with
    | none => clausesFrom s connector (taken ++ [word]) failed rest
    | some next =>
      let attempt : Except QueryError (List Clause) :=
        if taken.isEmpty then .error (.emptyClause s.method)
        else
          match s.clause connector taken with
          | .error e => .error e
          | .ok first => (clausesFrom s next [] none rest).map (first :: ·)
      match attempt with
      | .ok clauses => .ok clauses
      | .error e => clausesFrom s connector (taken ++ [word]) (failed.or (some e)) rest

def clauses (s : Scope) (words : List String) : Except QueryError (List Clause) :=
  s.clausesFrom .and [] none words

/-- The longest run of words that is a field, after the words `taken`, and the words left. -/
def longestField? (s : Scope) (taken : List String) :
    List String → Option (FieldDescriptor × List String)
  | [] => none
  | word :: rest =>
    (s.longestField? (taken ++ [word]) rest).or
      ((s.resolve? (joined (taken ++ [word]))).map (·, rest))

theorem length_lt_of_longestField? {s : Scope} {taken words rest : List String}
    {f : FieldDescriptor} (h : s.longestField? taken words = some (f, rest)) :
    rest.length < words.length := by
  induction words generalizing taken with
  | nil => simp [longestField?] at h
  | cons word words ih =>
    rw [longestField?, Option.or_eq_some_iff] at h
    rcases h with h | ⟨_, h⟩
    · exact Nat.lt_succ_of_lt (ih h)
    · obtain ⟨_, _, h⟩ := Option.map_eq_some_iff.1 h
      simp [← (Prod.mk.inj h).2]

def direction : List String → Direction × List String
  | "Desc" :: rest => (.descending, rest)
  | "Asc" :: rest => (.ascending, rest)
  | words => (.ascending, words)

theorem length_direction_le (words : List String) :
    (direction words).2.length ≤ words.length := by
  unfold direction
  split <;> simp

/-- Reads words as fields, each the longest one possible and with a direction after it if there is
one. -/
def fieldSorts (s : Scope) (words : List String) : Except QueryError (List FieldSort) :=
  match words with
  | [] => .ok []
  | word :: rest =>
    match h : s.longestField? [] (word :: rest) with
    | none => .error (s.unknownField (joined (word :: rest)))
    | some (f, after) =>
      have : (direction after).2.length < (word :: rest).length :=
        Nat.lt_of_le_of_lt (length_direction_le after) (length_lt_of_longestField? h)
      (s.fieldSorts (direction after).2).map
        (⟨f.name, f.nativeName, (direction after).1⟩ :: ·)
termination_by words.length
decreasing_by exact this

end Scope

def Name.parse (method : String) (metadata : EntityMetadata) (strict : Bool) :
    Except QueryError Name := do
  match splitPrefix? method with
  | none => throw (.unrecognized method)
  | some (action, takesClauses, rest) =>
    let s : Scope := ⟨method, metadata, strict⟩
    let (predicate, order) := splitOrder (camelWords rest)
    let clauses ←
      if takesClauses then
        if predicate.isEmpty then throw (.emptyClause method) else s.clauses predicate
      else if predicate.isEmpty then pure []
      else throw (.unrecognized method)
    let sorts ← match order with
      | none => pure []
      | some [] => throw (.emptyClause method)
      | some words => s.fieldSorts words
    return ⟨action, clauses, sorts⟩

end RecordMapping.Method
