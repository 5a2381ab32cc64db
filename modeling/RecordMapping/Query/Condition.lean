import RecordMapping.Value.Basic
/-!
Conditions: trees of comparisons. Clauses joined one after the other nest to the left, so that no
connector binds tighter than another.
-/
namespace RecordMapping

inductive Operator where
  | equals
  | greater
  | greaterOrEqual
  | less
  | lessOrEqual
  | like
  /-- Within a closed range; the operand is a list of its two ends. -/
  | between
  /-- Among given values; the operand is a list. -/
  | among
deriving DecidableEq

namespace Operator

def name : Operator → String
  | equals => "EQUALS"
  | greater => "GREATER_THAN"
  | greaterOrEqual => "GREATER_EQUALS_THAN"
  | less => "LESSER_THAN"
  | lessOrEqual => "LESSER_EQUALS_THAN"
  | like => "LIKE"
  | between => "BETWEEN"
  | among => "IN"

def all : List Operator :=
  [equals, greater, greaterOrEqual, less, lessOrEqual, like, between, among]

def ofName? (name : String) : Option Operator :=
  all.find? (·.name == name)

def arity : Operator → Nat
  | between => 2
  | _ => 1

end Operator

inductive Connector where
  | and
  | or
deriving DecidableEq

def Connector.name : Connector → String
  | .and => "AND"
  | .or => "OR"

def Connector.ofName? (name : String) : Option Connector :=
  [Connector.and, .or].find? (·.name == name)

inductive Condition where
  | compare (name : String) (op : Operator) (operand : Value)
  | all (conditions : List Condition)
  | any (conditions : List Condition)
  | not (condition : Condition)

namespace Condition

def between (name : String) (low high : Value) : Condition :=
  compare name .between (.list [low, high])

def among (name : String) (values : List Value) : Condition :=
  compare name .among (.list values)

def pair : Connector → Condition → Condition → Condition
  | .and, a, b => all [a, b]
  | .or, a, b => any [a, b]

/-- Joins a condition onto what there is so far, which is never taken apart. -/
def join : Option Condition → Connector → Condition → Condition
  | none, _, next => next
  | some earlier, connector, next => pair connector earlier next

/-- Joins clauses from left to right; the connector of the first one has no effect. -/
def fold (clauses : List (Connector × Condition)) : Option Condition :=
  clauses.foldl (fun earlier (connector, next) => some (join earlier connector next)) none

end Condition
end RecordMapping
