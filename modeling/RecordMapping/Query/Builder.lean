import RecordMapping.Query.Basic
import RecordMapping.Query.Error
import RecordMapping.Text.Blank
/-!
Builders: queries written as chains of calls. The phase of a builder says which calls may follow,
so that every field is followed by exactly one comparison. The first blank name of a chain is
reported when it is built.
-/
namespace RecordMapping

open RecordMapping.Text

inductive Phase where
  /-- The collection is named, and there is no condition yet. -/
  | target
  /-- A field is named, and its comparison is still to come. -/
  | field
  /-- There is a condition. -/
  | filtered
deriving DecidableEq

structure Selection where
  sorts : List SortKey
  skip : UInt64
  limit : UInt64

structure Removal where
  attributes : List String

structure Start (κ : Type) where
  kind : κ
  error? : Option QueryError

structure Builder (κ : Type) (phase : Phase) where
  kind : κ
  collection : String
  condition : Option Condition
  connector : Connector
  field : String
  negated : Bool
  error? : Option QueryError

def requireName (error? : Option QueryError) (role name : String) : Option QueryError :=
  match error? with
  | some e => some e
  | none => if isBlankText name then some (.missingName role) else none

namespace Start

def select : Start Selection := ⟨⟨[], 0, 0⟩, none⟩

def delete : Start Removal := ⟨⟨[]⟩, none⟩

def deleteAttributes (attributes : List String) : Start Removal :=
  ⟨⟨attributes⟩, attributes.foldl (requireName · "attribute") none⟩

def collection {κ : Type} (s : Start κ) (name : String) : Builder κ .target :=
  ⟨s.kind, name, none, .and, "", false, requireName s.error? "collection" name⟩

end Start

namespace Builder

variable {κ : Type} {phase : Phase}

private def openField (b : Builder κ phase) (connector : Connector) (name : String) :
    Builder κ .field :=
  ⟨b.kind, b.collection, b.condition, connector, name, b.negated,
    requireName b.error? "field" name⟩

def matching (b : Builder κ .target) (name : String) : Builder κ .field :=
  openField b .and name

def connect (b : Builder κ .filtered) (connector : Connector) (name : String) :
    Builder κ .field :=
  openField b connector name

def not (b : Builder κ .field) : Builder κ .field :=
  { b with negated := !b.negated }

def compare (b : Builder κ .field) (op : Operator) (operand : Value) : Builder κ .filtered :=
  let comparison := Condition.compare b.field op operand
  let next := if b.negated then .not comparison else comparison
  ⟨b.kind, b.collection, some (Condition.join b.condition b.connector next), b.connector, "",
    false, b.error?⟩

def between (b : Builder κ .field) (low high : Value) : Builder κ .filtered :=
  b.compare .between (.list [low, high])

def among (b : Builder κ .field) (values : List Value) : Builder κ .filtered :=
  b.compare .among (.list values)

def orderBy (b : Builder Selection phase) (name : String) (direction : Direction) :
    Builder Selection phase :=
  { b with
    kind := { b.kind with sorts := b.kind.sorts ++ [⟨name, direction⟩] }
    error? := requireName b.error? "attribute" name }

def skip (b : Builder Selection phase) (count : UInt64) : Builder Selection phase :=
  { b with kind := { b.kind with skip := count } }

def limit (b : Builder Selection phase) (count : UInt64) : Builder Selection phase :=
  { b with kind := { b.kind with limit := count } }

def build (b : Builder Selection phase) : Except QueryError Query :=
  match b.error? with
  | some e => .error e
  | none => .ok ⟨b.collection, b.condition, b.kind.sorts, b.kind.skip, b.kind.limit⟩

def buildDelete (b : Builder Removal phase) : Except QueryError DeleteQuery :=
  match b.error? with
  | some e => .error e
  | none => .ok ⟨b.collection, b.condition, b.kind.attributes⟩

end Builder
end RecordMapping
