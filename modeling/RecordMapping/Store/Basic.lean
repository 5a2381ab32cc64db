import RecordMapping.Query.Basic
import RecordMapping.Record
/-!
Stores: whatever keeps records and answers queries. A store is given by its operations on a state,
and a journal of it notes every call.
-/
namespace RecordMapping

structure StoreError where
  detail : String
  cause? : Option String
deriving DecidableEq

def StoreError.message (e : StoreError) : String :=
  "driver error: " ++ e.detail

structure Store (σ : Type) where
  /-- The matching records in the order of the query, within its window. -/
  select : Query → σ → Except StoreError (List Record) × σ
  /-- How many records match, whatever the window. -/
  count : Query → σ → Except StoreError UInt64 × σ
  /-- How many records were deleted or changed. -/
  delete : DeleteQuery → σ → Except StoreError UInt64 × σ
  /-- The record as it was stored. -/
  insert : Record → σ → Except StoreError Record × σ

inductive StoreCall where
  | select (q : Query)
  | count (q : Query)
  | delete (q : DeleteQuery)
  | insert (r : Record)

def Store.journaled {σ : Type} (store : Store σ) : Store (σ × List StoreCall) where
  select q s := let (r, t) := store.select q s.1; (r, t, s.2 ++ [.select q])
  count q s := let (r, t) := store.count q s.1; (r, t, s.2 ++ [.count q])
  delete q s := let (r, t) := store.delete q s.1; (r, t, s.2 ++ [.delete q])
  insert record s := let (r, t) := store.insert record s.1; (r, t, s.2 ++ [.insert record])

end RecordMapping
