import RecordMapping.Error
import RecordMapping.Query.Builder
/-!
Sessions: operations that ask a store for something and may fail. A chain that does not build asks
the store for nothing.
-/
namespace RecordMapping

/-- An operation on a store with states `σ`. What an operation did to the store before it failed
stays done. -/
abbrev Session (σ α : Type) := ExceptT Error (StateM σ) α

namespace Session

variable {σ α : Type}

def ask (call : σ → Except StoreError α × σ) : Session σ α := fun s =>
  let (answer, s) := call s
  (answer.mapError Error.store, s)

def ofResult (r : Except Error α) : Session σ α :=
  ExceptT.mk (pure r)

def ofMapping (r : Except MappingError α) : Session σ α :=
  ofResult (r.mapError Error.mapping)

def ofQuery (r : Except QueryError α) : Session σ α :=
  ofResult (r.mapError Error.query)

end Session

namespace Builder

variable {σ : Type} {phase : Phase}

def fetch (b : Builder Selection phase) (store : Store σ) : Session σ (List Record) := do
  Session.ask (store.select (← Session.ofQuery b.build))

def remove (b : Builder Removal phase) (store : Store σ) : Session σ UInt64 := do
  Session.ask (store.delete (← Session.ofQuery b.buildDelete))

end Builder
end RecordMapping
