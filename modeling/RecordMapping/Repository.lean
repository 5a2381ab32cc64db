import RecordMapping.Conversion.Basic
import RecordMapping.Method.Template
import RecordMapping.Session
/-!
Repositories: the entities of one type kept in a store. Every operation that reads, counts or
deletes the records of a subtype asks for its discriminator too, outside of all other conditions,
and nothing is asked of the store before a query is complete.
-/
namespace RecordMapping

open RecordMapping.Method

abbrev MethodTable := List (Named Template)

namespace MethodTable

/-- Puts a template in its place, where it replaces one of the same name. -/
def insert (name : String) (t : Template) : MethodTable → MethodTable
  | [] => [⟨name, t⟩]
  | entry :: rest =>
    if name = entry.name then ⟨name, t⟩ :: rest
    else if name < entry.name then ⟨name, t⟩ :: entry :: rest
    else entry :: insert name t rest

/-- The table of the given methods, or the error of the first one that is no method name. -/
def compile (metadata : EntityMetadata) (settings : Settings) (methods : List String) :
    Except QueryError MethodTable :=
  methods.foldlM (fun table method => do
    let t ← Template.compile method metadata settings
    return insert method t table) []

end MethodTable

structure Repository where
  mapping : Mapping
  entry : CatalogEntry
  methods : MethodTable

inductive Outcome where
  | entities (es : List Entity)
  | page (p : Page Entity)
  | count (n : UInt64)
  | found (b : Bool)
  | deleted (n : UInt64)

namespace EntityMetadata

/-- The condition that a record is of this subtype, joined onto another one. -/
def scope (m : EntityMetadata) (condition : Option Condition) : Option Condition :=
  match m.inheritance with
  | some i =>
    some (Condition.join condition .and (.compare i.discriminator .equals (.text i.value)))
  | none => condition

end EntityMetadata

namespace Repository

variable {σ : Type}

def connect (m : Mapping) (type : String) (methods : List String) : Except Error Repository := do
  let entry ← (m.entry type).mapError Error.mapping
  let table ← (MethodTable.compile entry.metadata m.catalog.settings methods).mapError Error.query
  return ⟨m, entry, table⟩

def metadata (r : Repository) : EntityMetadata :=
  r.entry.metadata

def readAll (r : Repository) : List Record → Except MappingError (List Entity)
  | [] => .ok []
  | record :: rest => do
    let e ← r.mapping.toEntity r.metadata.type record
    return e :: (← r.readAll rest)

def collectionQuery (r : Repository) (condition : Option Condition) : Query :=
  { Query.ofCollection r.metadata.collection with condition := r.metadata.scope condition }

def idQuery (r : Repository) (id : Value) : Except Error Query :=
  match r.metadata.id? with
  | none => .error (.mapping (.missingId r.metadata.type))
  | some f =>
    let coerced : Except CoercionError Value := match f.valueKind with
      | some kind => id.coerce kind
      | none => .ok id
    match coerced with
    | .error e => .error (.query (.coercion f.name e))
    | .ok id => .ok (r.collectionQuery (some (.compare f.nativeName .equals id)))

/-- Stores an entity, which is returned as it was stored. -/
def save (r : Repository) (store : Store σ) (e : Entity) : Session σ Entity := do
  let record ← Session.ofMapping (r.mapping.toRecord e)
  let stored ← Session.ask (store.insert record)
  Session.ofMapping (r.mapping.toEntity r.metadata.type stored)

def findById (r : Repository) (store : Store σ) (id : Value) : Session σ (Option Entity) := do
  let q ← Session.ofResult (r.idQuery id)
  let records ← Session.ask (store.select { q with skip := 0, limit := 1 })
  match records with
  | [] => return none
  | record :: _ => return some (← Session.ofMapping (r.mapping.toEntity r.metadata.type record))

def existsById (r : Repository) (store : Store σ) (id : Value) : Session σ Bool := do
  let q ← Session.ofResult (r.idQuery id)
  return 0 < (← Session.ask (store.count q))

def deleteById (r : Repository) (store : Store σ) (id : Value) : Session σ UInt64 := do
  let q ← Session.ofResult (r.idQuery id)
  Session.ask (store.delete q.deletion)

def count (r : Repository) (store : Store σ) : Session σ UInt64 :=
  Session.ask (store.count (r.collectionQuery none))

def findAll (r : Repository) (store : Store σ) (p : Pageable) : Session σ (Page Entity) := do
  let q := { r.collectionQuery none with sorts := p.sorts, skip := p.skip, limit := p.size }
  let records ← Session.ask (store.select q)
  return ⟨← Session.ofMapping (r.readAll records), p⟩

def run (r : Repository) (store : Store σ) (request : Request) : Session σ Outcome := do
  let q := { request.query with condition := r.metadata.scope request.query.condition }
  match request.action with
  | .find =>
    let es ← Session.ofMapping (r.readAll (← Session.ask (store.select q)))
    match request.page with
    | some p => return .page ⟨es, p⟩
    | none => return .entities es
  | .count => return .count (← Session.ask (store.count q))
  | .exist => return .found (0 < (← Session.ask (store.count q)))
  | .delete => return .deleted (← Session.ask (store.delete q.deletion))

def invoke (r : Repository) (store : Store σ) (call : Invocation) : Session σ Outcome := do
  match Named.lookup call.method r.methods with
  | none => throw (.query (.unknownMethod call.method))
  | some t => r.run store (← Session.ofQuery (t.assemble call.arguments))

end Repository
end RecordMapping
