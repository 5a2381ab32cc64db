import RecordMapping.Proofs.Method.Assembly
import RecordMapping.Proofs.Method.Compiled
import RecordMapping.Proofs.Store.Confined
/-!
The operations of a repository. Each of them is confined to the records that the repository sees:
those of its collection and, if its type is a subtype, with its discriminator.
-/
namespace RecordMapping

open RecordMapping.Method

inductive Operation where
  | save (e : Entity)
  | findById (id : Value)
  | existsById (id : Value)
  | deleteById (id : Value)
  | count
  | findAll (p : Pageable)
  | invoke (call : Invocation)

/-- What an operation answers. -/
inductive Reply where
  | stored (e : Entity)
  | maybe (e : Option Entity)
  | whether (b : Bool)
  | count (n : UInt64)
  | page (p : Page Entity)
  | outcome (o : Outcome)

def Operation.run {σ : Type} (r : Repository) (store : Store σ) : Operation → Session σ Reply
  | .save e => do return .stored (← r.save store e)
  | .findById id => do return .maybe (← r.findById store id)
  | .existsById id => do return .whether (← r.existsById store id)
  | .deleteById id => do return .count (← r.deleteById store id)
  | .count => do return .count (← r.count store)
  | .findAll p => do return .page (← r.findAll store p)
  | .invoke call => do return .outcome (← r.invoke store call)

theorem Value.same_text_iff {v : Value} {s : String} : v.same (.text s) = true ↔ v = .text s := by
  cases v <;> simp [same]

theorem Memory.isSame_text_iff {value : Option Value} {s : String} :
    isSame value (.text s) = true ↔ value = some (.text s) := by
  cases value with
  | none => simp [isSame]
  | some v => rw [isSame, Value.same_text_iff, Option.some.injEq]

namespace EntityMetadata

theorem all_scope_iff {m : EntityMetadata} {i : Inheritance} (h : m.inheritance = some i)
    {condition : Option Condition} {record : Record} :
    (m.scope condition).all (Memory.satisfies record) = true ↔
      condition.all (Memory.satisfies record) = true ∧
        record.find? i.discriminator = some (.text i.value) := by
  rw [scope, h]
  cases condition with
  | none => simp [Condition.join, Memory.satisfies, Memory.holds, Memory.isSame_text_iff]
  | some c =>
    simp [Condition.join, Condition.pair, Memory.satisfies, Memory.satisfiesAll, Memory.holds,
      Memory.isSame_text_iff]

def sees (m : EntityMetadata) (record : Record) : Bool :=
  Memory.isMatch m.collection (m.scope none) record

theorem isMatch_scope (m : EntityMetadata) (c : Condition) (record : Record) :
    Memory.isMatch m.collection (m.scope (some c)) record =
      (m.sees record && Memory.satisfies record c) := by
  cases hi : m.inheritance with
  | none => simp [sees, Memory.isMatch, scope, hi]
  | some i =>
    simp only [sees, Memory.isMatch, scope, hi, Condition.join, Condition.pair, Option.all_some,
      Memory.satisfies, Memory.satisfiesAll, Bool.and_true]
    rw [Bool.and_assoc, Bool.and_comm (Memory.satisfies record c)]

theorem sees_of_isMatch {m : EntityMetadata} {condition : Option Condition} {record : Record}
    (h : Memory.isMatch m.collection (m.scope condition) record = true) :
    m.sees record = true := by
  cases condition with
  | none => exact h
  | some c =>
    rw [isMatch_scope, Bool.and_eq_true] at h
    exact h.1

end EntityMetadata

namespace MethodTable

theorem mem_insert {name : String} {t : Template} {table : MethodTable} {entry : Named Template}
    (h : entry ∈ insert name t table) : entry.value = t ∨ entry ∈ table := by
  induction table with
  | nil => exact .inl (by rw [List.mem_singleton.1 h])
  | cons first rest ih =>
    rw [insert] at h
    split at h
    · rcases List.mem_cons.1 h with rfl | h
      · exact .inl rfl
      · exact .inr (List.mem_cons_of_mem first h)
    · split at h
      · rcases List.mem_cons.1 h with rfl | h
        · exact .inl rfl
        · exact .inr h
      · rcases List.mem_cons.1 h with rfl | h
        · exact .inr List.mem_cons_self
        · exact (ih h).imp_right (List.mem_cons_of_mem first)

theorem collection_of_mem_compile {metadata : EntityMetadata} {settings : Settings}
    {methods : List String} {table : MethodTable}
    (h : compile metadata settings methods = .ok table) :
    ∀ entry ∈ table, entry.value.collection = metadata.collection := by
  suffices hfold : ∀ start : MethodTable,
      (∀ entry ∈ start, entry.value.collection = metadata.collection) →
      methods.foldlM (fun table method => do
        let t ← Template.compile method metadata settings
        return insert method t table) start = .ok table →
      ∀ entry ∈ table, entry.value.collection = metadata.collection by
    exact hfold [] (by simp) h
  clear h
  induction methods with
  | nil =>
    intro start hstart h
    exact Except.ok.inj h ▸ hstart
  | cons method rest ih =>
    intro start hstart h
    rw [List.foldlM_cons] at h
    cases ht : Template.compile method metadata settings with
    | error e => simp [ht, bind, Except.bind] at h
    | ok t =>
      simp only [ht, bind, Except.bind, pure, Except.pure] at h
      refine ih (insert method t start) (fun entry hentry => ?_) h
      rcases mem_insert hentry with rfl | hentry
      · exact Template.collection_of_compile ht
      · exact hstart entry hentry

end MethodTable

namespace Repository

open Session

variable {r : Repository}

def Compiled (r : Repository) : Prop :=
  ∀ entry ∈ r.methods, entry.value.collection = r.metadata.collection

theorem connect_ok {m : Mapping} {type : String} {methods : List String}
    (h : connect m type methods = .ok r) :
    r.mapping = m ∧ m.catalog.entry? type = some r.entry ∧ r.Compiled := by
  obtain ⟨hmapping, hentry, htable⟩ := connect_eq_ok_iff.1 h
  exact ⟨hmapping, hentry, MethodTable.collection_of_mem_compile htable⟩

theorem idQuery_ok {id : Value} {q : Query} (h : r.idQuery id = .ok q) :
    ∃ f ∈ r.metadata.fields, ∃ operand,
      q = r.collectionQuery (some (.compare f.nativeName .equals operand)) := by
  cases hf : r.metadata.id? with
  | none => simp [idQuery, hf] at h
  | some f =>
    simp only [idQuery, hf] at h
    split at h
    · cases h
    · exact ⟨f, List.mem_of_find?_eq_some hf, _, (Except.ok.inj h).symm⟩

theorem confined_idQuery {α : Type} {id : Value} {f : Query → Session (List Record) α}
    (hf : ∀ condition, Confined r.metadata.sees (f (r.collectionQuery condition))) :
    Confined r.metadata.sees (ofResult (r.idQuery id) >>= f) := by
  refine (confined_ofResult _).bind fun q s t hq => ?_
  rw [answer_ofResult] at hq
  obtain ⟨_, _, _, rfl⟩ := idQuery_ok (Prod.mk.inj hq).1
  exact hf _

theorem confined_save {e : Entity}
    (h : ∀ record, r.mapping.toRecord e = .ok record → r.metadata.sees record = true) :
    Confined r.metadata.sees (r.save Memory.store e) := by
  refine (confined_ofResult _).bind fun record s t hr => ?_
  have hrecord := h record (ok_of_mapError (Prod.mk.inj hr).1)
  exact (Memory.confined_insert hrecord).bind fun _ _ _ _ => confined_ofResult _

theorem confined_findById (id : Value) :
    Confined r.metadata.sees (r.findById Memory.store id) := by
  refine confined_idQuery fun condition => ?_
  refine (Memory.confined_select fun _ h => EntityMetadata.sees_of_isMatch h).bind
    fun records _ _ _ => ?_
  cases records with
  | nil => exact confined_pure none
  | cons record rest => exact (confined_ofResult _).bind fun _ _ _ _ => confined_pure _

theorem confined_existsById (id : Value) :
    Confined r.metadata.sees (r.existsById Memory.store id) :=
  confined_idQuery fun _ => (Memory.confined_count fun _ h => EntityMetadata.sees_of_isMatch h).bind
    fun _ _ _ _ => confined_pure _

theorem confined_deleteById (id : Value) :
    Confined r.metadata.sees (r.deleteById Memory.store id) :=
  confined_idQuery fun _ => Memory.confined_delete fun _ h => EntityMetadata.sees_of_isMatch h

theorem confined_count : Confined r.metadata.sees (r.count Memory.store) :=
  Memory.confined_count fun _ h => EntityMetadata.sees_of_isMatch h

theorem confined_findAll (p : Pageable) : Confined r.metadata.sees (r.findAll Memory.store p) := by
  refine (Memory.confined_select fun _ h => EntityMetadata.sees_of_isMatch h).bind
    fun records _ _ _ => ?_
  exact (confined_ofResult _).bind fun _ _ _ _ => confined_pure _

theorem confined_run {request : Request} (h : request.query.collection = r.metadata.collection) :
    Confined r.metadata.sees (r.run Memory.store request) := by
  have hsees : ∀ record, Memory.isMatch request.query.collection
      (r.metadata.scope request.query.condition) record = true → r.metadata.sees record = true := by
    intro record hmatch
    rw [h] at hmatch
    exact EntityMetadata.sees_of_isMatch hmatch
  rw [run]
  cases request.action with
  | find =>
    refine (Memory.confined_select hsees).bind fun records _ _ _ => ?_
    refine (confined_ofResult _).bind fun es _ _ _ => ?_
    cases request.page with
    | none => exact confined_pure _
    | some p => exact confined_pure _
  | count => exact (Memory.confined_count hsees).bind fun _ _ _ _ => confined_pure _
  | exist => exact (Memory.confined_count hsees).bind fun _ _ _ _ => confined_pure _
  | delete => exact (Memory.confined_delete hsees).bind fun _ _ _ _ => confined_pure _

theorem confined_invoke (hr : r.Compiled) (call : Invocation) :
    Confined r.metadata.sees (r.invoke Memory.store call) := by
  rw [invoke]
  cases ht : Named.lookup call.method r.methods with
  | none => exact confined_throw _
  | some t =>
    refine (confined_ofResult _).bind fun request s _ hq => confined_run ?_
    obtain ⟨_, _, _, rfl⟩ := Template.assemble_eq_ok_iff.1 (ok_of_mapError (Prod.mk.inj hq).1)
    exact hr _ (Named.mem_of_lookup ht)

end Repository

/-- Every operation is confined to the records of its repository, provided that what it saves
becomes one of them. -/
theorem Operation.confined {r : Repository} (hr : r.Compiled) (op : Operation)
    (hsave : ∀ e record, op = .save e → r.mapping.toRecord e = .ok record →
      r.metadata.sees record = true) :
    Session.Confined r.metadata.sees (op.run r Memory.store) := by
  cases op with
  | save e =>
    exact (r.confined_save fun record h => hsave e record rfl h).bind
      fun _ _ _ _ => Session.confined_pure _
  | findById id => exact (r.confined_findById id).bind fun _ _ _ _ => Session.confined_pure _
  | existsById id => exact (r.confined_existsById id).bind fun _ _ _ _ => Session.confined_pure _
  | deleteById id => exact (r.confined_deleteById id).bind fun _ _ _ _ => Session.confined_pure _
  | count => exact r.confined_count.bind fun _ _ _ _ => Session.confined_pure _
  | findAll p => exact (r.confined_findAll p).bind fun _ _ _ _ => Session.confined_pure _
  | invoke call => exact (r.confined_invoke hr call).bind fun _ _ _ _ => Session.confined_pure _

end RecordMapping
