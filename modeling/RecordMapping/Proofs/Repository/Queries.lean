import RecordMapping.Proofs.Encoding.Plain
import RecordMapping.Proofs.Query.WellFormed
import RecordMapping.Proofs.Repository.Operation
/-!
What repositories send to their stores, whatever the stores answer. No query has a condition that is
malformed or compares an attribute that the type does not store, but for the discriminator of a
subtype, which is the last thing that is asked for.
-/
namespace RecordMapping

open RecordMapping.Method

namespace Session

variable {σ α β : Type} {P : StoreCall → Prop}

def Sends (P : StoreCall → Prop) (x : Session (σ × List StoreCall) α) : Prop :=
  ∀ s earlier, ∃ calls, (x.answer (s, earlier)).2.2 = earlier ++ calls ∧ ∀ call ∈ calls, P call

theorem sends_ofResult (r : Except Error α) :
    Sends P (ofResult r : Session (σ × List StoreCall) α) :=
  fun _ earlier => ⟨[], (List.append_nil earlier).symm, fun _ h => absurd h List.not_mem_nil⟩

theorem sends_pure (a : α) : Sends P (pure a : Session (σ × List StoreCall) α) :=
  sends_ofResult (.ok a)

theorem sends_throw (e : Error) : Sends P (throw e : Session (σ × List StoreCall) α) :=
  sends_ofResult (.error e)

theorem sends_ask {operation : σ × List StoreCall → Except StoreError α × (σ × List StoreCall)}
    {call : StoreCall} (hnoted : ∀ s, (operation s).2.2 = s.2 ++ [call]) (h : P call) :
    Sends P (ask operation) :=
  fun s earlier => ⟨[call], hnoted (s, earlier), List.forall_mem_singleton.2 h⟩

theorem Sends.bind {x : Session (σ × List StoreCall) α} {f : α → Session (σ × List StoreCall) β}
    (hx : Sends P x) (hf : ∀ a s t, x.answer s = (.ok a, t) → Sends P (f a)) :
    Sends P (x >>= f) := by
  intro s earlier
  obtain ⟨calls, hcalls, hall⟩ := hx s earlier
  obtain ⟨reply, t, noted, hs⟩ : ∃ reply t noted, x.answer (s, earlier) = (reply, t, noted) :=
    ⟨_, _, _, rfl⟩
  rw [hs] at hcalls
  obtain rfl : noted = earlier ++ calls := hcalls
  cases reply with
  | error e => exact ⟨calls, by rw [answer_bind_error hs], hall⟩
  | ok a =>
    obtain ⟨more, hmore, hrest⟩ := hf a _ _ hs t (earlier ++ calls)
    refine ⟨calls ++ more, ?_, List.forall_mem_append.2 ⟨hall, hrest⟩⟩
    rw [answer_bind_ok hs, hmore, List.append_assoc]

end Session

/-- What a call asks for, unless it stores a record: a condition, or none. -/
def StoreCall.condition? : StoreCall → Option (Option Condition)
  | select q => some q.condition
  | count q => some q.condition
  | delete q => some q.condition
  | insert _ => none

namespace EntityMetadata

variable {m : EntityMetadata}

/-- What the repository of a type may ask for: something about attributes that the type stores, and
then, if it is a subtype, its discriminator in any case. -/
def Asks (m : EntityMetadata) (condition : Option Condition) : Prop :=
  match m.inheritance with
  | none => ∀ c ∈ condition, c.Concerns m.Stores
  | some i => let tag := Condition.compare i.discriminator .equals (.text i.value)
    condition = some tag ∨
      ∃ earlier, condition = some (.all [earlier, tag]) ∧ earlier.Concerns m.Stores

def Permits (m : EntityMetadata) (call : StoreCall) : Prop :=
  ∀ condition ∈ call.condition?, (∀ c ∈ condition, c.WellFormed) ∧ m.Asks condition

theorem wellFormed_scope {condition : Option Condition}
    (h : ∀ c ∈ condition, c.WellFormed ∧ c.Concerns m.Stores) :
    (∀ c ∈ m.scope condition, c.WellFormed) ∧ m.Asks (m.scope condition) := by
  rw [scope, Asks]
  cases m.inheritance with
  | none => exact ⟨fun c hc => (h c hc).1, fun c hc => (h c hc).2⟩
  | some i =>
    have htag : (Condition.compare i.discriminator .equals (.text i.value)).WellFormed :=
      List.forall_mem_singleton.2 trivial
    cases condition with
    | none =>
      refine ⟨fun c hc => ?_, .inl rfl⟩
      obtain rfl := Option.some.inj hc
      exact htag
    | some earlier =>
      obtain ⟨hformed, hconcerns⟩ := h earlier rfl
      refine ⟨fun c hc => ?_, .inr ⟨earlier, rfl, hconcerns⟩⟩
      obtain rfl := Option.some.inj hc
      exact Condition.wellFormed_pair .and hformed htag trivial

end EntityMetadata

namespace Repository

open Session

variable {σ α : Type} {r : Repository} (store : Store σ)

theorem sends_condition
    {operation : σ × List StoreCall → Except StoreError α × (σ × List StoreCall)} {call : StoreCall}
    {condition : Option Condition} (hnoted : ∀ s, (operation s).2.2 = s.2 ++ [call])
    (hcall : call.condition? = some condition)
    (h : (∀ c ∈ condition, c.WellFormed) ∧ r.metadata.Asks condition) :
    Sends r.metadata.Permits (ask operation) := by
  refine sends_ask hnoted fun other hother => ?_
  obtain rfl := Option.some.inj (hcall.symm.trans hother)
  exact h

theorem condition_of_idQuery {id : Value} {q : Query} (h : r.idQuery id = .ok q) :
    (∀ c ∈ q.condition, c.WellFormed) ∧ r.metadata.Asks q.condition := by
  obtain ⟨f, hf, operand, rfl⟩ := idQuery_ok h
  refine EntityMetadata.wellFormed_scope fun c hc => ?_
  obtain rfl := Option.some.inj hc
  refine ⟨List.forall_mem_singleton.2 trivial, fun name op operand hnode => ?_⟩
  obtain ⟨rfl, _⟩ := Condition.compare.inj (List.mem_singleton.1 hnode)
  exact ⟨f, hf, rfl⟩

theorem sends_idQuery {id : Value} {f : Query → Session (σ × List StoreCall) α}
    (hf : ∀ q : Query, (∀ c ∈ q.condition, c.WellFormed) ∧ r.metadata.Asks q.condition →
      Sends r.metadata.Permits (f q)) :
    Sends r.metadata.Permits (ofResult (r.idQuery id) >>= f) := by
  refine (sends_ofResult _).bind fun q s t hq => hf q ?_
  rw [answer_ofResult] at hq
  exact condition_of_idQuery (Prod.mk.inj hq).1

theorem sends_save (e : Entity) : Sends r.metadata.Permits (r.save store.journaled e) := by
  refine (sends_ofResult _).bind fun record _ _ _ => ?_
  refine Sends.bind (sends_ask (fun _ => rfl) fun _ h => nomatch h) fun _ _ _ _ => ?_
  exact sends_ofResult _

theorem sends_findById (id : Value) :
    Sends r.metadata.Permits (r.findById store.journaled id) := by
  refine sends_idQuery fun q hq => ?_
  refine (sends_condition (fun _ => rfl) rfl hq).bind fun records _ _ _ => ?_
  cases records with
  | nil => exact sends_pure none
  | cons record rest => exact (sends_ofResult _).bind fun _ _ _ _ => sends_pure _

theorem sends_existsById (id : Value) :
    Sends r.metadata.Permits (r.existsById store.journaled id) :=
  sends_idQuery fun _ hq => (sends_condition (fun _ => rfl) rfl hq).bind
    fun _ _ _ _ => sends_pure _

theorem sends_deleteById (id : Value) :
    Sends r.metadata.Permits (r.deleteById store.journaled id) :=
  sends_idQuery fun _ hq => sends_condition (fun _ => rfl) rfl hq

theorem condition_of_collectionQuery :
    (∀ c ∈ (r.collectionQuery none).condition, c.WellFormed) ∧
      r.metadata.Asks (r.collectionQuery none).condition :=
  EntityMetadata.wellFormed_scope fun _ h => nomatch h

theorem sends_count : Sends r.metadata.Permits (r.count store.journaled) :=
  sends_condition (fun _ => rfl) rfl condition_of_collectionQuery

theorem sends_findAll (p : Pageable) :
    Sends r.metadata.Permits (r.findAll store.journaled p) := by
  refine Sends.bind (sends_condition (fun _ => rfl) rfl condition_of_collectionQuery)
    fun _ _ _ _ => ?_
  exact (sends_ofResult _).bind fun _ _ _ _ => sends_pure _

theorem sends_run {request : Request}
    (h : ∀ c ∈ request.query.condition, c.WellFormed ∧ c.Concerns r.metadata.Stores) :
    Sends r.metadata.Permits (r.run store.journaled request) := by
  have hscope := EntityMetadata.wellFormed_scope h
  rw [run]
  cases request.action with
  | find =>
    refine Sends.bind (sends_condition (fun _ => rfl) rfl hscope) fun records _ _ _ => ?_
    refine (sends_ofResult _).bind fun es _ _ _ => ?_
    cases request.page with
    | none => exact sends_pure _
    | some p => exact sends_pure _
  | count => exact (sends_condition (fun _ => rfl) rfl hscope).bind fun _ _ _ _ => sends_pure _
  | exist => exact (sends_condition (fun _ => rfl) rfl hscope).bind fun _ _ _ _ => sends_pure _
  | delete => exact (sends_condition (fun _ => rfl) rfl hscope).bind fun _ _ _ _ => sends_pure _

variable {m : Mapping} {type : String} {methods : List String}
  (hr : connect m type methods = .ok r)
include hr

theorem sends_invoke (call : Invocation) :
    Sends r.metadata.Permits (r.invoke store.journaled call) := by
  obtain ⟨_, _, htable⟩ := connect_eq_ok_iff.1 hr
  rw [invoke]
  cases ht : Named.lookup call.method r.methods with
  | none => exact sends_throw _
  | some t =>
    obtain ⟨_, hcompile⟩ := (MethodTable.lookup_of_compile htable).1 ht
    refine (sends_ofResult _).bind fun request _ _ hrequest => sends_run store ?_
    exact Template.wellFormed_of_assemble hcompile (ok_of_mapError (Prod.mk.inj hrequest).1)

theorem sends_operation (op : Operation) :
    Sends r.metadata.Permits (op.run r store.journaled) := by
  cases op with
  | save e => exact (sends_save store e).bind fun _ _ _ _ => sends_pure _
  | findById id => exact (sends_findById store id).bind fun _ _ _ _ => sends_pure _
  | existsById id => exact (sends_existsById store id).bind fun _ _ _ _ => sends_pure _
  | deleteById id => exact (sends_deleteById store id).bind fun _ _ _ _ => sends_pure _
  | count => exact (sends_count store).bind fun _ _ _ _ => sends_pure _
  | findAll p => exact (sends_findAll store p).bind fun _ _ _ _ => sends_pure _
  | invoke call => exact (sends_invoke store hr call).bind fun _ _ _ _ => sends_pure _

end Repository

/-- All queries are well-formed, whether a method, a chain or a repository makes them. Methods ask
about attributes that their types store, and so do repositories, which ask for the discriminators of
subtypes last. -/
theorem queries_wellFormed :
    (∀ {method : String} {metadata : EntityMetadata} {settings : Settings} {t : Template},
      Template.compile method metadata settings = .ok t → ∀ arguments request,
      t.assemble arguments = .ok request →
        ∀ c ∈ request.query.condition, c.WellFormed ∧ c.Concerns metadata.Stores) ∧
    (∀ {phase : Phase} (chain : Chain .selection phase) (q : Query), chain.builder.build = .ok q →
      ∀ c ∈ q.condition, c.WellFormed) ∧
    (∀ {phase : Phase} (chain : Chain .removal phase) (q : DeleteQuery),
      chain.builder.buildDelete = .ok q → ∀ c ∈ q.condition, c.WellFormed) ∧
    ∀ {m : Mapping} {type : String} {methods : List String} {r : Repository},
      Repository.connect m type methods = .ok r →
        ∀ {σ : Type} (store : Store σ) (op : Operation) (s : σ),
          ∀ call ∈ ((op.run r store.journaled).answer (s, [])).2.2,
            ∀ condition ∈ call.condition?,
              (∀ c ∈ condition, c.WellFormed) ∧ r.metadata.Asks condition := by
  refine ⟨fun ht _ _ hq => Template.wellFormed_of_assemble ht hq,
    fun _ _ hq => Chain.wellFormed_of_build hq, fun _ _ hq => Chain.wellFormed_of_buildDelete hq,
    fun hr _ store op s => ?_⟩
  obtain ⟨calls, hcalls, hpermits⟩ := Repository.sends_operation store hr op s []
  rw [hcalls]
  exact hpermits

open Declaration in
theorem cards_asked_for :
    (let c := Condition.all [.among "text" [.text "a", .text "7"],
        .between "text" (.text "a") (.text "d")]
     c.WellFormed ∧ c.Concerns (mailType "Card" "post::Card").metadata.Stores) ∧
    (let c := Condition.any [.not (.between "text" (.text "a") (.text "d")),
        .among "text" [.text "b"]]
     c.WellFormed) ∧
    ∃ cards, Repository.connect Mapping.mailing "post::Card" ["deleteByTextOrText"] = .ok cards ∧
      let c := Condition.all [.any [.compare "text" .equals (.text "a"),
        .compare "text" .equals (.text "b")], .compare "dtype" .equals (.text "Card")]
      c.WellFormed ∧ cards.metadata.Asks (some c) := by
  obtain ⟨hmethod, hselection, _, hrepository⟩ := queries_wellFormed
  obtain ⟨t, request, hcompile, hassemble, hrequest⟩ : ∃ t request,
      Template.compile "findByTextInAndTextBetween" (mailType "Card" "post::Card").metadata
        Settings.standard = .ok t ∧
      t.assemble [.value (.list [.text "a", .uint 7]), .value (.text "a"), .value (.text "d")] =
        .ok request ∧
      request.query.condition = some (.all [.among "text" [.text "a", .text "7"],
        .between "text" (.text "a") (.text "d")]) :=
    ⟨_, _, by cbv, by cbv, by cbv⟩
  obtain ⟨cards, hconnect, hcalls⟩ : ∃ cards,
      Repository.connect Mapping.mailing "post::Card" ["deleteByTextOrText"] = .ok cards ∧
      (((Operation.invoke ⟨"deleteByTextOrText", [.value (.text "a"), .value (.text "b")]⟩).run
        cards Memory.store.journaled).answer ([], [])).2.2 =
          [.delete ⟨"Mail", some (.all [.any [.compare "text" .equals (.text "a"),
            .compare "text" .equals (.text "b")], .compare "dtype" .equals (.text "Card")]), []⟩] :=
    ⟨_, by cbv, by cbv⟩
  have hcall := hrepository hconnect Memory.store
    (.invoke ⟨"deleteByTextOrText", [.value (.text "a"), .value (.text "b")]⟩) []
  rw [hcalls, List.forall_mem_singleton] at hcall
  obtain ⟨hformed, hasks⟩ := hcall _ rfl
  refine ⟨hmethod hcompile _ request hassemble _ hrequest, ?_, cards, hconnect, hformed _ rfl,
    hasks⟩
  exact hselection (((Chain.select "Mail").matching
    ⟨"text", 1, .between (.text "a") (.text "d")⟩).connect .or ⟨"text", 2, .among [.text "b"]⟩)
    _ rfl _ rfl

end RecordMapping
