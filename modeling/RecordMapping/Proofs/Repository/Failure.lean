import RecordMapping.Proofs.Repository.Identity
/-!
What a failed operation leaves behind. A query is complete before the store is asked for anything,
and a store in memory never fails itself, so that only saving can fail after the store has changed:
a record is read again after it was stored, and it stays there if that fails.
-/
namespace RecordMapping

open Catalog

namespace Session

variable {σ α β : Type} {x : Session σ α} {f : α → Session σ β}

def Still (x : Session σ α) : Prop :=
  ∀ s, (x.answer s).2 = s

def Careful (x : Session σ α) : Prop :=
  ∀ s e t, x.answer s = (.error e, t) → t = s

theorem Still.careful (h : Still x) : Careful x := by
  intro s e t he
  have hs := h s
  rwa [he] at hs

theorem still_ofResult (r : Except Error α) : Still (ofResult r : Session σ α) := fun _ => rfl

theorem still_pure (a : α) : Still (pure a : Session σ α) := fun _ => rfl

theorem still_throw (e : Error) : Still (throw e : Session σ α) := fun _ => rfl

theorem Still.bind (hx : Still x) (hf : ∀ a, Still (f a)) : Still (x >>= f) := by
  intro s
  have hs := hx s
  cases h : x.answer s with
  | mk result t =>
    rw [h] at hs
    obtain rfl : t = s := hs
    cases result with
    | error e => rw [answer_bind_error h]
    | ok a => rw [answer_bind_ok h, hf a]

theorem Still.bind_careful (hx : Still x) (hf : ∀ a, Careful (f a)) : Careful (x >>= f) := by
  intro s e t he
  have hs := hx s
  cases h : x.answer s with
  | mk result u =>
    rw [h] at hs
    obtain rfl : u = s := hs
    cases result with
    | error cause =>
      rw [answer_bind_error h] at he
      exact (Prod.mk.inj he).2.symm
    | ok a =>
      rw [answer_bind_ok h] at he
      exact hf a u e t he

theorem Careful.bind_pure (hx : Careful x) (g : α → β) : Careful (x >>= fun a => pure (g a)) := by
  intro s e t he
  cases h : x.answer s with
  | mk result u =>
    cases result with
    | error cause =>
      rw [answer_bind_error h] at he
      obtain ⟨_, rfl⟩ := Prod.mk.inj he
      exact hx s cause u h
    | ok a =>
      rw [answer_bind_ok h] at he
      cases he

end Session

open Session

namespace Memory

theorem still_select (q : Query) : Still (ask (store.select q)) := fun _ => rfl

theorem still_count (q : Query) : Still (ask (store.count q)) := fun _ => rfl

theorem careful_delete (q : DeleteQuery) : Careful (ask (store.delete q)) := by
  intro s e t he
  cases he

end Memory

namespace Repository

variable {r : Repository}

theorem still_findById (id : Value) : Still (r.findById Memory.store id) := by
  refine (still_ofResult _).bind fun q => (Memory.still_select _).bind fun records => ?_
  cases records with
  | nil => exact still_pure none
  | cons record rest => exact (still_ofResult _).bind fun _ => still_pure _

theorem still_existsById (id : Value) : Still (r.existsById Memory.store id) :=
  (still_ofResult _).bind fun _ => (Memory.still_count _).bind fun _ => still_pure _

theorem careful_deleteById (id : Value) : Careful (r.deleteById Memory.store id) :=
  (still_ofResult _).bind_careful fun _ => Memory.careful_delete _

theorem still_findAll (p : Pageable) : Still (r.findAll Memory.store p) :=
  (Memory.still_select _).bind fun _ => (still_ofResult _).bind fun _ => still_pure _

theorem careful_run (request : Method.Request) : Careful (r.run Memory.store request) := by
  rw [run]
  cases request.action with
  | find =>
    refine Still.careful ((Memory.still_select _).bind fun records =>
      (still_ofResult _).bind fun es => ?_)
    cases request.page with
    | none => exact still_pure _
    | some p => exact still_pure _
  | count => exact Still.careful ((Memory.still_count _).bind fun _ => still_pure _)
  | exist => exact Still.careful ((Memory.still_count _).bind fun _ => still_pure _)
  | delete => exact (Memory.careful_delete _).bind_pure _

theorem careful_invoke (call : Method.Invocation) : Careful (r.invoke Memory.store call) := by
  rw [invoke]
  cases Named.lookup call.method r.methods with
  | none => exact (still_throw _).careful
  | some t => exact (still_ofResult _).bind_careful careful_run

end Repository

/-- Every operation but saving leaves the store alone if it fails. -/
theorem Operation.careful (r : Repository) {op : Operation} (hop : ∀ e, op ≠ .save e) :
    Careful (op.run r Memory.store) := by
  cases op with
  | save e => exact absurd rfl (hop e)
  | findById id => exact (r.still_findById id).careful.bind_pure _
  | existsById id => exact (r.still_existsById id).careful.bind_pure _
  | deleteById id => exact (r.careful_deleteById id).bind_pure _
  | count => exact (Memory.still_count _).careful.bind_pure _
  | findAll p => exact (r.still_findAll p).careful.bind_pure _
  | invoke call => exact (r.careful_invoke call).bind_pure _

theorem Operation.answer_save (r : Repository) (e : Entity) (records : List Record) :
    ((Operation.save e).run r Memory.store).answer records = match r.mapping.toRecord e with
      | .error cause => (.error (.mapping cause), records)
      | .ok record => (((r.mapping.toEntity r.metadata.type record).map Reply.stored).mapError
        Error.mapping, records ++ [record]) := by
  have hsave := r.answer_save e records
  rw [Operation.run]
  cases hrecord : r.mapping.toRecord e with
  | error cause =>
    rw [hrecord] at hsave
    exact answer_bind_error hsave _
  | ok record =>
    rw [hrecord] at hsave
    simp only at hsave ⊢
    cases hback : r.mapping.toEntity r.metadata.type record with
    | error cause =>
      rw [hback] at hsave
      exact answer_bind_error hsave _
    | ok back =>
      rw [hback] at hsave
      exact answer_bind_ok hsave _

/-- A typed entity of a declared type is saved without fail, whatever its fields hold. -/
theorem Mapping.Sound.saves {m : Mapping} (hm : m.Sound) (hp : m.catalog.FlattensPlain)
    {type : String} {methods : List String} {r : Repository}
    (hr : Repository.connect m type methods = .ok r) {e : Entity} (he : m.schema.Typed e)
    (htype : e.type = type) (records : List Record) :
    ∃ back record, ((Operation.save e).run r Memory.store).answer records =
      (.ok (.stored back), records ++ [record]) := by
  obtain ⟨rfl, hx, _⟩ := Repository.connect_eq_ok_iff.1 hr
  subst htype
  obtain ⟨record, back, hrecord, hback, _⟩ := hm.exists_restored hp hx he
  rw [← (entry?_mem hx).2] at hback
  refine ⟨back, record, ?_⟩
  rw [Operation.answer_save, hrecord]
  exact congrArg (fun answer => ((answer.map Reply.stored).mapError Error.mapping, _)) hback

/-- A failed operation leaves the store as it was, unless it saved an entity whose record was stored
and cannot be read again: that record stays. Where the types are declared and no subtype is
flattened, this does not happen. -/
theorem Repository.failed_leaves_records {settings : Settings} {given : List EntityMetadata}
    {m : Mapping} (hb : Catalog.build settings given = .ok m.catalog) {type : String}
    {methods : List String} {r : Repository} (hr : connect m type methods = .ok r)
    (op : Operation) (records : List Record) :
    (∀ err after, (op.run r Memory.store).answer records = (.error err, after) →
      (after = records ∧ ∀ e record, op = .save e → m.toRecord e ≠ .ok record) ∨
      ∃ e record cause, op = .save e ∧ m.toRecord e = .ok record ∧
        m.toEntity type record = .error cause ∧ err = .mapping cause ∧
        after = records ++ [record]) ∧
    ((∀ metadata ∈ given, m.schema.Declares metadata) → m.catalog.FlattensPlain → op.Allowed r →
      ∀ err after, (op.run r Memory.store).answer records = (.error err, after) →
        after = records) := by
  obtain ⟨hmapping, hx, _⟩ := connect_eq_ok_iff.1 hr
  have htype : r.metadata.type = type := (entry?_mem hx).2
  constructor
  · intro err after herr
    by_cases hop : ∀ e, op ≠ .save e
    · exact .inl ⟨Operation.careful r hop records err after herr, fun e _ h => absurd h (hop e)⟩
    · obtain ⟨e, he⟩ := not_forall.1 hop
      obtain rfl := not_not.1 he
      rw [Operation.answer_save, hmapping, htype] at herr
      cases hrecord : m.toRecord e with
      | error cause =>
        rw [hrecord] at herr
        refine .inl ⟨(Prod.mk.inj herr).2.symm, ?_⟩
        rintro _ record ⟨⟩ hok
        exact nomatch hrecord.symm.trans hok
      | ok record =>
        rw [hrecord] at herr
        cases hback : m.toEntity type record with
        | ok back => simp [hback, Except.map, Except.mapError] at herr
        | error cause =>
          simp only [hback, Except.map, Except.mapError, Prod.mk.injEq, Except.error.injEq] at herr
          exact .inr ⟨e, record, cause, rfl, hrecord, hback, herr.1.symm, herr.2.symm⟩
  · intro hd hp hallowed err after herr
    by_cases hop : ∀ e, op ≠ .save e
    · exact Operation.careful r hop records err after herr
    · obtain ⟨e, he⟩ := not_forall.1 hop
      obtain rfl := not_not.1 he
      obtain ⟨htyped, hetype⟩ := hallowed
      rw [hmapping] at htyped
      obtain ⟨back, record, hsaved⟩ :=
        (Mapping.sound_of_build hb hd).saves hp hr htyped (hetype.trans htype) records
      exact nomatch hsaved.symm.trans herr

def guestEntry : CatalogEntry :=
  let name := { FieldDescriptor.plain "name" with valueKind := some .int }
  ⟨⟨"guests", "Guest", [name], none⟩, [.stored name]⟩

def guest (name : String) : Entity :=
  .mk "Guest" [⟨"name", .data .text name⟩] []

namespace Mapping

def party : Mapping :=
  ⟨⟨[⟨guestEntry.metadata, guest ""⟩], []⟩, Settings.standard, [guestEntry]⟩

theorem party_accepted :
    Catalog.build Settings.standard [guestEntry.metadata] = .ok party.catalog := by cbv

end Mapping

namespace Repository

open Mapping

def guests : Repository := ⟨Mapping.party, guestEntry, []⟩

/-- A guest is stored, cannot be read again, and stays. -/
theorem guest_kept : Catalog.build Settings.standard [guestEntry.metadata] = .ok party.catalog ∧
    connect party "Guest" [] = .ok guests ∧
    ((Operation.save (guest "Ada")).run guests Memory.store).answer [] =
      (.error (.mapping (.coercion "Guest" "name" ⟨.text, .int, "Ada"⟩)),
        [⟨"guests", [⟨"name", .text "Ada"⟩]⟩]) :=
  ⟨Mapping.party_accepted, by cbv, by cbv⟩

open Declaration

def tickets : Repository :=
  ⟨Mapping.fair, ⟨ticketType.metadata, ticketType.metadata.fields.map .stored⟩, []⟩

theorem tickets_and_guests : connect Mapping.fair "fair::Ticket" [] = .ok tickets ∧
    connect Mapping.party "Guest" [] = .ok guests ∧
    (∀ records err after, ((Operation.save (ticket ⟨7, by decide⟩ "Ada")).run tickets
      Memory.store).answer records = (.error err, after) → after = records) ∧
    (∃ err, ((Operation.deleteById (.text "seven")).run tickets Memory.store).answer
      [⟨"Ticket", []⟩] = (.error err, [⟨"Ticket", []⟩])) ∧
    ∃ err record, ((Operation.save (guest "Ada")).run guests Memory.store).answer [] =
      (.error err, [record]) := by
  have htickets : connect Mapping.fair "fair::Ticket" [] = .ok tickets := by cbv
  have hguests : connect Mapping.party "Guest" [] = .ok guests := by cbv
  refine ⟨htickets, hguests, fun records => ?_, ?_, ?_⟩
  · have htyped : Mapping.fair.schema.Typed (ticket ⟨7, by decide⟩ "Ada") :=
      .intro (t := ticketType) rfl (.cons .data (.cons .data .nil))
    exact (failed_leaves_records Mapping.fair_accepted htickets _ records).2
      Mapping.fair_declares Mapping.fair_plain ⟨htyped, rfl⟩
  · obtain ⟨err, after, herr⟩ : ∃ err after, ((Operation.deleteById (.text "seven")).run tickets
      Memory.store).answer [⟨"Ticket", []⟩] = (.error err, after) := ⟨_, _, by cbv⟩
    obtain rfl := (failed_leaves_records Mapping.fair_accepted htickets
      (.deleteById (.text "seven")) [⟨"Ticket", []⟩]).2 Mapping.fair_declares Mapping.fair_plain
        trivial err after herr
    exact ⟨err, herr⟩
  · obtain ⟨err, after, herr⟩ : ∃ err after, ((Operation.save (guest "Ada")).run guests
      Memory.store).answer [] = (.error err, after) := ⟨_, _, by cbv⟩
    obtain ⟨record, hrecord⟩ : ∃ record, Mapping.party.toRecord (guest "Ada") = .ok record :=
      ⟨_, by cbv⟩
    rcases (failed_leaves_records Mapping.party_accepted hguests _ _).1 err after herr with
      ⟨_, hnone⟩ | ⟨_, kept, _, _, _, _, _, rfl⟩
    · exact absurd hrecord (hnone _ record rfl)
    · exact ⟨err, kept, herr⟩

end Repository
end RecordMapping
