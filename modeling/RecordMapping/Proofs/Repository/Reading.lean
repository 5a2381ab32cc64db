import RecordMapping.Proofs.Method.Assembly
import RecordMapping.Proofs.Session
import RecordMapping.Proofs.Store.Selection
/-!
What a repository over a store in memory answers to the calls that write and read entities.
-/
namespace RecordMapping

open RecordMapping.Method

namespace Repository

variable {r : Repository}

theorem readAll_eq_ok_iff {records : List Record} {es : List Entity} :
    r.readAll records = .ok es ↔
      records.map (r.mapping.toEntity r.metadata.type) = es.map .ok := by
  induction records generalizing es with
  | nil =>
    rw [readAll]
    cases es <;> simp
  | cons record rest ih =>
    rw [readAll]
    cases he : r.mapping.toEntity r.metadata.type record with
    | error err => cases es <;> simp [he, bind, Except.bind]
    | ok e =>
      cases hr : r.readAll rest with
      | error err =>
        have hne : ∀ others : List Entity,
            rest.map (r.mapping.toEntity r.metadata.type) ≠ others.map .ok := by
          intro others ho
          exact absurd (hr.symm.trans (ih.2 ho)) (by simp)
        cases es <;> simp [he, bind, Except.bind, hne]
      | ok others =>
        have hrest := ih.1 hr
        cases es with
        | nil => simp [bind, Except.bind, pure, Except.pure]
        | cons e' es =>
          have hinj : others.map (Except.ok (ε := MappingError)) = es.map .ok ↔ others = es :=
            List.map_inj_right fun _ _ h => Except.ok.inj h
          simp [he, hrest, hinj, bind, Except.bind, pure, Except.pure]

theorem exists_readAll {records : List Record}
    (h : ∀ record ∈ records, ∃ e, r.mapping.toEntity r.metadata.type record = .ok e) :
    ∃ es, r.readAll records = .ok es := by
  induction records with
  | nil => exact ⟨[], rfl⟩
  | cons record rest ih =>
    obtain ⟨e, he⟩ := h record List.mem_cons_self
    obtain ⟨es, hes⟩ := ih fun other ho => h other (List.mem_cons_of_mem record ho)
    refine ⟨e :: es, readAll_eq_ok_iff.2 ?_⟩
    rw [List.map_cons, List.map_cons, he, readAll_eq_ok_iff.1 hes]

theorem readAll_window {records : List Record} {es : List Entity} (h : r.readAll records = .ok es)
    (skip take : Nat) :
    r.readAll ((records.drop skip).take take) = .ok ((es.drop skip).take take) := by
  rw [readAll_eq_ok_iff] at h ⊢
  rw [List.map_take, List.map_drop, h, ← List.map_drop, ← List.map_take]

theorem answer_save (r : Repository) (e : Entity) (records : List Record) :
    (r.save Memory.store e).answer records = match r.mapping.toRecord e with
      | .error cause => (.error (.mapping cause), records)
      | .ok record => ((r.mapping.toEntity r.metadata.type record).mapError Error.mapping,
        records ++ [record]) := by
  have hrecord := Session.answer_ofMapping (r.mapping.toRecord e) records
  rw [save]
  cases h : r.mapping.toRecord e with
  | error cause =>
    rw [h] at hrecord
    rw [Session.answer_bind_error hrecord]
  | ok record =>
    rw [h] at hrecord
    have hinsert : (Session.ask (Memory.store.insert record)).answer records =
        (.ok record, records ++ [record]) := rfl
    rw [Session.answer_bind_ok hrecord, Session.answer_bind_ok hinsert, Session.answer_ofMapping]

/-- A query as a repository asks it, within its own records. -/
def narrow (r : Repository) (q : Query) : Query :=
  { q with condition := r.metadata.scope q.condition }

/-- Whether every record that a query matches can be read. -/
def Reads (r : Repository) (records : List Record) (q : Query) : Prop :=
  ∀ record ∈ records, Memory.isMatch q.collection q.condition record = true →
    ∃ e, r.mapping.toEntity r.metadata.type record = .ok e

theorem exists_readAll_select {records : List Record} {q : Query} (hr : r.Reads records q) :
    ∃ es, r.readAll (Memory.select records { q with skip := 0, limit := 0 }) = .ok es := by
  refine exists_readAll fun record hrecord => ?_
  have hfilter := (Memory.select_perm records q).mem_iff.1 hrecord
  obtain ⟨hin, hmatch⟩ := List.mem_filter.1 hfilter
  exact hr record hin hmatch

/-- Whether some entities are all that a query finds, whatever its window: what is read from its
matches, in the order of its sorts and as they were stored where these compare them equal. -/
structure Finds (r : Repository) (records : List Record) (q : Query) (es : List Entity) : Prop where
  ordered : Memory.InOrder q.sorts (Memory.found records q)
    (Memory.select records { q with skip := 0, limit := 0 })
  read : r.readAll (Memory.select records { q with skip := 0, limit := 0 }) = .ok es

theorem exists_finds {records : List Record} {q : Query} (hr : r.Reads records q)
    (ho : Memory.Orders q.sorts (Memory.found records q)) : ∃ es, r.Finds records q es := by
  obtain ⟨es, hes⟩ := exists_readAll_select hr
  exact ⟨es, Memory.select_inOrder ho, hes⟩

theorem Finds.perm {records : List Record} {q : Query} {es : List Entity}
    (h : r.Finds records q es) : (es.map .ok).Perm
      ((Memory.found records q).map (r.mapping.toEntity r.metadata.type)) := by
  rw [← readAll_eq_ok_iff.1 h.read]
  exact h.ordered.perm.map _

theorem Finds.length_eq {records : List Record} {q : Query} {es : List Entity}
    (h : r.Finds records q es) : es.length = Memory.count records q := by
  have hlength := h.perm.length_eq
  rw [List.length_map, List.length_map] at hlength
  exact hlength

theorem readAll_select {records : List Record} {q : Query} {es : List Entity} {skip limit : UInt64}
    (hlimit : 0 < limit)
    (hes : r.readAll (Memory.select records { q with skip := 0, limit := 0 }) = .ok es) :
    r.readAll (Memory.select records { q with skip := skip, limit := limit }) =
      .ok ((es.drop skip.toNat).take limit.toNat) := by
  have hwindow := readAll_window hes skip.toNat limit.toNat
  rw [Memory.select, Memory.window_zero] at hwindow
  rw [Memory.select, Memory.window_of_pos hlimit]
  exact hwindow

theorem answer_findAll {records : List Record} {p : Pageable} {content : List Entity}
    (h : r.readAll (Memory.select records
      { r.collectionQuery none with sorts := p.sorts, skip := p.skip, limit := p.size }) =
        .ok content) :
    (r.findAll Memory.store p).answer records = (.ok ⟨content, p⟩, records) := by
  rw [findAll, Session.answer_bind_ok (Session.answer_ask _ records)]
  rw [Session.answer_bind_ok (by rw [Session.answer_ofMapping, h]; rfl)]
  rfl

def foundAs (content : List Entity) : Option Pageable → Outcome
  | some p => .page ⟨content, p⟩
  | none => .entities content

theorem answer_invoke {records : List Record} {call : Invocation} {t : Template} {request : Request}
    (ht : Named.lookup call.method r.methods = some t)
    (ha : t.assemble call.arguments = .ok request) :
    (r.invoke Memory.store call).answer records = (r.run Memory.store request).answer records := by
  simp only [invoke, ht]
  rw [Session.answer_bind_ok (by rw [Session.answer_ofQuery, ha]; rfl)]

theorem answer_run (request : Request) (records : List Record) :
    (r.run Memory.store request).answer records =
      let q := r.narrow request.query
      match request.action with
      | .find => (((r.readAll (Memory.select records q)).map (foundAs · request.page)).mapError
          Error.mapping, records)
      | .count => (.ok (.count (UInt64.ofNat (Memory.count records q))), records)
      | .exist => (.ok (.found (0 < UInt64.ofNat (Memory.count records q))), records)
      | .delete => (.ok (.deleted (UInt64.ofNat (Memory.count records q))),
          Memory.delete records q.deletion) := by
  rw [run]
  cases request.action with
  | find =>
    rw [Session.answer_bind_ok (Session.answer_ask _ records)]
    cases request.page with
    | none => exact Session.answer_ofMapping_bind_pure _ _ _
    | some p => exact Session.answer_ofMapping_bind_pure _ _ _
  | count => rfl
  | exist => rfl
  | delete => rfl

theorem answer_invoke_found {records : List Record} {call : Invocation} {t : Template}
    {request : Request} {page : Option Pageable} {content : List Entity}
    (ht : Named.lookup call.method r.methods = some t)
    (ha : t.assemble call.arguments = .ok request) (haction : request.action = .find)
    (hpage : request.page = page)
    (h : r.readAll (Memory.select records (r.narrow request.query)) = .ok content) :
    (r.invoke Memory.store call).answer records = (.ok (foundAs content page), records) := by
  rw [answer_invoke ht ha, answer_run]
  simp only [haction, h, hpage]
  rfl

theorem answer_invoke_find {records : List Record} {call : Invocation} {t : Template}
    {request : Request} {p : Pageable} {content : List Entity}
    (ht : Named.lookup call.method r.methods = some t)
    (ha : t.assemble call.arguments = .ok request) (haction : request.action = .find)
    (hpage : request.page = some p)
    (h : r.readAll (Memory.select records (r.narrow request.query)) = .ok content) :
    (r.invoke Memory.store call).answer records = (.ok (.page ⟨content, p⟩), records) :=
  answer_invoke_found ht ha haction hpage h

end Repository

end RecordMapping
