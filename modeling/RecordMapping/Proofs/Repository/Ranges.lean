import RecordMapping.Proofs.Repository.Actions
import RecordMapping.Proofs.Repository.Filtering
import RecordMapping.Proofs.Store.Ranges
/-!
Methods that ask for ranges. An empty field has no attribute, so that its entity is asked for
wherever the range has no lower end.
-/
namespace RecordMapping

open Catalog RecordMapping.Method

namespace Mapping

variable {m : Mapping} {x : CatalogEntry} {e : Entity} {record : Record}

theorem find?_of_empty (hc : m.catalog.Consistent) (he : m.catalog.Agrees e)
    (hx : m.catalog.entry? e.type = some x) (hn : x.writes.Nodup)
    (hr : m.toRecord e = .ok record) {f : FieldDescriptor} (hf : f ∈ x.metadata.fields)
    (hempty : e.read f.name = .empty)
    (hown : f.isFlattened = false ∨ f.nativeName ∉ x.writes) :
    record.find? f.nativeName = none := by
  obtain ⟨_, _, hattributes, _⟩ := toRecord_eq_ok_iff.1 hr
  rcases hown with hflat | hnot
  · have hpart : m.catalog.part f (e.read f.name) = .ok [] := by
      rw [hempty]
      rfl
    exact (hc.unambiguous_of_nodup he hx hn hattributes).field f hf hflat [] hpart
  · have hsub := hc.names_encode_sublist he hx hattributes
    exact Named.lookup_eq_none_iff.2 fun hmem => hnot (hsub.subset hmem)

end Mapping

theorem Method.Template.condition_of_clause {t : Template} {c : Clause}
    (ht : t.name.clauses = [c]) {arguments : List Argument} {q : Request}
    (h : t.assemble arguments = .ok q) :
    ∃ operand, q.query.condition = some (.compare c.native c.op operand) := by
  obtain ⟨_, comparisons, hcomparisons, rfl⟩ := assemble_eq_ok_iff.1 h
  rw [ht, Template.comparisons] at hcomparisons
  cases hoperand : t.coerce c (c.operand (Arguments.values arguments)).1 with
  | error e => simp [hoperand, bind, Except.bind] at hcomparisons
  | ok operand =>
    simp only [hoperand, Template.comparisons, bind, Except.bind, pure, Except.pure] at hcomparisons
    obtain rfl := Except.ok.inj hcomparisons
    exact ⟨operand, rfl⟩

namespace Repository

variable {r : Repository}

def effect (r : Repository) (request : Request) (records : List Record) :
    Except Error Outcome × List Record :=
  let q := request.query
  let asked := records.filter (r.asksFor q)
  match request.action with
  | .find =>
    (((r.readAll (Memory.window q.skip q.limit (Memory.sort q.sorts asked))).map
      (foundAs · request.page)).mapError Error.mapping, records)
  | .count => (.ok (.count (UInt64.ofNat asked.length)), records)
  | .exist => (.ok (.found (0 < UInt64.ofNat asked.length)), records)
  | .delete =>
    (.ok (.deleted (UInt64.ofNat asked.length)), records.filter (!r.asksFor q ·))

theorem answer_invoke_effect {call : Invocation} {t : Template} {request : Request}
    (ht : Named.lookup call.method r.methods = some t)
    (ha : t.assemble call.arguments = .ok request) (records : List Record) :
    (r.invoke Memory.store call).answer records = r.effect request records := by
  rw [answer_invoke ht ha, answer_run, effect]
  rfl

theorem asksFor_of_sees {q : Query} {condition : Condition}
    (hcollection : q.collection = r.metadata.collection) (hcondition : q.condition = some condition)
    {record : Record} (hsees : r.metadata.sees record = true) :
    r.asksFor q record = Memory.satisfies record condition := by
  rw [asksFor, hcollection, hcondition, EntityMetadata.isMatch_scope, hsees, Bool.true_and]

theorem asksFor_empty_iff {m : Mapping} (hc : m.catalog.Consistent) {type : String}
    {methods : List String} (hconnect : connect m type methods = .ok r)
    (hn : r.entry.writes.Nodup) {method : String} {t : Template}
    (ht : Named.lookup method r.methods = some t) {c : Clause} (hclauses : t.name.clauses = [c])
    {arguments : List Argument} {q : Request} (ha : t.assemble arguments = .ok q) {e : Entity}
    (he : m.catalog.Agrees e) (htype : e.type = type) {f : FieldDescriptor}
    (hf : f ∈ r.metadata.fields) (hname : f.name = c.field) (hempty : e.read f.name = .empty)
    (hown : f.isFlattened = false ∨ f.nativeName ∉ r.entry.writes) {record : Record}
    (hr : m.toRecord e = .ok record) :
    r.asksFor q.query record = true ↔ c.op = .less ∨ c.op = .lessOrEqual := by
  subst htype
  obtain ⟨_, hentry, htable⟩ := connect_eq_ok_iff.1 hconnect
  obtain ⟨_, hcompile⟩ := (MethodTable.lookup_of_compile htable).1 ht
  obtain ⟨_, _, hattributes, _⟩ := Mapping.toRecord_eq_ok_iff.1 hr
  have hsees : r.metadata.sees record = true :=
    Mapping.sees_of_unambiguous hentry hr (hc.unambiguous_of_nodup he hentry hn hattributes)
  have hcollection : q.query.collection = r.metadata.collection := by
    obtain ⟨_, _, _, rfl⟩ := Template.assemble_eq_ok_iff.1 ha
    exact Template.collection_of_compile hcompile
  obtain ⟨operand, hcondition⟩ := Template.condition_of_clause hclauses ha
  have hnative : c.native = f.nativeName :=
    Template.native_of_compile (hc.fieldsDistinct _ (mem_types (entry?_mem hentry).1)) hcompile
      (hclauses ▸ List.mem_singleton_self c) hf hname
  have habsent := Mapping.find?_of_empty hc he hentry hn hr hf hempty hown
  rw [asksFor_of_sees hcollection hcondition hsees, Memory.satisfies, hnative, habsent,
    Memory.holds_none_iff]

/-- What selects a record by a range. A value that is comparable with the limits of the range is to
lie within them, but one that is not passes all closed bounds, and an absent one all upper bounds.
So a method with a single clause finds, counts or deletes an entity whose field is empty exactly if
it asks for less, or for less or equal. The name of a flattened field, which has no attribute of its
own, must not be that of another attribute. -/
theorem ranges_select_iff (record : Record) :
    (∀ (name : String) (range : Memory.Range),
      Memory.satisfies record (.compare name range.op range.operand) = true ↔
        ∀ b ∈ range.bounds, b.Passes (record.find? name)) ∧
    ∀ {settings : Settings} {given : List EntityMetadata} {m : Mapping},
      Catalog.build settings given = .ok m.catalog →
      ∀ {type : String} {methods : List String} {r : Repository},
      connect m type methods = .ok r → r.entry.writes.Nodup →
      ∀ {method : String} {t : Template} {c : Clause} {arguments : List Argument} {q : Request},
      Named.lookup method r.methods = some t → t.name.clauses = [c] →
      t.assemble arguments = .ok q →
      (∀ records, (r.invoke Memory.store ⟨method, arguments⟩).answer records =
        r.effect q records) ∧
      ∀ {e : Entity} {f : FieldDescriptor}, m.catalog.Agrees e → e.type = type →
        f ∈ r.metadata.fields → f.name = c.field → e.read f.name = .empty →
        f.isFlattened = false ∨ f.nativeName ∉ r.entry.writes → m.toRecord e = .ok record →
        (r.asksFor q.query record = true ↔ c.op = .less ∨ c.op = .lessOrEqual) := by
  refine ⟨fun name range => Memory.holds_range_iff range (record.find? name), ?_⟩
  intro settings given m hb type methods r hconnect hn method t c arguments q ht hclauses ha
  obtain ⟨_, _, hc⟩ := build_spec hb
  refine ⟨answer_invoke_effect ht ha, fun {e f} he htype hf hname hempty hown hr => ?_⟩
  exact asksFor_empty_iff hc hconnect hn ht hclauses ha he htype hf hname hempty hown hr

end Repository

open Declaration

theorem Mapping.stamp_agrees (country : String) : album.catalog.Agrees (stamp country none) := by
  refine .intro rfl fun f hf => ?_
  simp only [stampType, List.mem_cons, List.not_mem_nil, or_false] at hf
  rcases hf with rfl | rfl
  · exact .value rfl
  · exact .empty

theorem Repository.worthless_stamp_deleted :
    Memory.satisfies ⟨"Stamp", [⟨"cents", .text "many"⟩]⟩
      (.compare "cents" .greaterOrEqual (.uint 10)) = true ∧
    ∃ stamps record,
      connect Mapping.album "post::Stamp" ["deleteByCentsLessThan"] = .ok stamps ∧
      Mapping.album.toRecord (stamp "FR" none) = .ok record ∧
      (stamps.invoke Memory.store ⟨"deleteByCentsLessThan", [.value (.text "10")]⟩).answer
        [record] = (.ok (.deleted 1), []) := by
  obtain ⟨hword, _⟩ := ranges_select_iff ⟨"Stamp", [⟨"cents", .text "many"⟩]⟩
  refine ⟨(hword "cents" (.atLeast (.uint 10))).2 fun b hb => ?_, ?_⟩
  · obtain rfl := List.mem_singleton.1 hb
    exact .inr ⟨fun h => absurd h.kind?_eq (by decide), rfl⟩
  · obtain ⟨stamps, t, q, record, hstamps, hentry, ht, hclauses, ha, hdelete, hrecord⟩ :
        ∃ stamps t q record,
          connect Mapping.album "post::Stamp" ["deleteByCentsLessThan"] = .ok stamps ∧
          stamps.entry = ⟨stampType.metadata, stampType.metadata.fields.map .stored⟩ ∧
          Named.lookup "deleteByCentsLessThan" stamps.methods = some t ∧
          t.name.clauses = [⟨.and, "cents", "cents", .less, some .uint⟩] ∧
          t.assemble [.value (.text "10")] = .ok q ∧ q.action = .delete ∧
          Mapping.album.toRecord (stamp "FR" none) = .ok record :=
      ⟨_, _, _, _, by cbv, by cbv, by cbv, by cbv, by cbv, by cbv, by cbv⟩
    have hdistinct : stamps.entry.writes.Nodup := by
      rw [hentry]
      decide
    have hcents : { FieldDescriptor.plain "cents" with valueKind := some .uint } ∈
        stamps.metadata.fields := by
      rw [metadata, hentry]
      exact List.mem_cons_of_mem _ List.mem_cons_self
    obtain ⟨_, hentities⟩ := ranges_select_iff record
    obtain ⟨heffect, hasked⟩ :=
      hentities Mapping.album_accepted hstamps hdistinct ht hclauses ha
    have hless := (hasked (Mapping.stamp_agrees "FR") rfl hcents rfl rfl (.inl rfl) hrecord).2
      (.inl rfl)
    refine ⟨stamps, record, hstamps, hrecord, ?_⟩
    rw [heffect, effect]
    simp [hdelete, hless]

end RecordMapping
