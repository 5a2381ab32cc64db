import Mathlib
import RecordMapping.Proofs.Catalog.Consistent
import RecordMapping.Proofs.Method.Actions
import RecordMapping.Proofs.Query.Pages
import RecordMapping.Proofs.Repository.Reading
import RecordMapping.Proofs.Store.Confined
/-!
Finding, counting, asking for and deleting the same records. The four methods of a repository whose
names differ in their beginning only agree on what they are about, and only the one that finds looks
at sorts, limits and pages.
-/
namespace RecordMapping

open RecordMapping.Method RecordMapping.Number

namespace Repository

variable {r : Repository} {records : List Record}

/-- Whether a record is one that a query asks for among those of the repository. -/
def asksFor (r : Repository) (q : Query) : Record → Bool :=
  Memory.isMatch q.collection (r.metadata.scope q.condition)

theorem count_narrow (q : Query) :
    Memory.count records (r.narrow q) = (records.filter (r.asksFor q)).length := rfl

theorem delete_narrow (q : Query) :
    Memory.delete records (r.narrow q).deletion = records.filter (!r.asksFor q ·) := rfl

def call (a : Action) (rest : String) (arguments : List Argument) : Invocation :=
  ⟨Wording.start a ++ rest, arguments⟩

section Actions

variable {rest : String} {t : Template} {arguments : List Argument} {q : Request}
  (ht : ∀ a, Named.lookup (Wording.start a ++ rest) r.methods =
    some (t.withAction (Wording.start a ++ rest) a))
  (hq : t.assemble arguments = .ok q)
include ht hq

theorem exists_request (a : Action) {given : List Argument}
    (hvalues : Arguments.values given = Arguments.values arguments) :
    ∃ request : Request, request.action = a ∧ r.asksFor request.query = r.asksFor q.query ∧
      ∀ records, (r.invoke Memory.store (call a rest given)).answer records =
        (r.run Memory.store request).answer records := by
  have hrequest := Template.assemble_values
    (Template.assemble_withAction hq (Wording.start a ++ rest) a) hvalues
  refine ⟨_, ?_, ?_, fun _ => answer_invoke (ht a) hrequest⟩
  · rfl
  · rfl

theorem answer_call_count {given : List Argument}
    (hvalues : Arguments.values given = Arguments.values arguments) (records : List Record) :
    (r.invoke Memory.store (call .count rest given)).answer records =
      (.ok (.count (UInt64.ofNat (records.filter (r.asksFor q.query)).length)), records) := by
  obtain ⟨request, haction, hsame, hrun⟩ := exists_request ht hq .count hvalues
  simp only [hrun, answer_run, haction, count_narrow, hsame]

theorem answer_call_exist {given : List Argument}
    (hvalues : Arguments.values given = Arguments.values arguments) (records : List Record) :
    (r.invoke Memory.store (call .exist rest given)).answer records =
      (.ok (.found (0 < UInt64.ofNat (records.filter (r.asksFor q.query)).length)), records) := by
  obtain ⟨request, haction, hsame, hrun⟩ := exists_request ht hq .exist hvalues
  simp only [hrun, answer_run, haction, count_narrow, hsame]

theorem answer_call_delete {given : List Argument}
    (hvalues : Arguments.values given = Arguments.values arguments) (records : List Record) :
    (r.invoke Memory.store (call .delete rest given)).answer records =
      (.ok (.deleted (UInt64.ofNat (records.filter (r.asksFor q.query)).length)),
        records.filter (!r.asksFor q.query ·)) := by
  obtain ⟨request, haction, hsame, hrun⟩ := exists_request ht hq .delete hvalues
  simp only [hrun, answer_run, haction, count_narrow, delete_narrow, hsame]

theorem exists_call_found {given : List Argument}
    (hgiven : given = (Arguments.values arguments).map .value)
    (hread : r.Reads records (r.narrow q.query))
    (ho : Memory.Orders (t.sorts given) (records.filter (r.asksFor q.query))) :
    ∃ es, r.Finds records { r.narrow q.query with sorts := t.sorts given } es ∧
      (r.invoke Memory.store (call .find rest given)).answer records =
        (.ok (.entities es), records) := by
  subst hgiven
  have hplain := Template.assemble_values hq (Arguments.values_map_value _)
  rw [Arguments.window_map_value, Arguments.page?_map_value] at hplain
  have hfind := Template.assemble_withAction hplain (Wording.start .find ++ rest) .find
  obtain ⟨es, hes⟩ := exists_finds (q := { r.narrow q.query with sorts := t.sorts _ }) hread ho
  have hfound : (r.invoke Memory.store (call .find rest _)).answer records =
      (.ok (foundAs es none), records) := answer_invoke_found (ht .find) hfind rfl rfl hes.read
  exact ⟨es, hes, hfound⟩

end Actions

/-- Where a method that finds can be compiled, the methods that count, ask for and delete by the
same words can be, and they take the same arguments. With the same values they are about the same
records: so many are counted, some are there if that number is positive, and just these are deleted,
after which none is counted. Sorts, limits and pages make no difference to them. If these records can
be read and sorted, they are what is found with the values alone. -/
theorem actions_agree {m : Mapping} {type : String} {x : CatalogEntry}
    (hx : m.catalog.entry? type = some x) {rest : String} {t : Template}
    (ht : Template.compile (Wording.start .find ++ rest) x.metadata m.catalog.settings = .ok t)
    {arguments : List Argument} {q : Request} (hq : t.assemble arguments = .ok q) :
    (∀ a, ∃ u, Template.compile (Wording.start a ++ rest) x.metadata m.catalog.settings = .ok u ∧
      u.assemble arguments = .ok { q with action := a }) ∧
    (∃ r, connect m type ([.find, .count, .exist, .delete].map (Wording.start · ++ rest)) =
      .ok r) ∧
    ∀ methods r, connect m type methods = .ok r → (∀ a, Wording.start a ++ rest ∈ methods) →
      ∀ records, records.length ≤ maxCount →
      ∃ n : UInt64, n.toNat = (records.filter (r.asksFor q.query)).length ∧
        (∀ given, given = (Arguments.values arguments).map .value →
          r.Reads records (r.narrow q.query) →
          Memory.Orders (t.sorts given) (records.filter (r.asksFor q.query)) →
          ∃ es, r.Finds records { r.narrow q.query with sorts := t.sorts given } es ∧
            (es.map .ok).Perm ((records.filter (r.asksFor q.query)).map (m.toEntity type)) ∧
            es.length = n.toNat ∧
            (r.invoke Memory.store (call .find rest given)).answer records =
              (.ok (.entities es), records)) ∧
        ∀ given, Arguments.values given = Arguments.values arguments →
          (r.invoke Memory.store (call .count rest given)).answer records =
            (.ok (.count n), records) ∧
          (r.invoke Memory.store (call .exist rest given)).answer records =
            (.ok (.found (0 < n)), records) ∧
          (r.invoke Memory.store (call .delete rest given)).answer records =
            (.ok (.deleted n), records.filter (!r.asksFor q.query ·)) ∧
          (r.invoke Memory.store (call .count rest given)).answer
            (records.filter (!r.asksFor q.query ·)) =
              (.ok (.count 0), records.filter (!r.asksFor q.query ·)) := by
  have hcompile := fun a => Template.compile_start ht a
  refine ⟨fun a => ⟨_, hcompile a, Template.assemble_withAction hq _ a⟩, ?_, ?_⟩
  · have hall : ∀ method ∈ [Action.find, .count, .exist, .delete].map (Wording.start · ++ rest),
        ∃ t, Template.compile method x.metadata m.catalog.settings = .ok t := by
      intro method hmethod
      obtain ⟨a, _, rfl⟩ := List.mem_map.1 hmethod
      exact ⟨_, hcompile a⟩
    obtain ⟨table, htable⟩ := MethodTable.exists_compile hall
    exact ⟨⟨m, x, table⟩, connect_eq_ok_iff.2 ⟨rfl, hx, htable⟩⟩
  · intro methods r hr hmethods records hlen
    obtain ⟨rfl, hentry, htable⟩ := connect_eq_ok_iff.1 hr
    obtain rfl : x = r.entry := Option.some.inj (hx.symm.trans hentry)
    have htype : r.metadata.type = type := (Catalog.entry?_mem hx).2
    have hlookup : ∀ a, Named.lookup (Wording.start a ++ rest) r.methods =
        some (t.withAction (Wording.start a ++ rest) a) :=
      fun a => (MethodTable.lookup_of_compile htable).2 ⟨hmethods a, hcompile a⟩
    have hn : (UInt64.ofNat (records.filter (r.asksFor q.query)).length).toNat =
        (records.filter (r.asksFor q.query)).length := by
      rw [UInt64.toNat_ofNat']
      have hle := List.length_filter_le (r.asksFor q.query) records
      have hmax : maxCount < 2 ^ 64 := by decide
      exact Nat.mod_eq_of_lt (by omega)
    refine ⟨_, hn, fun given hgiven hread ho => ?_, fun given hgiven => ⟨?_, ?_, ?_, ?_⟩⟩
    · obtain ⟨es, hes, hfound⟩ := exists_call_found hlookup hq hgiven hread ho
      exact ⟨es, hes, htype ▸ hes.perm, hes.length_eq.trans hn.symm, hfound⟩
    · exact answer_call_count hlookup hq hgiven records
    · exact answer_call_exist hlookup hq hgiven records
    · exact answer_call_delete hlookup hq hgiven records
    · rw [answer_call_count hlookup hq hgiven, List.filter_filter]
      simp

theorem notes_actions_agree : ∃ r, connect notes.mapping "Note"
      ([Action.find, .count, .exist, .delete].map (Wording.start · ++ "Text")) = .ok r ∧
    ∃ (es : List Entity) (n : UInt64), n.toNat = es.length ∧ es.length = 2 ∧
      (r.invoke Memory.store ⟨"findByText", [.value (.text "a")]⟩).answer noteRecords =
        (.ok (.entities es), noteRecords) ∧
      (r.invoke Memory.store ⟨"countByText", [.limit ⟨0, 1, by decide⟩,
        .value (.text "a")]⟩).answer noteRecords = (.ok (.count n), noteRecords) ∧
      (r.invoke Memory.store ⟨"deleteByText", [.value (.text "a"),
        .limit ⟨0, 1, by decide⟩]⟩).answer noteRecords =
          (.ok (.deleted n), ["b", "c"].map fun s => ⟨"notes", [⟨"text", .text s⟩]⟩) := by
  let t : Template :=
    ⟨"findByText", "notes", ⟨.find, [⟨.and, "text", "text", .equals, none⟩], []⟩, [], true⟩
  have htemplate : Template.compile (Wording.start .find ++ "Text") notes.metadata
    notes.mapping.catalog.settings = .ok t := by cbv
  let q : Query := ⟨"notes", some (.compare "text" .equals (.text "a")), [], 0, 0⟩
  have hquery : t.assemble [.value (.text "a")] = .ok ⟨.find, q, none⟩ := rfl
  have hentry : notes.mapping.catalog.entry? "Note" = some notes.entry := rfl
  obtain ⟨_, ⟨r, hr⟩, hagree⟩ := actions_agree hentry htemplate hquery
  refine ⟨r, hr, ?_⟩
  obtain ⟨hmapping, hconnected, _⟩ := connect_eq_ok_iff.1 hr
  have hmeta : r.metadata = notes.metadata :=
    congrArg CatalogEntry.metadata (Option.some.inj (hconnected.symm.trans hentry))
  have hreads : ∀ q, r.Reads noteRecords q := by
    intro q
    rw [Reads, hmapping, hmeta]
    exact notes_reads q
  obtain ⟨n, hn, hfind, hall⟩ :=
    hagree _ r hr (fun a => by cases a <;> simp) noteRecords (by decide)
  obtain ⟨es, _, _, hlength, hfound⟩ := hfind _ rfl (hreads _) (Memory.orders_nil _)
  obtain ⟨hcount, _⟩ := hall [.limit ⟨0, 1, by decide⟩, .value (.text "a")] rfl
  obtain ⟨_, _, hdelete, _⟩ := hall [.value (.text "a"), .limit ⟨0, 1, by decide⟩] rfl
  have hasks : r.asksFor q = Memory.isMatch q.collection q.condition := by
    rw [asksFor, hmeta]
    rfl
  rw [hasks] at hn hdelete
  have htwo : n.toNat = 2 := hn
  exact ⟨es, n, hlength.symm, hlength.trans htwo, hfound, hcount, hdelete⟩

end Repository
end RecordMapping
