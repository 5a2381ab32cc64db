import RecordMapping.Proofs.Conversion.RoundTrip
import RecordMapping.Proofs.Repository.Reading
import RecordMapping.Proofs.Repository.Separation
/-!
Entities by their ids. An id is looked for in its field alone and among the records of the
repository alone, so that a new id is that of one record until it is deleted.
-/
namespace RecordMapping

open Catalog

namespace DataType

/-- Whether the values of a type are equal to themselves, and never absent. -/
def IsKey : DataType → Prop
  | int _ | bool | text => True
  | _ => False

variable {t : DataType}

theorem IsKey.same_self (h : t.IsKey) (x : t.Carrier) :
    (t.toValue x).same (t.toValue x) = true := by
  cases t with
  | int t => cases t <;> exact beq_self_eq_true _
  | bool => exact beq_self_eq_true _
  | text => exact beq_self_eq_true _
  | _ => exact h.elim

theorem IsKey.isNull_toValue (h : t.IsKey) (x : t.Carrier) : (t.toValue x).isNull = false := by
  cases t with
  | int t => cases t <;> rfl
  | bool => rfl
  | text => rfl
  | _ => exact h.elim

theorem IsKey.exists_valueKind (h : t.IsKey) : ∃ kind, t.valueKind = some kind := by
  cases t with
  | int t => cases t <;> exact ⟨_, rfl⟩
  | bool => exact ⟨_, rfl⟩
  | text => exact ⟨_, rfl⟩
  | _ => exact h.elim

end DataType

namespace Schema

variable {m : Mapping}

theorem Typed.describes_data (hm : m.Sound) {e : Entity} (he : m.schema.Typed e) {x : CatalogEntry}
    (hx : m.catalog.entry? e.type = some x) {f : FieldDescriptor} (hf : f ∈ x.metadata.fields)
    {t : DataType} {content : t.Carrier} (hs : e.slot? f.name = some (.data t content)) :
    f.isNested = false ∧ f.valueKind = t.valueKind := by
  cases he with
  | @intro u type slots hidden hu hslots =>
    have hdistinct := hm.consistent.fieldsDistinct _ (mem_types (entry?_mem hx).1)
    obtain ⟨blank, hblank, hfits⟩ := (hm.coherent_of_type? hx hu).exists_slot hdistinct hf
    obtain ⟨found, hfound, hslot⟩ := hslots.exists_blank hs
    obtain rfl := Option.some.inj (hblank.symm.trans hfound)
    cases hslot with
    | data =>
      cases hfits with
      | data hnested _ hkind => exact ⟨hnested, hkind⟩

end Schema

theorem Mapping.Sound.find?_toRecord {m : Mapping} (hm : m.Sound) (hp : m.catalog.FlattensPlain)
    {e : Entity} (he : m.schema.Typed e) {x : CatalogEntry}
    (hx : m.catalog.entry? e.type = some x) {record : Record} (hr : m.toRecord e = .ok record)
    {f : FieldDescriptor} (hf : f ∈ x.metadata.fields) (hflat : f.isFlattened = false) {v : Value}
    (hv : e.read f.name = .value v) : record.find? f.nativeName = some v := by
  obtain ⟨y, hy, ha, _⟩ := toRecord_eq_ok_iff.1 hr
  have hpart : m.catalog.part f (e.read f.name) = .ok [⟨f.nativeName, v⟩] := by rw [hv, part]
  rw [Record.find?, (hm.unambiguous hp he hx ha).field f hf hflat _ hpart, Named.lookup, if_pos rfl]

namespace Repository

def carries (r : Repository) (f : FieldDescriptor) (id : Value) (record : Record) : Bool :=
  r.metadata.sees record && Memory.isSame (record.find? f.nativeName) id

section ById

variable {r : Repository} {f : FieldDescriptor} {kind : ValueKind} {v id : Value}
  (hid : r.metadata.id? = some f) (hkind : f.valueKind = some kind) (hv : v.coerce kind = .ok id)

theorem isMatch_id (f : FieldDescriptor) (id : Value) : Memory.isMatch r.metadata.collection
    (r.metadata.scope (some (.compare f.nativeName .equals id))) = r.carries f id :=
  funext fun record => r.metadata.isMatch_scope _ record

include hid hkind hv

theorem idQuery_eq :
    r.idQuery v = .ok (r.collectionQuery (some (.compare f.nativeName .equals id))) := by
  rw [idQuery, hid]
  simp only [hkind, hv]

theorem answer_findById (records : List Record) :
    (r.findById Memory.store v).answer records =
      ((match records.filter (r.carries f id) with
        | [] => .ok none
        | record :: _ => ((r.mapping.toEntity r.metadata.type record).map some).mapError
            Error.mapping), records) := by
  have hselect : Memory.select records
      { r.collectionQuery (some (.compare f.nativeName .equals id)) with skip := 0, limit := 1 } =
        (records.filter (r.carries f id)).take 1 := by
    have hlimit : (0 : UInt64) < 1 := by decide
    rw [Memory.select, Memory.window_of_pos hlimit]
    simp [collectionQuery, Query.ofCollection, Memory.sort_nil, isMatch_id]
  rw [findById, idQuery_eq hid hkind hv, Session.answer_bind_ok (Session.answer_ofResult _ records),
    Session.answer_bind_ok (Session.answer_ask _ records)]
  simp only [Memory.store, hselect]
  cases records.filter (r.carries f id) with
  | nil => rfl
  | cons record rest =>
    simp only [List.take_succ_cons]
    cases hread : r.mapping.toEntity r.metadata.type record with
    | error e => rw [Session.answer_bind_error (by rw [Session.answer_ofMapping]; rfl)]; rfl
    | ok back => rw [Session.answer_bind_ok (by rw [Session.answer_ofMapping]; rfl)]; rfl

theorem answer_existsById (records : List Record) :
    (r.existsById Memory.store v).answer records =
      (.ok (decide (0 < UInt64.ofNat (records.filter (r.carries f id)).length)), records) := by
  rw [existsById, idQuery_eq hid hkind hv,
    Session.answer_bind_ok (Session.answer_ofResult _ records),
    Session.answer_bind_ok (Session.answer_ask _ records)]
  simp only [Memory.store, Memory.count, collectionQuery, Query.ofCollection, isMatch_id]
  rfl

theorem answer_deleteById (records : List Record) :
    (r.deleteById Memory.store v).answer records =
      (.ok (UInt64.ofNat (records.filter (r.carries f id)).length),
        records.filter (!r.carries f id ·)) := by
  rw [deleteById, idQuery_eq hid hkind hv,
    Session.answer_bind_ok (Session.answer_ofResult _ records), Session.answer_ask]
  simp only [Memory.store, Memory.delete_deletion]
  simp only [Query.deletion, collectionQuery, Query.ofCollection, isMatch_id]
  rfl

end ById

theorem answer_count (r : Repository) (records : List Record) :
    (r.count Memory.store).answer records =
      (.ok (UInt64.ofNat (records.filter r.metadata.sees).length), records) := rfl

section Fresh

variable {α : Type} {p : α → Bool} {xs : List α} (h : ∀ y ∈ xs, p y = false)
include h

theorem filter_fresh : xs.filter p = [] ∧ xs.filter (!p ·) = xs := by
  refine ⟨List.filter_eq_nil_iff.2 fun y hy => Bool.eq_false_iff.1 (h y hy), ?_⟩
  exact List.filter_eq_self.2 fun y hy => by rw [h y hy]; rfl

theorem filter_concat {x : α} (hx : p x = true) :
    (xs ++ [x]).filter p = [x] ∧ (xs ++ [x]).filter (!p ·) = xs := by
  simp [List.filter_append, filter_fresh h, hx]

end Fresh

section Saved

variable {m : Mapping} (hm : m.Sound) (hp : m.catalog.FlattensPlain) {type : String}
  {methods : List String} {r : Repository} (hr : connect m type methods = .ok r)
  {f : FieldDescriptor} (hid : r.metadata.id? = some f) {e : Entity} (he : m.schema.Typed e)
  (htype : e.type = type) {t : DataType} {content : t.Carrier}
  (hs : e.slot? f.name = some (.data t content))
include hm hr hid he htype hs

theorem valueKind_id : f.valueKind = t.valueKind := by
  obtain ⟨_, hx, _⟩ := connect_eq_ok_iff.1 hr
  exact (he.describes_data hm (htype ▸ hx) (List.mem_of_find?_eq_some hid) hs).2

include hp

theorem carries_toRecord (hkey : t.IsKey) {record : Record} (hrecord : m.toRecord e = .ok record) :
    r.carries f (t.toValue content) record = true := by
  subst htype
  obtain ⟨_, hx, _⟩ := connect_eq_ok_iff.1 hr
  have hf : f ∈ r.entry.metadata.fields := List.mem_of_find?_eq_some hid
  have hnested := (he.describes_data hm hx hf hs).1
  have hflat : f.isFlattened = false := by
    rw [← Bool.not_eq_true]
    exact fun h => absurd (f.isNested_of_isFlattened h) (by simp [hnested])
  have hread : e.read f.name = .value (t.toValue content) := by
    simp [Entity.read, hs, Slot.read, Reading.ofValue, hkey.isNull_toValue]
  have hsees : r.metadata.sees record = true := hm.sees_toRecord hp he hx hrecord
  rw [carries, hsees, hm.find?_toRecord hp he hx hrecord hf hflat hread]
  exact hkey.same_self content

end Saved

/-- A saved entity is found, counted and deleted by its id if that is new to the repository. What
the store holds of other types, or of other ids, makes no difference and is left as it is. -/
theorem saved_by_id {settings : Settings} {given : List EntityMetadata} {m : Mapping}
    (hb : Catalog.build settings given = .ok m.catalog)
    (hd : ∀ metadata ∈ given, m.schema.Declares metadata) (hp : m.catalog.FlattensPlain)
    {type : String} {methods : List String} {r : Repository} (hr : connect m type methods = .ok r)
    (hfaith : m.schema.Faithful type) {f : FieldDescriptor} (hid : r.metadata.id? = some f)
    {e : Entity} (he : m.schema.Typed e) (htype : e.type = type) {t : DataType}
    {content : t.Carrier} (hkey : t.IsKey) (hs : e.slot? f.name = some (.data t content))
    {records : List Record}
    (hnew : ∀ record ∈ records, r.carries f (t.toValue content) record = false) :
    ∃ record kind, m.toRecord e = .ok record ∧ t.valueKind = some kind ∧
      (r.save Memory.store e).answer records = (.ok (m.normal e), records ++ [record]) ∧
      (∃ n, (r.count Memory.store).answer records = (.ok (UInt64.ofNat n), records) ∧
        (r.count Memory.store).answer (records ++ [record]) =
          (.ok (UInt64.ofNat (n + 1)), records ++ [record])) ∧
      ∀ v, v.coerce kind = .ok (t.toValue content) →
        (r.findById Memory.store v).answer (records ++ [record]) =
          (.ok (some (m.normal e)), records ++ [record]) ∧
        (r.existsById Memory.store v).answer (records ++ [record]) =
          (.ok true, records ++ [record]) ∧
        (r.deleteById Memory.store v).answer (records ++ [record]) = (.ok 1, records) ∧
        (r.findById Memory.store v).answer records = (.ok none, records) ∧
        (r.existsById Memory.store v).answer records = (.ok false, records) ∧
        (r.deleteById Memory.store v).answer records = (.ok 0, records) := by
  have hm := Mapping.sound_of_build hb hd
  obtain ⟨kind, hkind⟩ := hkey.exists_valueKind
  have hvalue := (valueKind_id hm hr hid he htype hs).trans hkind
  obtain ⟨rfl, hx, _⟩ := connect_eq_ok_iff.1 hr
  subst htype
  obtain ⟨record, back, hrecord, hback, hnormal⟩ := hm.exists_restored hp hx he
  obtain rfl := hnormal hfaith
  rw [← (entry?_mem hx).2] at hback
  have hcarries := carries_toRecord hm hp hr hid he rfl hs hkey hrecord
  obtain ⟨hnone, hkept⟩ := filter_fresh hnew
  obtain ⟨hone, hleft⟩ := filter_concat hnew hcarries
  refine ⟨record, kind, hrecord, hkind, ?_,
    ⟨(records.filter r.metadata.sees).length, r.answer_count records, ?_⟩,
    fun v hv => ⟨?_, ?_, ?_, ?_, ?_, ?_⟩⟩
  · rw [answer_save, hrecord]
    exact congrArg (fun answer => (answer.mapError Error.mapping, _)) hback
  · have hsees : r.metadata.sees record = true := (Bool.and_eq_true_iff.1 hcarries).1
    rw [answer_count, List.filter_append, List.filter_singleton, hsees]
    simp
  · rw [answer_findById hid hvalue hv, hone]
    exact congrArg (fun answer => ((answer.map some).mapError Error.mapping, _)) hback
  · rw [answer_existsById hid hvalue hv, hone]
    rfl
  · rw [answer_deleteById hid hvalue hv, hone, hleft]
    rfl
  · rw [answer_findById hid hvalue hv, hnone]
  · rw [answer_existsById hid hvalue hv, hnone]
    rfl
  · rw [answer_deleteById hid hvalue hv, hnone, hkept]
    rfl

end Repository

namespace Declaration

def ticketStruct : StructDeclaration :=
  ⟨"Ticket", [⟨"number", ⟨[.name "u32"]⟩, [⟨"id", none⟩]⟩, ⟨"holder", ⟨[.name "String"]⟩, []⟩],
    [], .fields, ""⟩

def ticketType : EntityType :=
  ⟨⟨"Ticket", "fair::Ticket", [{ FieldDescriptor.id "number" with valueKind := some .uint },
      { FieldDescriptor.plain "holder" with valueKind := some .text }], none⟩,
    .mk "fair::Ticket" [⟨"number", .data (.int (.unsigned .w32)) (IntType.zero _)⟩,
      ⟨"holder", .data .text ""⟩] []⟩

def ticket (number : IntType.Carrier (.unsigned .w32)) (holder : String) : Entity :=
  .mk "fair::Ticket" [⟨"number", .data (.int (.unsigned .w32)) number⟩,
    ⟨"holder", .data .text holder⟩] []

end Declaration

open Declaration

namespace Mapping

def fair : Mapping :=
  ⟨⟨[ticketType], []⟩, Settings.standard,
    [⟨ticketType.metadata, ticketType.metadata.fields.map .stored⟩]⟩

theorem fair_accepted :
    Catalog.build Settings.standard [ticketType.metadata] = .ok fair.catalog := by cbv

theorem fair_declares : ∀ metadata ∈ [ticketType.metadata], fair.schema.Declares metadata :=
  Schema.declares_of_schema?
    (show schema? "fair" [] [ticketStruct] = some fair.schema by cbv) (by decide)

theorem fair_plain : fair.catalog.FlattensPlain := by
  intro x hx f hf hflat
  obtain rfl := List.mem_singleton.1 hx
  simp only [ticketType, List.mem_cons, List.not_mem_nil, or_false] at hf
  rcases hf with rfl | rfl <;> cases hflat

theorem fair_faithful : fair.schema.Faithful "fair::Ticket" := by
  intro inner t _ ht slot hslot data content hdata
  obtain rfl := List.mem_singleton.1 (List.mem_of_find?_eq_some ht)
  simp only [ticketType, Entity.slots, List.mem_cons, List.not_mem_nil, or_false] at hslot
  rcases hslot with rfl | rfl <;> cases hdata <;> trivial

end Mapping

theorem Repository.ticket_by_number : ∃ tickets : Repository, ∃ seven eight : Record,
    connect Mapping.fair "fair::Ticket" [] = .ok tickets ∧
    (tickets.save Memory.store (ticket ⟨7, by decide⟩ "Ada")).answer [eight] =
      (.ok (ticket ⟨7, by decide⟩ "Ada"), [eight, seven]) ∧
    (tickets.findById Memory.store (.text "7")).answer [eight, seven] =
      (.ok (some (ticket ⟨7, by decide⟩ "Ada")), [eight, seven]) ∧
    (tickets.deleteById Memory.store (.text "7")).answer [eight, seven] = (.ok 1, [eight]) ∧
    (tickets.existsById Memory.store (.text "7")).answer [eight] = (.ok false, [eight]) := by
  obtain ⟨tickets, htickets, hmeta⟩ : ∃ tickets, connect Mapping.fair "fair::Ticket" [] =
    .ok tickets ∧ tickets.metadata = ticketType.metadata := ⟨_, by cbv, by cbv⟩
  let eight : Record := ⟨"Ticket", [⟨"number", .uint 8⟩, ⟨"holder", .text "Bob"⟩]⟩
  have htyped : Mapping.fair.schema.Typed (ticket ⟨7, by decide⟩ "Ada") :=
    .intro (t := ticketType) rfl (.cons .data (.cons .data .nil))
  have hnew : ∀ record ∈ [eight], tickets.carries
      { FieldDescriptor.id "number" with valueKind := some .uint } (.uint 7) record = false := by
    intro record hmem
    obtain rfl := List.mem_singleton.1 hmem
    rw [carries, hmeta]
    cbv
  have hid : tickets.metadata.id? =
      some { FieldDescriptor.id "number" with valueKind := some .uint } := by
    rw [hmeta]
    rfl
  have hkey : DataType.IsKey (.int (.unsigned .w32)) := trivial
  have hnumber : (ticket ⟨7, by decide⟩ "Ada").slot? "number" =
    some (.data (.int (.unsigned .w32)) ⟨7, by decide⟩) := rfl
  obtain ⟨seven, kind, _, hkind, hsave, _, hall⟩ := saved_by_id Mapping.fair_accepted
    Mapping.fair_declares Mapping.fair_plain htickets Mapping.fair_faithful hid htyped rfl hkey
    hnumber hnew
  have hnormal : Mapping.fair.normal (ticket ⟨7, by decide⟩ "Ada") =
    ticket ⟨7, by decide⟩ "Ada" := by cbv
  obtain rfl := Option.some.inj hkind
  obtain ⟨hfind, _, hdelete, _, hexists, _⟩ := hall (.text "7") (by cbv)
  rw [hnormal] at hsave hfind
  exact ⟨tickets, seven, eight, htickets, hsave, hfind, hdelete, hexists⟩

end RecordMapping
