import RecordMapping.Proofs.Conversion.Extension
import RecordMapping.Proofs.Method.Compiled
import RecordMapping.Proofs.Method.Parts
import RecordMapping.Proofs.Query.Folding
import RecordMapping.Proofs.Repository.Reading
import RecordMapping.Proofs.Repository.Separation
/-!
Finding records is filtering entities: a method selects those of the saved entities whose fields
pass its comparisons, whatever else the store was given in between.
-/
namespace RecordMapping

open Catalog RecordMapping.Method

namespace Mapping

variable {m : Mapping}

/-- The value that a field with an attribute of its own adds to the record of an entity, unless the
field is empty. -/
def contributed (m : Mapping) (e : Entity) (field : String) : Option Value :=
  match e.read field with
  | .empty => none
  | .value v => some v
  | .entity inner => (m.catalog.encode inner).toOption.map .record
  | .entities es => (m.catalog.encodeItems es).toOption.map .list

theorem lookup_part {f : FieldDescriptor} (hf : f.isFlattened = false) {e : Entity}
    {own : List Attribute} (h : m.catalog.part f (e.read f.name) = .ok own) :
    Named.lookup f.nativeName own = m.contributed e f.name := by
  rw [contributed]
  cases hr : e.read f.name with
  | empty =>
    rw [hr] at h
    rw [← Except.ok.inj h]
    rfl
  | value v =>
    rw [hr] at h
    simp [← Except.ok.inj h, Named.lookup]
  | entity inner =>
    rw [hr] at h
    obtain ⟨attributes, ha, rfl⟩ := part_entity_ok h
    simp [hf, ha, Named.lookup, Except.toOption]
  | entities es =>
    rw [hr] at h
    obtain ⟨items, hitems, rfl⟩ := part_entities_ok h
    simp [hitems, Named.lookup, Except.toOption]

/-- Whether an entity passes the clauses of a method, joined from left to right, each of them with
its operand: a comparison is made with what the field of the clause contributes. -/
def passes (m : Mapping) (clauses : List Clause) (operands : List Value) (e : Entity) : Bool :=
  verdict (List.zipWith
    (fun c operand => (c.connector, Memory.holds (m.contributed e c.field) operand c.op))
    clauses operands)

section Part

variable {c : Catalog} (hm : Mapping.Sound ⟨m.schema, c⟩) (hext : m.catalog.Extends c)
  (hp : c.FlattensPlain) {e : Entity} (he : m.schema.Typed e) {x : CatalogEntry}
  (hx : c.entry? e.type = some x)
include hm hext he hx

theorem exists_toRecord : ∃ record, m.toRecord e = .ok record ∧
    c.encode e = .ok record.attributes ∧ record.name = x.metadata.collection := by
  obtain ⟨attributes, ha⟩ := (he.agrees hm ⟨x, hx⟩).encodes
  exact ⟨⟨x.metadata.collection, attributes⟩,
    hext.toRecord (toRecord_eq_ok_iff.2 ⟨x, hx, ha, rfl⟩), ha, rfl⟩

variable {record : Record} (hr : m.toRecord e = .ok record)
include hp hr

theorem find?_toRecord {f : FieldDescriptor} (hf : f ∈ x.metadata.fields)
    (hflat : f.isFlattened = false) : record.find? f.nativeName = m.contributed e f.name := by
  obtain ⟨written, hwritten, ha, _⟩ := exists_toRecord hm hext he hx
  obtain rfl := Except.ok.inj (hwritten.symm.trans hr)
  obtain ⟨own, hown⟩ := ((he.agrees hm ⟨x, hx⟩).suits hx f hf).hasPart
  rw [Record.find?, (hm.unambiguous hp he hx ha).field f hf hflat own hown]
  exact lookup_part hflat (hext.part hown)

theorem toEntity_toRecord (hf : m.schema.Faithful e.type) (hi : x.metadata.inheritance = none) :
    m.toEntity e.type record = .ok (m.normal e) := by
  obtain ⟨written, hwritten, ha, _⟩ := exists_toRecord hm hext he hx
  obtain rfl := Except.ok.inj (hwritten.symm.trans hr)
  have hnew := hext.instantiate (instantiate_encode hm (he.restores hm hp hf) hx ha)
  have hentry : m.entry e.type = .ok x := by rw [entry, hext hx]
  simp [toEntity, hentry, hi, hnew, he.normal_eq hm hext ⟨x, hx⟩, bind, Except.bind]

theorem satisfies_toRecord {clauses : List Clause}
    (hc : ∀ c ∈ clauses, ∃ f ∈ x.metadata.fields, c.Describes f ∧ f.isFlattened = false)
    (operands : List Value) :
    (Condition.fold (List.zipWith
      (fun c operand => (c.connector, .compare c.native c.op operand)) clauses operands)).all
        (Memory.satisfies record) = m.passes clauses operands e := by
  rw [Memory.all_fold, List.map_zipWith, passes]
  congr 1
  induction clauses generalizing operands with
  | nil => rfl
  | cons clause rest ih =>
    cases operands with
    | nil => rfl
    | cons operand operands =>
      obtain ⟨f, hf, ⟨hname, hnative, _⟩, hflat⟩ := hc clause List.mem_cons_self
      have hfind := find?_toRecord hm hext hp he hx hr hf hflat
      have hfirst : Memory.satisfies record (.compare clause.native clause.op operand) =
          Memory.holds (m.contributed e clause.field) operand clause.op := by
        rw [Memory.satisfies, hnative, hfind, hname]
      rw [List.zipWith_cons_cons, List.zipWith_cons_cons,
        ih (fun c hmem => hc c (List.mem_cons_of_mem _ hmem))]
      exact congrArg (fun b => (clause.connector, b) :: _) hfirst

end Part

theorem name_ne_of_toRecord {settings : Settings} {given : List EntityMetadata}
    (hb : Catalog.build settings given = .ok m.catalog)
    (hrooted : ∀ metadata ∈ given, ∀ i, metadata.inheritance = some i →
      metadata.collection = i.root)
    {type : String} {x : CatalogEntry} (hx : m.catalog.entry? type = some x)
    (hplain : x.metadata.inheritance = none) {e : Entity} (hne : e.type ≠ type) {record : Record}
    (hr : m.toRecord e = .ok record) : record.name ≠ x.metadata.collection := by
  obtain ⟨_, htypes, hc⟩ := build_spec hb
  obtain ⟨y, hy, _, hname⟩ := toRecord_eq_ok_iff.1 hr
  obtain ⟨hxmem, rfl⟩ := entry?_mem hx
  obtain ⟨hymem, hytype⟩ := entry?_mem hy
  rw [hname]
  cases hi : y.metadata.inheritance with
  | none =>
    have hapart := hc.apart.forall (mem_types hymem) (mem_types hxmem)
      fun h => hne (hytype.symm.trans (congrArg _ h))
    exact hapart.2.2 hi hplain
  | some i =>
    obtain ⟨metadata, hgiven, he⟩ := List.mem_map.1 (htypes ▸ mem_types hymem)
    rw [← he] at hi ⊢
    have hroot := hc.rootsFree _ (mem_types hymem) _ (mem_types hxmem) i (he ▸ hi) hplain
    exact (hrooted metadata hgiven i hi).trans_ne hroot.symm

end Mapping

namespace Repository

variable {ι : Type} {repositories : ι → Repository}

def after (repositories : ι → Repository) : List (ι × Operation) → List Record → List Record
  | [], records => records
  | (i, op) :: rest, records =>
    after repositories rest ((op.run (repositories i) Memory.store).answer records).2

theorem answers_append (steps more : List (ι × Operation)) (records : List Record) :
    answers repositories (steps ++ more) records =
      answers repositories steps records ++
        answers repositories more (after repositories steps records) := by
  induction steps generalizing records with
  | nil => rfl
  | cons step rest ih =>
    obtain ⟨i, op⟩ := step
    simp only [List.cons_append, answers, after, ih]

theorem after_save (r : Repository) (e : Entity) (records : List Record) :
    (((Operation.save e).run r Memory.store).answer records).2 =
      records ++ (r.mapping.toRecord e).toOption.toList := by
  rw [Operation.run, Session.state_bind_pure, answer_save]
  cases r.mapping.toRecord e with
  | error cause => exact (List.append_nil _).symm
  | ok record => rfl

theorem after_saves {m : Mapping} (hr : ∀ i, (repositories i).mapping = m)
    (saves : List (ι × Entity)) (records : List Record) :
    after repositories (saves.map fun (i, e) => (i, .save e)) records =
      records ++ (saves.map (·.2)).filterMap fun e => (m.toRecord e).toOption := by
  induction saves generalizing records with
  | nil => exact (List.append_nil _).symm
  | cons p rest ih =>
    rw [List.map_cons, after, after_save, ih, hr, List.append_assoc, List.map_cons,
      List.filterMap_cons]
    cases (m.toRecord p.2).toOption <;> rfl

section Part

variable {m : Mapping} {c : Catalog} (hm : Mapping.Sound ⟨m.schema, c⟩)
  (hext : m.catalog.Extends c) (hp : c.FlattensPlain) {x : CatalogEntry}
  {type : String} (hx : c.entry? type = some x) (hplain : x.metadata.inheritance = none)
  (hfaith : m.schema.Faithful type)
  (hother : ∀ e record, e.type ≠ type → m.toRecord e = .ok record →
    record.name ≠ x.metadata.collection)
  {es : List Entity} (hes : ∀ e ∈ es, e.type = type → m.schema.Typed e)
  {condition : Option Condition} {passes : Entity → Bool}
  (hpasses : ∀ e record, m.schema.Typed e → e.type = type → m.toRecord e = .ok record →
    condition.all (Memory.satisfies record) = passes e)
include hm hext hp hx hplain hfaith hother hes hpasses

/-- Reading the records of a plain type that satisfy a condition gives the entities of that type
whose records do, in the same order; records of other types are not even looked at. -/
theorem map_filter_stored :
    ((es.filterMap fun e => (m.toRecord e).toOption).filter
      (Memory.isMatch x.metadata.collection condition)).map (m.toEntity type) =
        ((es.filter fun e => e.type == type && passes e).map m.normal).map .ok := by
  induction es with
  | nil => rfl
  | cons e rest ih =>
    have hrest := ih fun e he => hes e (List.mem_cons_of_mem _ he)
    by_cases htype : e.type = type
    · have he := hes e List.mem_cons_self htype
      obtain ⟨record, hr, _, hname⟩ := Mapping.exists_toRecord hm hext he (htype ▸ hx)
      have hmatch : Memory.isMatch x.metadata.collection condition record = passes e := by
        rw [Memory.isMatch, hname, beq_self_eq_true, Bool.true_and, hpasses e record he htype hr]
      have hread := Mapping.toEntity_toRecord hm hext hp he (htype ▸ hx) hr (htype ▸ hfaith) hplain
      rw [htype] at hread
      rw [List.filterMap_cons, hr, Except.toOption, List.filter_cons, List.filter_cons, hmatch,
        htype, beq_self_eq_true, Bool.true_and]
      cases passes e with
      | false => exact hrest
      | true =>
        simp only [if_true, List.map_cons, hread, hrest]
    · -- another type: the entity has no record, or one in another collection
      have hskip : (e.type == type && passes e) = false := by
        rw [beq_eq_false_iff_ne.2 htype, Bool.false_and]
      rw [List.filterMap_cons, List.filter_cons, hskip]
      cases hr : m.toRecord e with
      | error err => exact hrest
      | ok record =>
        have hmatch : Memory.isMatch x.metadata.collection condition record = false := by
          rw [Memory.isMatch, beq_eq_false_iff_ne.2 (hother e record htype hr), Bool.false_and]
        rw [Except.toOption, List.filter_cons, hmatch]
        exact hrest

theorem readAll_stored {r : Repository} (hmapping : r.mapping = m) (hmeta : r.metadata = x.metadata)
    {records : List Record} (hforeign : ∀ record ∈ records, record.name ≠ r.metadata.collection) :
    r.readAll (Memory.select (records ++ es.filterMap fun e => (m.toRecord e).toOption)
      (r.narrow ⟨r.metadata.collection, condition, [], 0, 0⟩)) =
      .ok ((es.filter fun e => e.type == type && passes e).map m.normal) := by
  have hquery : r.narrow ⟨r.metadata.collection, condition, [], 0, 0⟩ =
      ⟨r.metadata.collection, condition, [], 0, 0⟩ := by
    rw [narrow, EntityMetadata.scope, hmeta, hplain]
  have hnone : records.filter (Memory.isMatch r.metadata.collection condition) = [] := by
    refine List.filter_eq_nil_iff.2 fun record hmem hmatch => hforeign record hmem ?_
    rw [Memory.isMatch, Bool.and_eq_true, beq_iff_eq] at hmatch
    exact hmatch.1
  have htype : r.metadata.type = type := by rw [hmeta, (entry?_mem hx).2]
  rw [readAll_eq_ok_iff, hmapping, hquery, Memory.select_plain rfl rfl rfl, List.filter_append,
    hnone, List.nil_append, htype, hmeta]
  exact map_filter_stored hm hext hp hx hplain hfaith hother hes hpasses

end Part

/-- A method that finds entities of a plain type by its own fields answers the saved entities of
that type that pass its clauses, in the order in which they were saved, whatever was saved in
between. Each clause is given its own values and compares them, coerced, with what its field
contributes. -/
theorem find_filters {settings : Settings} {given : List EntityMetadata} {m : Mapping}
    (hb : Catalog.build settings given = .ok m.catalog)
    (hrooted : ∀ metadata ∈ given, ∀ i, metadata.inheritance = some i →
      metadata.collection = i.root)
    (hp : m.catalog.FlattensPlain) {types : ι → String}
    (hr : ∀ j, ∃ methods, connect m (types j) methods = .ok (repositories j)) {i : ι}
    (hplain : (repositories i).metadata.inheritance = none)
    (hd : ∀ metadata ∈ given, m.catalog.Leads (types i) metadata.type →
      m.schema.Declares metadata)
    (hfaith : m.schema.Faithful (types i)) {method : String} {t : Template}
    (ht : Named.lookup method (repositories i).methods = some t) (hfind : t.name.action = .find)
    (hsorts : t.name.sorts = [])
    (hflat : ∀ c ∈ t.name.clauses, ∀ f ∈ (repositories i).metadata.fields, f.name = c.field →
      f.isFlattened = false)
    {values : List Value} {request : Request} (ha : t.assemble (values.map .value) = .ok request)
    {saves : List (ι × Entity)}
    (hsaves : ∀ p ∈ saves, p.2.type = types i → m.schema.Typed p.2) {records : List Record}
    (hforeign : ∀ record ∈ records, record.name ≠ (repositories i).metadata.collection) :
    ∃ operands, List.Forall₂ (fun p operand => t.coerce p.1 (gather p.1.op p.2) = .ok operand)
        (allot t.name.clauses values) operands ∧
      (answers repositories (saves.map (fun (j, e) => (j, .save e)) ++
        [(i, .invoke ⟨method, values.map .value⟩)]) records).getLast? =
        some (i, .ok (.outcome (.entities (((saves.map (·.2)).filter fun e =>
          e.type == types i && m.passes t.name.clauses operands e).map m.normal)))) := by
  -- the types that this one needs are a sound mapping, whatever the others are
  obtain ⟨c, hext, hm, hflattens, hsame⟩ := Mapping.exists_sound_part hb hd hp
  obtain ⟨methods, hconnect⟩ := hr i
  obtain ⟨hmapping, hentry, htable⟩ := connect_eq_ok_iff.1 hconnect
  have hx : c.entry? (types i) = some (repositories i).entry := hsame.trans hentry
  obtain ⟨_, hcompile⟩ := (MethodTable.lookup_of_compile htable).1 ht
  obtain ⟨_, operands, hoperands, rfl⟩ := Template.assemble_map_value_iff.1 ha
  refine ⟨operands, hoperands, ?_⟩
  have hclauses : ∀ c ∈ t.name.clauses, ∃ f ∈ (repositories i).metadata.fields, c.Describes f ∧
      f.isFlattened = false := by
    intro c hc
    obtain ⟨f, hf, hdescribes⟩ := Template.describes_of_compile hcompile c hc
    exact ⟨f, hf, hdescribes, hflat c hc f hf hdescribes.1.symm⟩
  have htyped : ∀ e ∈ saves.map (·.2), e.type = types i → m.schema.Typed e := by
    intro e he
    obtain ⟨p, hmem, rfl⟩ := List.mem_map.1 he
    exact hsaves p hmem
  have hread := readAll_stored hm hext hflattens hx hplain hfaith
    (fun _ _ hne => Mapping.name_ne_of_toRecord hb hrooted hentry hplain hne) htyped
    (fun e record he hetype hrecord =>
      Mapping.satisfies_toRecord hm hext hflattens he (hetype ▸ hx) hrecord hclauses operands)
    hmapping rfl hforeign
  rw [hsorts, Template.collection_of_compile hcompile] at ha
  have hanswer : ((repositories i).invoke Memory.store ⟨method, values.map .value⟩).answer
      (records ++ (saves.map (·.2)).filterMap fun e => (m.toRecord e).toOption) =
        (.ok (foundAs _ none), _) :=
    answer_invoke_found ht ha hfind rfl hread
  have hstored : after repositories (saves.map fun (j, e) => (j, .save e)) records =
      records ++ (saves.map (·.2)).filterMap fun e => (m.toRecord e).toOption := by
    refine after_saves (fun j => ?_) saves records
    obtain ⟨_, hconnected⟩ := hr j
    exact (connect_eq_ok_iff.1 hconnected).1
  rw [answers_append, hstored]
  simp only [answers, List.getLast?_concat, Operation.run, Session.answer_bind_ok hanswer]
  rfl

end Repository

namespace Declaration

def stampStruct : StructDeclaration :=
  ⟨"Stamp", [⟨"country", ⟨[.name "String"]⟩, [⟨"name", some "land"⟩]⟩,
    ⟨"cents", ⟨[.name "Option", .group .angle [.name "u32"]]⟩, []⟩], [], .fields, ""⟩

abbrev cents : DataType := .option (.int (.unsigned .w32))

def stampType : EntityType :=
  ⟨⟨"Stamp", "post::Stamp", [{ FieldDescriptor.plain "country" with
      nativeName := "land", valueKind := some .text },
    { FieldDescriptor.plain "cents" with valueKind := some .uint }], none⟩,
    .mk "post::Stamp" [⟨"country", .data .text ""⟩, ⟨"cents", .data cents cents.blank⟩] []⟩

def stamp (country : String) (worth : cents.Carrier) : Entity :=
  .mk "post::Stamp" [⟨"country", .data .text country⟩, ⟨"cents", .data cents worth⟩] []

end Declaration

open Declaration

namespace Mapping

def album : Mapping :=
  ⟨⟨[stampType], []⟩, Settings.standard, [stampType, mailType "Letter" "post::Letter"].map fun t =>
    ⟨t.metadata, t.metadata.fields.map .stored⟩⟩

theorem album_accepted : Catalog.build Settings.standard
    ([stampType, mailType "Letter" "post::Letter"].map (·.metadata)) = .ok album.catalog := by cbv

theorem album_rooted : ∀ metadata ∈ [stampType, mailType "Letter" "post::Letter"].map (·.metadata),
    ∀ i, metadata.inheritance = some i → metadata.collection = i.root := by
  intro metadata hmem i hi
  simp only [List.map_cons, List.map_nil, List.mem_cons, List.not_mem_nil, or_false] at hmem
  rcases hmem with rfl | rfl
  · cases hi
  · cases hi
    rfl

theorem album_plain : album.catalog.FlattensPlain := by
  intro x hx f hf hflat
  simp only [album, List.map_cons, List.map_nil, List.mem_cons, List.not_mem_nil, or_false] at hx
  rcases hx with rfl | rfl
  · simp only [stampType, List.mem_cons, List.not_mem_nil, or_false] at hf
    rcases hf with rfl | rfl <;> cases hflat
  · simp only [mailType, List.mem_cons, List.not_mem_nil, or_false] at hf
    subst hf
    cases hflat

theorem album_leads {type : String} (h : album.catalog.Leads "post::Stamp" type) :
    type = "post::Stamp" := by
  induction h with
  | self => rfl
  | field _ hm hf ht ih =>
    simp only [Catalog.types, album, List.map_cons, List.map_nil, List.mem_cons,
      List.not_mem_nil, or_false] at hm
    rcases hm with rfl | rfl
    · simp only [stampType, List.mem_cons, List.not_mem_nil, or_false] at hf
      rcases hf with rfl | rfl <;> cases ht
    · exact absurd ih (by decide)

theorem album_declares : ∀ metadata ∈
    [stampType, mailType "Letter" "post::Letter"].map (·.metadata),
    album.catalog.Leads "post::Stamp" metadata.type → album.schema.Declares metadata := by
  intro metadata hmem hleads
  simp only [List.map_cons, List.map_nil, List.mem_cons, List.not_mem_nil, or_false] at hmem
  rcases hmem with rfl | rfl
  · exact ⟨stampType, rfl, rfl, "post", stampStruct, _, by cbv, by cbv⟩
  · exact absurd (album_leads hleads) (by decide)

theorem album_faithful : album.schema.Faithful "post::Stamp" := by
  intro inner t _ ht slot hslot data content hdata
  have hmem : t ∈ [stampType] := List.mem_of_find?_eq_some ht
  obtain rfl := List.mem_singleton.1 hmem
  simp only [stampType, Entity.slots, List.mem_cons, List.not_mem_nil, or_false] at hslot
  rcases hslot with rfl | rfl <;> cases hdata
  · trivial
  · exact ⟨rfl, trivial⟩

theorem stamp_typed (country : String) (worth : cents.Carrier) :
    album.schema.Typed (stamp country worth) :=
  .intro (t := stampType) rfl (.cons .data (.cons .data .nil))

end Mapping

theorem Repository.stamps_found : ∃ stamps letters : Repository,
    connect Mapping.album "post::Stamp" ["findByCountryOrCentsGreaterThan"] = .ok stamps ∧
    connect Mapping.album "post::Letter" [] = .ok letters ∧
    (answers (fun b : Bool => bif b then stamps else letters)
      ([(true, .save (stamp "FR" none)), (false, .save (Mapping.letter "hello")),
        (true, .save (stamp "IT" (some ⟨80, by decide⟩))),
        (true, .save (stamp "IT" (some ⟨10, by decide⟩)))] ++
        [(true, .invoke ⟨"findByCountryOrCentsGreaterThan",
          [.value (.text "FR"), .value (.text "50")]⟩)]) []).getLast? =
      some (true, .ok (.outcome (.entities
        [stamp "FR" none, stamp "IT" (some ⟨80, by decide⟩)]))) := by
  obtain ⟨stamps, t, q, hstamps, hmeta, ht, hfind, hsorts, hcoerces, hclauses, ha⟩ :
      ∃ stamps t q,
        connect Mapping.album "post::Stamp" ["findByCountryOrCentsGreaterThan"] = .ok stamps ∧
        stamps.metadata = stampType.metadata ∧
        Named.lookup "findByCountryOrCentsGreaterThan" stamps.methods = some t ∧
        t.name.action = .find ∧ t.name.sorts = [] ∧ t.coerces = true ∧
        t.name.clauses = [⟨.and, "country", "land", .equals, some .text⟩,
          ⟨.or, "cents", "cents", .greater, some .uint⟩] ∧
        t.assemble ([.text "FR", .text "50"].map .value) = .ok q :=
    ⟨_, _, _, by cbv, by cbv, by cbv, by cbv, by cbv, by cbv, by cbv, by cbv⟩
  obtain ⟨letters, hletters⟩ : ∃ letters, connect Mapping.album "post::Letter" [] =
    .ok letters := ⟨_, by cbv⟩
  refine ⟨stamps, letters, hstamps, hletters, ?_⟩
  have hconnect : ∀ b : Bool, ∃ methods, connect Mapping.album
      (bif b then "post::Stamp" else "post::Letter") methods =
        .ok (bif b then stamps else letters) := by
    intro b
    cases b with
    | false => exact ⟨_, hletters⟩
    | true => exact ⟨_, hstamps⟩
  have hflat : ∀ c ∈ t.name.clauses, ∀ f ∈ stamps.metadata.fields, f.name = c.field →
      f.isFlattened = false := by
    intro c _ f hf _
    rw [hmeta] at hf
    simp only [stampType, List.mem_cons, List.not_mem_nil, or_false] at hf
    rcases hf with rfl | rfl <;> rfl
  have hsaves : ∀ p ∈ [(true, stamp "FR" none), (false, Mapping.letter "hello"),
      (true, stamp "IT" (some ⟨80, by decide⟩)), (true, stamp "IT" (some ⟨10, by decide⟩))],
      p.2.type = "post::Stamp" → Mapping.album.schema.Typed p.2 := by
    intro p hp htype
    simp only [List.mem_cons, List.not_mem_nil, or_false] at hp
    rcases hp with rfl | rfl | rfl | rfl
    · exact Mapping.stamp_typed ..
    · exact absurd htype (by decide)
    · exact Mapping.stamp_typed ..
    · exact Mapping.stamp_typed ..
  obtain ⟨operands, hoperands, hfound⟩ := find_filters (i := true) Mapping.album_accepted
    Mapping.album_rooted Mapping.album_plain hconnect (congrArg EntityMetadata.inheritance hmeta)
    Mapping.album_declares Mapping.album_faithful ht hfind hsorts hflat ha hsaves
    fun _ h => absurd h List.not_mem_nil
  have htext : t.coerce ⟨.and, "country", "land", .equals, some .text⟩ (.text "FR") =
      .ok (.text "FR") := by
    rw [Template.coerce]
    simp only [hcoerces]
    rfl
  have huint : t.coerce ⟨.or, "cents", "cents", .greater, some .uint⟩ (.text "50") =
      .ok (.uint 50) := by
    rw [Template.coerce]
    simp only [hcoerces]
    cbv
  rw [hclauses] at hoperands hfound
  cases hoperands with
  | cons hfirst hrest =>
    cases hrest with
    | cons hsecond hnil =>
      cases hnil
      obtain rfl := Except.ok.inj (htext.symm.trans hfirst)
      obtain rfl := Except.ok.inj (huint.symm.trans hsecond)
      refine hfound.trans ?_
      cbv

end RecordMapping
