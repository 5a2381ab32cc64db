import RecordMapping.Proofs.Conversion.Generated
/-!
What populating changes. A field that the attributes do not mention stays as it is. A nested entity
is populated by the same rules, from the attributes of its record or, if it is flattened, from those
of its owner; a missing one is made only then. Collections keep their elements and grow by one for
each record that is listed.
-/
namespace RecordMapping

/-- How a slot has its entity replaced by another. A missing entity counts as a new one. -/
inductive Slot.Replaces (blank : String → Entity) : Slot → Entity → Entity → Slot → Prop
  | single {inner filled : Entity} : Replaces blank (.single inner) inner filled (.single filled)
  | optional {target : String} {inner filled : Entity} :
    Replaces blank (.optional target (some inner)) inner filled (.optional target (some filled))
  | missing {target : String} {filled : Entity} :
    Replaces blank (.optional target none) (blank target) filled (.optional target (some filled))

mutual

/-- Whether an entity with the given fields was populated from attributes: its type, the names of
its slots, its hidden fields and the slots of no field are what they were. -/
inductive Populated (c : Catalog) (blank : String → Entity) :
    List FieldDescriptor → List Attribute → Entity → Entity → Prop
  | intro {fields : List FieldDescriptor} {attributes : List Attribute} {e filled : Entity} :
    filled.type = e.type → filled.hidden = e.hidden →
    Named.names filled.slots = Named.names e.slots →
    (∀ name, (∀ f ∈ fields, f.name ≠ name) → filled.slot? name = e.slot? name) →
    (∀ f ∈ fields, PopulatedField c blank f attributes (e.slot? f.name) (filled.slot? f.name)) →
    Populated c blank fields attributes e filled

/-- What becomes of the slot of one field. -/
inductive PopulatedField (c : Catalog) (blank : String → Entity) :
    FieldDescriptor → List Attribute → Option Slot → Option Slot → Prop
  /-- A field stays as it is if it has no attribute, unless it is flattened. -/
  | lacking {f : FieldDescriptor} {attributes : List Attribute} {slot : Option Slot} :
    ¬ (f.isFlattened = true ∧ f.target.isSome = true) →
    Named.lookup f.nativeName attributes = none → PopulatedField c blank f attributes slot slot
  /-- A field for entities also stays as it is if its attribute is `null`. -/
  | null {f : FieldDescriptor} {attributes : List Attribute} {slot : Option Slot} :
    ¬ f.IsValue → f.isFlattened = false → Named.lookup f.nativeName attributes = some .null →
    PopulatedField c blank f attributes slot slot
  /-- A flattened field stays as it is if no name in the layout of its type is present. -/
  | absent {f : FieldDescriptor} {attributes : List Attribute} {slot : Option Slot}
    {target : String} {y : CatalogEntry} : f.isFlattened = true → f.target = some target →
    c.entry? target = some y →
    (∀ name ∈ LayoutItem.allNames y.items, isPresent attributes name = false) →
    PopulatedField c blank f attributes slot slot
  | written {f : FieldDescriptor} {attributes : List Attribute} {v w : Value} {t : DataType}
    {x y : t.Carrier} : f.IsValue → Named.lookup f.nativeName attributes = some v →
    f.coerced v = .ok w → t.ofValue? w = some x →
    PopulatedField c blank f attributes (some (.data t y)) (some (.data t x))
  /-- A nested entity is populated from the attributes of its record. -/
  | nested {f : FieldDescriptor} {attributes inside : List Attribute} {target : String}
    {before after : Slot} {inner filled : Entity} : f.isNested = true → f.isFlattened = false →
    f.target = some target → Named.lookup f.nativeName attributes = some (.record inside) →
    before.Replaces blank inner filled after →
    Populated c blank (c.fieldsOf target) inside inner filled →
    PopulatedField c blank f attributes (some before) (some after)
  /-- A flattened entity is populated from the attributes of its owner. -/
  | flattened {f : FieldDescriptor} {attributes : List Attribute} {target : String}
    {y : CatalogEntry} {before after : Slot} {inner filled : Entity} : f.isFlattened = true →
    f.target = some target → c.entry? target = some y →
    (∃ name ∈ LayoutItem.allNames y.items, isPresent attributes name = true) →
    before.Replaces blank inner filled after →
    Populated c blank (c.fieldsOf target) attributes inner filled →
    PopulatedField c blank f attributes (some before) (some after)
  | empty {f : FieldDescriptor} {attributes : List Attribute} {slot : Option Slot} :
    f.kind = .collection → f.target.isSome = true →
    Named.lookup f.nativeName attributes = some (.list []) →
    PopulatedField c blank f attributes slot slot
  /-- A collection keeps its elements and is extended by what the records make of new ones. -/
  | extended {f : FieldDescriptor} {attributes : List Attribute} {target made : String}
    {values : List Value} {es others : List Entity} : f.kind = .collection →
    f.target = some target → Named.lookup f.nativeName attributes = some (.list values) →
    PopulatedAll c blank (c.fieldsOf target) (blank made) values others →
    PopulatedField c blank f attributes (some (.many made es)) (some (.many made (es ++ others)))

/-- Whether entities come of a new one that was populated from each of the given records. -/
inductive PopulatedAll (c : Catalog) (blank : String → Entity) :
    List FieldDescriptor → Entity → List Value → List Entity → Prop
  | nil {fields : List FieldDescriptor} {new : Entity} : PopulatedAll c blank fields new [] []
  | cons {fields : List FieldDescriptor} {new filled : Entity} {inside : List Attribute}
    {rest : List Value} {others : List Entity} : Populated c blank fields inside new filled →
    PopulatedAll c blank fields new rest others →
    PopulatedAll c blank fields new (.record inside :: rest) (filled :: others)

end

theorem Filling.andThen_eq_done_iff {r : Filling} {next : Entity → Filling} {e : Entity} :
    r.andThen next = .done e ↔ ∃ between, r = .done between ∧ next between = .done e := by
  obtain ⟨entity, error?⟩ := r
  cases error? with
  | none =>
    constructor
    · exact fun h => ⟨entity, rfl, h⟩
    · rintro ⟨_, ⟨⟩, h⟩
      exact h
  | some error => simp [andThen, done]

namespace Entity

variable {e filled : Entity} {name owner : String} {slot : Slot}

@[simp] theorem names_slots_assign :
    Named.names (e.assign name slot).slots = Named.names e.slots := by
  cases e
  exact Named.names_assign name slot _

theorem assign_assign (other : Slot) :
    (e.assign name other).assign name slot = e.assign name slot := by
  cases e with
  | mk type slots hidden =>
    exact congrArg (Entity.mk type · hidden) (Named.assign_assign name slot other slots)

variable {blank : String → Entity} {fill : Entity → Filling}

theorem fillPart_eq_done_iff {inner? : Option Entity} {put : Entity → Entity} :
    e.fillPart owner name inner? put fill = .done filled ↔
      ∃ inner other, inner? = some inner ∧ fill inner = .done other ∧ filled = put other := by
  cases inner? with
  | none => simp [fillPart, Filling.fail, Filling.done]
  | some inner =>
    constructor
    · intro h
      obtain ⟨hentity, herror⟩ := Filling.mk.inj h
      exact ⟨inner, (fill inner).entity, rfl, by rw [Filling.done, ← herror], hentity.symm⟩
    · rintro ⟨_, other, ⟨⟩, hother, rfl⟩
      rw [fillPart, hother]
      rfl

theorem exists_of_fillNested (h : e.fillNested blank owner name fill = .done filled) :
    ∃ before after inner other, e.slot? name = some before ∧
      before.Replaces blank inner other after ∧ fill inner = .done other ∧
      filled = e.assign name after := by
  rw [fillNested_eq, fillPart_eq_done_iff] at h
  obtain ⟨inner, other, hinner, hfill, rfl⟩ := h
  rw [nested?] at hinner
  split at hinner
  case h_1 held hs =>
    obtain rfl := Option.some.inj hinner
    exact ⟨_, _, _, _, hs, .single, hfill, by simp only [putNested, hs]⟩
  case h_2 target held hs =>
    obtain rfl := Option.some.inj hinner
    exact ⟨_, _, _, _, hs, .optional, hfill, by simp only [putNested, hs]⟩
  case h_3 target hs =>
    obtain rfl := Option.some.inj hinner
    exact ⟨_, _, _, _, hs, .missing, hfill, by simp only [putNested, hs]⟩
  case h_4 => cases hinner

theorem exists_of_fillElement (h : e.fillElement blank owner name fill = .done filled) :
    ∃ made es other, e.slot? name = some (.many made es) ∧ fill (blank made) = .done other ∧
      filled = e.assign name (.many made (es ++ [other])) := by
  rw [fillElement_eq, fillPart_eq_done_iff] at h
  obtain ⟨inner, other, hinner, hfill, rfl⟩ := h
  rw [element?] at hinner
  split at hinner
  case h_1 made es hs =>
    obtain rfl := Option.some.inj hinner
    exact ⟨made, es, other, hs, hfill, by simp only [append, hs]⟩
  case h_2 => cases hinner

end Entity

namespace Populated

variable {c : Catalog} {blank : String → Entity} {attributes : List Attribute}
  {f : FieldDescriptor} {e filled : Entity}

theorem nil (e : Entity) : Populated c blank [] attributes e e :=
  .intro rfl rfl rfl (fun _ _ => rfl) fun _ hf => absurd hf List.not_mem_nil

theorem of_kept (h : PopulatedField c blank f attributes (e.slot? f.name) (e.slot? f.name)) :
    Populated c blank [f] attributes e e :=
  .intro rfl rfl rfl (fun _ _ => rfl) fun _ hg => List.mem_singleton.1 hg ▸ h

theorem of_assign {before after : Slot} (hs : e.slot? f.name = some before)
    (h : PopulatedField c blank f attributes (some before) (some after)) :
    Populated c blank [f] attributes e (e.assign f.name after) := by
  refine .intro (Entity.type_assign after) (Entity.hidden_assign after) Entity.names_slots_assign
    (fun name hname => ?_) fun g hg => ?_
  · exact Entity.slot?_assign_of_ne (hname f List.mem_cons_self).symm after
  · obtain rfl := List.mem_singleton.1 hg
    rw [hs, Entity.slot?_assign_self hs after]
    exact h

theorem cons {fields : List FieldDescriptor} {between : Entity}
    (hfirst : Populated c blank [f] attributes e between)
    (hrest : Populated c blank fields attributes between filled)
    (hn : f.name ∉ fields.map (·.name)) : Populated c blank (f :: fields) attributes e filled := by
  obtain ⟨htype, hhidden, hnames, hothers, hfield⟩ := hfirst
  obtain ⟨htype', hhidden', hnames', hothers', hfields⟩ := hrest
  refine .intro (htype'.trans htype) (hhidden'.trans hhidden) (hnames'.trans hnames)
    (fun name hname => ?_) fun g hg => ?_
  · obtain ⟨hne, hrest⟩ := List.forall_mem_cons.1 hname
    rw [hothers' name hrest, hothers name fun g hg => List.mem_singleton.1 hg ▸ hne]
  · rcases List.mem_cons.1 hg with rfl | hg
    · have hkept : ∀ other ∈ fields, other.name ≠ g.name := fun other hother heq =>
        hn (heq ▸ List.mem_map_of_mem hother)
      rw [hothers' g.name hkept]
      exact hfield g List.mem_cons_self
    · have hne : f.name ≠ g.name := fun heq => hn (heq ▸ List.mem_map_of_mem hg)
      rw [← hothers g.name fun _ hother => List.mem_singleton.1 hother ▸ hne]
      exact hfields g hg

end Populated

namespace Catalog

open LayoutItem

variable {c : Catalog} {blank : String → Entity}

theorem populated_of_fillPlain {owner : String} {f : FieldDescriptor}
    {attributes : List Attribute} {e filled : Entity} (hf : f.IsValue)
    (h : e.fillPlain owner f attributes = .done filled) :
    Populated c blank [f] attributes e filled := by
  rcases Entity.fillPlain_eq_done_iff.1 h with ⟨hnone, rfl⟩ | ⟨v, w, hv, hw, hwrite⟩
  · exact .of_kept (.lacking hf.not_flattened hnone)
  · obtain ⟨t, x, y, hs, hx, rfl⟩ := Entity.write_eq_ok_iff.1 hwrite
    exact .of_assign hs (.written hf hv hw hx)

mutual

/-- Filling populates the fields that a layout describes. -/
theorem populated_of_fill (hc : c.Consistent) {m : EntityMetadata} (hm : m ∈ c.types)
    (attributes : List Attribute) (items : List LayoutItem) {fields : List FieldDescriptor}
    (hfields : ∀ f ∈ fields, f ∈ m.fields) (hn : (fields.map (·.name)).Nodup)
    (hd : DescribesAll c.types items fields) {owner : String} {e filled : Entity}
    (h : c.fill blank owner attributes items e = .done filled) :
    Populated c blank fields attributes e filled := by
  match items, fields with
  | [], [] =>
    rw [fill_nil] at h
    obtain rfl := (Filling.mk.inj h).1
    exact .nil e
  | [], _ :: _ => exact hd.elim
  | _ :: _, [] => exact hd.elim
  | item :: rest, f :: fields =>
    rw [fill] at h
    obtain ⟨between, hfirst, hrest⟩ := Filling.andThen_eq_done_iff.1 h
    obtain ⟨hfresh, hn⟩ := List.nodup_cons.1 hn
    exact .cons (populated_of_fillItem hc hm attributes item (hfields f List.mem_cons_self) hd.1
      hfirst) (populated_of_fill hc hm attributes rest
        (fun g hg => hfields g (List.mem_cons_of_mem f hg)) hn hd.2 hrest) hfresh
termination_by (sizeOf attributes, sizeOf items)

theorem populated_of_fillItem (hc : c.Consistent) {m : EntityMetadata} (hm : m ∈ c.types)
    (attributes : List Attribute) (item : LayoutItem) {f : FieldDescriptor} (hf : f ∈ m.fields)
    (hd : item.Describes c.types f) {owner : String} {e filled : Entity}
    (h : c.fillItem blank owner attributes item e = .done filled) :
    Populated c blank [f] attributes e filled := by
  match item with
  | .group g t items =>
    obtain ⟨y, hy, rfl, rfl⟩ := hc.exists_entry_of_group hd
    obtain ⟨_, htarget⟩ := target_of_group hd
    obtain ⟨rfl, hflat, _, hitems⟩ := hd
    have hentry := hc.entry?_type hy
    cases hany : (allNames y.items).any (isPresent attributes) with
    | false =>
      rw [fillItem_group_absent hany] at h
      obtain rfl := (Filling.mk.inj h).1
      exact .of_kept (.absent hflat htarget hentry fun name hname => by
        simpa using List.any_eq_false.1 hany name hname)
    | true =>
      rw [fillItem_group hany] at h
      obtain ⟨before, after, inner, other, hs, hreplaces, hfill, rfl⟩ :=
        Entity.exists_of_fillNested h
      refine .of_assign hs (.flattened hflat htarget hentry (List.any_eq_true.1 hany) hreplaces ?_)
      rw [hc.fieldsOf_type (mem_types hy)]
      exact populated_of_fill hc (mem_types hy) attributes y.items (fun _ hf => hf)
        (hc.fieldsDistinct _ (mem_types hy)) hitems hfill
  | .detached g =>
    obtain ⟨rfl, _, htarget⟩ := hd
    rw [fillItem] at h
    have hnone := Stepwise.target_of_detached hc hm hf htarget
    exact populated_of_fillPlain (FieldDescriptor.isValue_of_target hnone) h
  | .stored g =>
    obtain ⟨rfl, hflat⟩ := hd
    cases g.filledFrom attributes with
    | value hvalue =>
      rw [fillItem_value hvalue] at h
      exact populated_of_fillPlain hvalue h
    | absent hv =>
      rw [fillItem_absent hv] at h
      obtain rfl := (Filling.mk.inj h).1
      exact .of_kept (.lacking (by simp [hflat]) hv)
    | null hentity hv =>
      rw [fillItem_null hentity hv] at h
      obtain rfl := (Filling.mk.inj h).1
      exact .of_kept (.null hentity hflat hv)
    | @nested target v hnested ht hv hnull =>
      -- What is found under the name of the field is smaller than the attributes.
      have hsize := sizeOf_lt_of_lookup hv
      obtain ⟨x, hx⟩ := hc.target hm hf ht
      obtain ⟨hmem, rfl⟩ := entry?_mem hx
      cases v with
      | record inside =>
        have : sizeOf inside < sizeOf attributes := by
          simp only [Value.record.sizeOf_spec] at hsize
          omega
        rw [fillItem_nested hnested ht hx hv] at h
        obtain ⟨before, after, inner, other, hs, hreplaces, hfill, rfl⟩ :=
          Entity.exists_of_fillNested h
        refine .of_assign hs (.nested hnested hflat ht hv hreplaces ?_)
        rw [hc.fieldsOf_type (mem_types hmem)]
        exact populated_of_fill hc (mem_types hmem) inside x.items (fun _ hf => hf)
          (hc.fieldsDistinct _ (mem_types hmem)) (hc.described x hmem) hfill
      | _ =>
        rw [fillItem_of_isNested hnested ht hv hnull, hx] at h
        cases h
    | @collection target v hk ht hv hnull =>
      have hsize := sizeOf_lt_of_lookup hv
      obtain ⟨x, hx⟩ := hc.target hm hf ht
      obtain ⟨hmem, rfl⟩ := entry?_mem hx
      cases v with
      | list values =>
        have : sizeOf values < sizeOf attributes := by
          simp only [Value.list.sizeOf_spec] at hsize
          omega
        rw [fillItem_many hk ht hx hv] at h
        rcases populatedAll_of_fillElements hc hmem values h with
          ⟨rfl, rfl⟩ | ⟨made, es, others, hs, rfl, hall⟩
        · exact .of_kept (.empty hk (by simp [ht]) hv)
        · exact .of_assign hs (.extended hk ht hv hall)
      | _ =>
        rw [fillItem_of_collection hk ht hv hnull, hx] at h
        cases h
termination_by (sizeOf attributes, sizeOf item)

theorem populatedAll_of_fillElements (hc : c.Consistent) {x : CatalogEntry} (hx : x ∈ c.entries)
    (values : List Value) {owner field : String} {e filled : Entity}
    (h : c.fillElements blank owner field x values e = .done filled) :
    (values = [] ∧ filled = e) ∨ ∃ made es others, e.slot? field = some (.many made es) ∧
      filled = e.assign field (.many made (es ++ others)) ∧
      PopulatedAll c blank (c.fieldsOf x.metadata.type) (blank made) values others := by
  match values with
  | [] =>
    rw [fillElements] at h
    exact .inl ⟨rfl, (Filling.mk.inj h).1.symm⟩
  | v :: rest =>
    cases v with
    | record inside =>
      rw [fillElements] at h
      obtain ⟨between, hfirst, hrest⟩ := Filling.andThen_eq_done_iff.1 h
      obtain ⟨made, es, other, hs, hfill, rfl⟩ := Entity.exists_of_fillElement hfirst
      have hother : Populated c blank (c.fieldsOf x.metadata.type) inside (blank made) other := by
        rw [hc.fieldsOf_type (mem_types hx)]
        exact populated_of_fill hc (mem_types hx) inside x.items (fun _ hf => hf)
          (hc.fieldsDistinct _ (mem_types hx)) (hc.described x hx) hfill
      refine .inr ⟨made, es, ?_⟩
      rcases populatedAll_of_fillElements hc hx rest hrest with
        ⟨rfl, rfl⟩ | ⟨made', es', others, hs', rfl, hall⟩
      · exact ⟨[other], hs, rfl, .cons hother .nil⟩
      · rw [Entity.slot?_assign_self hs] at hs'
        obtain ⟨rfl, rfl⟩ := Slot.many.inj (Option.some.inj hs')
        refine ⟨other :: others, hs, ?_, .cons hother hall⟩
        rw [Entity.assign_assign, List.append_assoc, List.singleton_append]
    | _ =>
      simp only [fillElements] at h
      cases h
termination_by (sizeOf values, 0)

end

end Catalog

namespace Mapping

open Catalog Declaration

variable {m : Mapping} {x : CatalogEntry}

theorem populated_of_populate (hc : m.catalog.Consistent) (hx : x ∈ m.catalog.entries)
    {e filled : Entity} (he : e.type = x.metadata.type) {r : Record}
    (h : m.populate e r = .done filled) :
    Populated m.catalog m.schema.blank x.metadata.fields r.attributes e filled := by
  have hentry : m.entry e.type = .ok x := by rw [entry, he, hc.entry?_type hx]
  rw [populate, hentry] at h
  exact populated_of_fill hc (mem_types hx) r.attributes x.items (fun _ hf => hf)
    (hc.fieldsDistinct _ (mem_types hx)) (hc.described x hx) h

theorem result_populate_blank (hc : m.catalog.Consistent) (hx : x ∈ m.catalog.entries)
    (hi : x.metadata.inheritance = none)
    (hblank : (m.schema.blank x.metadata.type).type = x.metadata.type) (r : Record) :
    (m.populate (m.schema.blank x.metadata.type) r).result = m.toEntity x.metadata.type r := by
  have hentry : m.entry x.metadata.type = .ok x := by rw [entry, hc.entry?_type hx]
  simp [populate, toEntity, hblank, hentry, hi, instantiate, bind, Except.bind]

/-- Populating an entity of a derived type changes what the record mentions, and nothing else. A new
entity of a type that is no subtype is populated with what would be read. -/
theorem populates_what_is_mentioned {settings : Settings} {given : List EntityMetadata}
    (hb : Catalog.build settings given = .ok m.catalog) {type : String} (hd : m.Derives type) :
    (∀ (e filled : Entity) (r : Record), e.type = type → m.populate e r = .done filled →
      Populated m.catalog m.schema.blank (m.catalog.fieldsOf type) r.attributes e filled) ∧
    ((∀ x, m.catalog.entry? type = some x → x.metadata.inheritance = none) →
      ∀ r, (m.populate (m.schema.blank type) r).result = m.toEntity type r) := by
  obtain ⟨_, _, hc⟩ := Catalog.build_spec hb
  obtain ⟨x, hx, hcoherent⟩ := hd.coherent
  obtain ⟨hmem, rfl⟩ := entry?_mem hx
  constructor
  · intro e filled r he h
    rw [hc.fieldsOf_type (mem_types hmem)]
    exact populated_of_populate hc hmem he h
  · exact fun hplain => result_populate_blank hc hmem (hplain x hx) hcoherent.type

theorem parcels_populated :
    let stop (city : String) : Entity := .mk "post::Stop" [⟨"city", .data .text city⟩] []
    let weight : Named Slot := ⟨"weight", .data (.int (.unsigned .w64)) (IntType.zero _)⟩
    let filled : Entity := .mk "post::Parcel" [⟨"label", .data .text "A"⟩,
      ⟨"pickup", .optional "post::Stop" (some (stop "Bern"))⟩,
      ⟨"legs", .many "post::Stop" [stop "Ulm"]⟩] [weight]
    let attributes : List Attribute :=
      [⟨"legs", .list [.record [⟨"city", .text "Ulm"⟩]]⟩, ⟨"city", .text "Bern"⟩]
    Catalog.build Settings.standard [stopType.metadata, parcelType.metadata] =
      .ok parcels.catalog ∧
    parcels.populate (parcel "A" (IntType.zero _)) ⟨"Parcel", attributes⟩ = .done filled ∧
    Populated parcels.catalog parcels.schema.blank (parcels.catalog.fieldsOf "post::Parcel")
      attributes (parcel "A" (IntType.zero _)) filled ∧
    (parcels.populate (parcels.schema.blank "post::Parcel") ⟨"Parcel", attributes⟩).result =
      parcels.toEntity "post::Parcel" ⟨"Parcel", attributes⟩ := by
  intro stop weight filled attributes
  obtain ⟨hpopulated, hnew⟩ :=
    populates_what_is_mentioned parcels_accepted (parcels_derived .self)
  have hfilled : parcels.populate (parcel "A" (IntType.zero _)) ⟨"Parcel", attributes⟩ =
      .done filled := by cbv
  refine ⟨parcels_accepted, hfilled, hpopulated _ _ _ rfl hfilled, hnew (fun x hx => ?_) _⟩
  obtain ⟨hmem, htype⟩ := entry?_mem hx
  simp only [parcels, List.mem_cons, List.not_mem_nil, or_false] at hmem
  rcases hmem with rfl | rfl <;> rfl

end Mapping
end RecordMapping
