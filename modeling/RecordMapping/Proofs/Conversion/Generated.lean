import RecordMapping.Proofs.Conversion.Hidden
import RecordMapping.Proofs.Declaration.Accessors
/-!
Derived types in use. Their entities do for each field what its plan says, so that no field that is
described is ever unknown, and fields that are not described are out of reach.
-/
namespace RecordMapping

namespace Declaration

/-- What the fields of a shape show. -/
inductive FieldShape.Shows : FieldShape → Reading → Prop
  | noValue {id many : Bool} : Shows (.value id many) .empty
  | value {id many : Bool} {v : Value} : Shows (.value id many) (.value v)
  | single {type : TypeExpr} {e : Entity} : Shows (.single type) (.entity e)
  | missing {type : TypeExpr} : Shows (.optional type) .empty
  | optional {type : TypeExpr} {e : Entity} : Shows (.optional type) (.entity e)
  | many {type : TypeExpr} {es : List Entity} : Shows (.many type) (.entities es)

/-- Whether an entity can be written, entered and extended in just the ways that the plan of a field
has, and shows in it what the plan says. -/
structure FieldPlan.Governs (blank : String → Entity) (p : FieldPlan) (e : Entity) : Prop where
  written : p.write?.isSome = true ↔
    ∀ v owner field, e.write p.name v ≠ .error (.unknownField owner field)
  entered : p.nested?.isSome = (e.nested? blank p.name).isSome
  extended : p.push?.isSome = (e.element? blank p.name).isSome
  read : p.shape.Shows (e.read p.name)

inductive FieldShape.Holds : FieldShape → Slot → Prop
  | value {id many : Bool} {t : DataType} {x : t.Carrier} : Holds (.value id many) (.data t x)
  | single {type : TypeExpr} {e : Entity} : Holds (.single type) (.single e)
  | optional {type : TypeExpr} {target : String} {o : Option Entity} :
    Holds (.optional type) (.optional target o)
  | many {type : TypeExpr} {target : String} {es : List Entity} :
    Holds (.many type) (.many target es)

theorem FieldShape.Holds.shows {shape : FieldShape} {slot : Slot} (h : shape.Holds slot) :
    shape.Shows slot.read := by
  cases h with
  | value =>
    rw [Slot.read, Reading.ofValue]
    split
    · exact .noValue
    · exact .value
  | single => exact .single
  | @optional _ _ o =>
    cases o with
    | none => exact .missing
    | some e => exact .optional
  | many => exact .many

namespace FieldPlan

variable {p : FieldPlan} {slot : Slot}

theorem holds_of_typed {s : Schema} {home : String} {blank : Slot}
    (hblank : p.blankSlot? s home = some blank) (h : s.TypedSlot slot blank) :
    p.shape.Holds slot := by
  rw [blankSlot?] at hblank
  cases hshape : p.shape with
  | value id many =>
    rw [hshape] at hblank
    obtain ⟨t, _, rfl⟩ := Option.map_eq_some_iff.1 hblank
    cases h with | data => exact .value
  | single type =>
    rw [hshape] at hblank
    obtain ⟨t, _, rfl⟩ := Option.map_eq_some_iff.1 hblank
    cases h with | single => exact .single
  | optional type =>
    rw [hshape] at hblank
    obtain rfl := Option.some.inj hblank
    cases h with
    | missing => exact .optional
    | optional => exact .optional
  | many type =>
    rw [hshape] at hblank
    obtain rfl := Option.some.inj hblank
    cases h with | many => exact .many

theorem governs_of_holds {blank : String → Entity} {e : Entity} (h : p.shape.Holds slot)
    (hslot : e.slot? p.name = some slot) : p.Governs blank e := by
  have hread : p.shape.Shows (e.read p.name) := by
    rw [Entity.read, hslot]
    exact h.shows
  cases hshape : p.shape with
  | value id many =>
    rw [hshape] at h
    cases h with
    | @value _ _ t x =>
      refine ⟨iff_of_true (by simp [write?, hshape]) fun v owner field hw => ?_,
        by simp [nested?, hshape, Entity.nested?, hslot],
        by simp [push?, hshape, Entity.element?, hslot], hread⟩
      exact (Entity.write_eq_unknownField hw).2 t x hslot
  | single type =>
    rw [hshape] at h
    cases h with
    | single =>
      refine ⟨iff_of_false (by simp [write?, hshape]) fun hall => ?_,
        by simp [nested?, hshape, Entity.nested?, hslot],
        by simp [push?, hshape, Entity.element?, hslot], hread⟩
      exact hall .null e.type p.name (by simp [Entity.write, hslot])
  | optional type =>
    rw [hshape] at h
    cases h with
    | @optional _ _ o =>
      refine ⟨iff_of_false (by simp [write?, hshape]) fun hall => ?_,
        by cases o <;> simp [nested?, hshape, Entity.nested?, hslot],
        by simp [push?, hshape, Entity.element?, hslot], hread⟩
      exact hall .null e.type p.name (by simp [Entity.write, hslot])
  | many type =>
    rw [hshape] at h
    cases h with
    | many =>
      refine ⟨iff_of_false (by simp [write?, hshape]) fun hall => ?_,
        by simp [nested?, hshape, Entity.nested?, hslot],
        by simp [push?, hshape, Entity.element?, hslot], hread⟩
      exact hall .null e.type p.name (by simp [Entity.write, hslot])

end FieldPlan

theorem Plan.governs {s : Schema} {home : String} {plan : Plan} {t : EntityType}
    (ht : plan.entityType? s home = some t) (hknown : s.type? t.metadata.type = some t)
    (hn : (Named.names t.blank.slots).Nodup) {e : Entity} (he : s.Typed e)
    (htype : e.type = t.metadata.type) {p : FieldPlan} (hp : p ∈ plan.fields) :
    p.Governs s.blank e := by
  obtain ⟨_, _, _, _, hslots, _, hblank⟩ := entityType?_ok ht
  obtain ⟨entry, hentry, hmap⟩ := exists_of_forall₂ (mapM_eq_some_iff.1 hslots) hp
  obtain ⟨blank, hb, rfl⟩ := Option.map_eq_some_iff.1 hmap
  have hmem : ⟨p.name, blank⟩ ∈ t.blank.slots := by
    rw [hblank]
    exact hentry
  have htyped := he.slots
  rw [htype, Schema.blank_of_type? hknown] at htyped
  obtain ⟨slot, hslot, hsuits⟩ := htyped.exists_slot (Named.lookup_of_mem hn hmem)
  exact FieldPlan.governs_of_holds (FieldPlan.holds_of_typed hb hsuits) hslot

end Declaration

open Declaration

namespace Mapping

variable {m : Mapping} {settings : Settings} {given : List EntityMetadata} {home : String}
  {d : StructDeclaration} {plan : Plan} {t : EntityType}

theorem derives_of_build (hb : Catalog.build settings given = .ok m.catalog)
    (hplan : d.plan = .ok plan) (ht : plan.entityType? m.schema home = some t)
    (hknown : m.schema.type? t.metadata.type = some t) (hgiven : t.metadata ∈ given) :
    m.Derives t.metadata.type := by
  obtain ⟨hsettings, htypes, hc⟩ := Catalog.build_spec hb
  have hmem : t.metadata.withDefaultPolicy settings.embedded ∈ m.catalog.types :=
    htypes ▸ List.mem_map_of_mem hgiven
  obtain ⟨x, hx, hmeta⟩ := List.mem_map.1 hmem
  refine ⟨x, t, ?_, hknown, ⟨home, d, plan, hplan, ht⟩, hsettings ▸ hmeta⟩
  have hentry := hc.entry?_type hx
  rwa [hmeta] at hentry

/-- The accessors that are made for a declaration are those that its descriptors ask for. A
descriptor stands for each field that is not skipped, in order; it has a target if there is a way to
enter the field or to extend it, and otherwise a way to write it. Names select these accessors, and
those of skipped fields none. The entities of a derived type offer these ways and no others, and show
what they should. So no field is unknown when entities are made or populated, unless a type that was
not derived is at fault, and the skipped fields are neither read nor written. -/
theorem accessors_match (hplan : d.plan = .ok plan) :
    (List.Forall₂ (fun f p => f.plan? = .ok (some p) ∧ p.name = f.name ∧ p.type = f.type)
        (d.fields.filter (!·.isSkipped)) plan.fields ∧
      plan.skipped = d.fields.filter (·.isSkipped)) ∧
    (∀ home kind, ∀ p ∈ plan.fields, p.Serves (p.describe home kind)) ∧
    ((d.fields.map (·.name)).Nodup → (∀ p ∈ plan.fields, plan.Selects p) ∧
      ∀ f ∈ plan.skipped, plan.Ignores f.name) ∧
    ∀ (m : Mapping) settings given home t, Catalog.build settings given = .ok m.catalog →
      plan.entityType? m.schema home = some t → m.schema.type? t.metadata.type = some t →
      t.metadata ∈ given →
      (List.Forall₂ (fun p f => ∃ kind, f = p.describe home kind) plan.fields t.metadata.fields ∧
        t.metadata.fields.map (·.name) = (d.fields.filter (!·.isSkipped)).map (·.name) ∧
        Named.names t.blank.hidden = (d.fields.filter (·.isSkipped)).map (·.name)) ∧
      (∀ e, m.schema.Typed e → e.type = t.metadata.type →
        ∀ p ∈ plan.fields, p.Governs m.schema.blank e) ∧
      (∀ r owner field, m.toEntity t.metadata.type r = .error (.unknownField owner field) →
        m.Misled t.metadata.type owner) ∧
      (∀ e r owner field, m.schema.Typed e → e.type = t.metadata.type →
        (m.populate e r).error? = some (.unknownField owner field) →
        m.Misled t.metadata.type owner) ∧
      (∀ e other : Entity, e.bare = other.bare → m.toRecord e = m.toRecord other ∧
        ∀ r, (m.populate e r).bare = (m.populate other r).bare) ∧
      (∀ (e : Entity) r, e.Keeps m.schema.blank (m.populate e r).entity) ∧
      ∀ r e, m.toEntity t.metadata.type r = .ok e → t.blank.Keeps m.schema.blank e := by
  obtain ⟨hfields, hskipped⟩ := StructDeclaration.plan_fields hplan
  refine ⟨⟨hfields.imp fun _ _ hp => ⟨hp, FieldDeclaration.plan?_name hp⟩, hskipped⟩,
    fun home kind p _ => p.serves home kind, Plan.selects_or_ignores hplan, ?_⟩
  intro m settings given home t hb ht hknown hgiven
  obtain ⟨_, _, hc⟩ := Catalog.build_spec hb
  have hderives := derives_of_build hb hplan ht hknown hgiven
  have hnames := hderives.nodup_slots hc
  rw [Schema.blank_of_type? hknown] at hnames
  obtain ⟨x, hx, _⟩ := hderives.coherent
  obtain ⟨hmem, htype⟩ := Catalog.entry?_mem hx
  refine ⟨⟨Plan.describes ht, (Plan.names_described ht).trans (Plan.names_fields hplan),
      hskipped ▸ Plan.names_hidden ht⟩,
    fun e he hetype p hp => Plan.governs ht hknown hnames he hetype hp, ?_, ?_,
    fun e other h => ⟨toRecord_eq_of_bare h, populate_eq_of_bare hc h⟩, keeps_populate hc, ?_⟩
  · intro r owner field herror
    rw [← htype] at herror ⊢
    exact misled_of_toEntity hc hmem herror
  · intro e r owner field he hetype herror
    rw [← hetype]
    exact misled_of_populate hc he herror
  · intro r e he
    rw [← Schema.blank_of_type? hknown, ← htype]
    rw [← htype] at he
    exact keeps_toEntity hc hmem he

theorem parcelStruct_planned : ∃ plan, parcelStruct.plan = .ok plan ∧
    plan.entityType? parcels.schema "post" = some parcelType := ⟨_, by cbv, by cbv⟩

theorem stopStruct_planned : ∃ plan, stopStruct.plan = .ok plan ∧
    plan.entityType? parcels.schema "post" = some stopType := ⟨_, by cbv, by cbv⟩

theorem parcels_derived {type : String} (h : parcels.catalog.Leads "post::Parcel" type) :
    parcels.Derives type := by
  have hnames : type = "post::Parcel" ∨ type = "post::Stop" := by
    cases h with
    | self => exact .inl rfl
    | @field metadata f _ _ hm hf ht =>
      simp only [parcels, Catalog.types, List.map_cons, List.map_nil, List.mem_cons,
        List.not_mem_nil, or_false] at hm
      rcases hm with rfl | rfl
      · simp only [stopType, List.mem_singleton] at hf
        subst hf
        cases ht
      · simp only [parcelType, List.mem_cons, List.not_mem_nil, or_false] at hf
        rcases hf with rfl | rfl | rfl
        · cases ht
        · exact .inr (Option.some.inj ht).symm
        · exact .inr (Option.some.inj ht).symm
  rcases hnames with rfl | rfl
  · obtain ⟨plan, hplan, ht⟩ := parcelStruct_planned
    exact derives_of_build (t := parcelType) parcels_accepted hplan ht rfl (by simp)
  · obtain ⟨plan, hplan, ht⟩ := stopStruct_planned
    exact derives_of_build (t := stopType) parcels_accepted hplan ht rfl (by simp)

theorem parcels_not_misled (owner : String) : ¬ parcels.Misled "post::Parcel" owner := by
  rintro ⟨foreign, hleads, hforeign, _⟩
  exact hforeign (parcels_derived hleads)

theorem parcels_filled : (∃ plan, parcelStruct.plan = .ok plan ∧
      plan.entityType? parcels.schema "post" = some parcelType) ∧
    Catalog.build Settings.standard [stopType.metadata, parcelType.metadata] =
      .ok parcels.catalog ∧
    (∀ r owner field, parcels.toEntity "post::Parcel" r ≠ .error (.unknownField owner field)) ∧
    ∀ label weight r, (∀ owner field,
        (parcels.populate (parcel label weight) r).error? ≠ some (.unknownField owner field)) ∧
      (parcels.populate (parcel label weight) r).entity.hidden =
        [⟨"weight", .data (.int (.unsigned .w64)) weight⟩] := by
  obtain ⟨plan, hplan, ht⟩ := parcelStruct_planned
  obtain ⟨_, _, _, hderived⟩ := accessors_match hplan
  obtain ⟨_, _, hmade, hfilled, _, hkeeps, _⟩ :=
    hderived parcels _ _ "post" parcelType parcels_accepted ht rfl (by simp)
  refine ⟨⟨plan, hplan, ht⟩, parcels_accepted, fun r owner field herror => ?_,
    fun label weight r => ⟨fun owner field herror => ?_, ?_⟩⟩
  · exact parcels_not_misled owner (hmade r owner field herror)
  · have htyped : parcels.schema.Typed (parcel label weight) :=
      .intro (t := parcelType) rfl (.cons .data (.cons .missing (.cons (.many nofun nofun) .nil)))
    exact parcels_not_misled owner (hfilled _ r owner field htyped rfl herror)
  · obtain ⟨later, hlater, hhidden⟩ := (hkeeps (parcel label weight) r).kept [] _ rfl
    obtain rfl := Option.some.inj hlater
    exact hhidden

end Mapping
end RecordMapping
