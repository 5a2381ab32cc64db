import RecordMapping.Proofs.Declaration.Declared
import RecordMapping.Proofs.Encoding.Unambiguous
/-!
Entities of declared types. A mapping is sound if its catalog was accepted for types that its schema
declares; entities of registered types then agree with the metadata in the catalog.
-/
namespace RecordMapping

namespace Schema

mutual

/-- An entity of a declared type. Its hidden fields may hold anything. -/
inductive Typed (s : Schema) : Entity → Prop
  | intro {t : EntityType} {type : String} {slots hidden : List (Named Slot)} :
    s.type? type = some t → TypedSlots s slots t.blank.slots → Typed s (.mk type slots hidden)

/-- Slots like those of a blank entity. -/
inductive TypedSlots (s : Schema) : List (Named Slot) → List (Named Slot) → Prop
  | nil : TypedSlots s [] []
  | cons {name : String} {slot blank : Slot} {slots blanks : List (Named Slot)} :
    TypedSlot s slot blank → TypedSlots s slots blanks →
    TypedSlots s (⟨name, slot⟩ :: slots) (⟨name, blank⟩ :: blanks)

/-- A slot that holds what a blank one may come to hold. -/
inductive TypedSlot (s : Schema) : Slot → Slot → Prop
  | data {t : DataType} {x y : t.Carrier} : TypedSlot s (.data t x) (.data t y)
  | single {e blank : Entity} : e.type = blank.type → Typed s e →
    TypedSlot s (.single e) (.single blank)
  | missing {target : String} {o : Option Entity} :
    TypedSlot s (.optional target none) (.optional target o)
  | optional {target : String} {e : Entity} {o : Option Entity} : e.type = target → Typed s e →
    TypedSlot s (.optional target (some e)) (.optional target o)
  | many {target : String} {es blanks : List Entity} : (∀ e ∈ es, e.type = target) →
    (∀ e ∈ es, Typed s e) → TypedSlot s (.many target es) (.many target blanks)

end

theorem TypedSlots.names_eq {s : Schema} {slots blanks : List (Named Slot)} :
    s.TypedSlots slots blanks → Named.names slots = Named.names blanks
  | .nil => rfl
  | .cons _ hrest => congrArg (List.cons _) hrest.names_eq

theorem TypedSlots.lookup {s : Schema} {slots blanks : List (Named Slot)}
    (h : s.TypedSlots slots blanks) (name : String) :
    Option.Rel s.TypedSlot (Named.lookup name slots) (Named.lookup name blanks) := by
  induction slots generalizing blanks with
  | nil =>
    cases h
    exact .none
  | cons first rest ih =>
    cases h with
    | @cons other _ _ _ _ hslot hrest =>
      rw [Named.lookup, Named.lookup]
      by_cases hname : other = name
      · rw [if_pos hname, if_pos hname]
        exact .some hslot
      · rw [if_neg hname, if_neg hname]
        exact ih hrest

theorem TypedSlots.exists_blank {s : Schema} {slots blanks : List (Named Slot)} {name : String}
    {slot : Slot} (h : s.TypedSlots slots blanks) (hslot : Named.lookup name slots = some slot) :
    ∃ blank, Named.lookup name blanks = some blank ∧ s.TypedSlot slot blank := by
  have hrel := h.lookup name
  rw [hslot] at hrel
  cases hb : Named.lookup name blanks with
  | none =>
    rw [hb] at hrel
    cases hrel
  | some blank =>
    rw [hb] at hrel
    cases hrel with
    | some htyped => exact ⟨blank, rfl, htyped⟩

theorem TypedSlots.exists_slot {s : Schema} {slots blanks : List (Named Slot)} {name : String}
    {blank : Slot} (h : s.TypedSlots slots blanks) (hblank : Named.lookup name blanks = some blank) :
    ∃ slot, Named.lookup name slots = some slot ∧ s.TypedSlot slot blank := by
  have hrel := h.lookup name
  rw [hblank] at hrel
  cases hs : Named.lookup name slots with
  | none =>
    rw [hs] at hrel
    cases hrel
  | some slot =>
    rw [hs] at hrel
    cases hrel with
    | some htyped => exact ⟨slot, rfl, htyped⟩

end Schema

theorem EntityMetadata.Coherent.names_eq {s : Schema} {m : EntityMetadata} {blank : Entity}
    (h : m.Coherent s blank) : Named.names blank.slots = m.fields.map (·.name) :=
  (map_eq_of_forall₂ (h.fields.imp fun _ _ hf => hf.1.symm)).symm

theorem EntityMetadata.Coherent.exists_slot {s : Schema} {m : EntityMetadata} {blank : Entity}
    (h : m.Coherent s blank) (hn : (m.fields.map (·.name)).Nodup) {f : FieldDescriptor}
    (hf : f ∈ m.fields) : ∃ slot, blank.slot? f.name = some slot ∧ f.Fits s slot := by
  obtain ⟨entry, hentry, hname, hfits⟩ := exists_of_forall₂ h.fields hf
  refine ⟨entry.value, Named.lookup_of_mem (h.names_eq ▸ hn) ?_, hfits⟩
  rw [← hname]
  exact hentry

namespace Mapping

/-- A mapping whose catalog was accepted for types that its schema declares. -/
structure Sound (m : Mapping) : Prop where
  consistent : m.catalog.Consistent
  coherent : ∀ x ∈ m.catalog.entries, ∃ t, m.schema.type? x.metadata.type = some t ∧
    x.metadata.Coherent m.schema t.blank

variable {m : Mapping}

theorem exists_coherent {settings : Settings} {given : List EntityMetadata}
    (hb : Catalog.build settings given = .ok m.catalog) {x : CatalogEntry}
    (hx : x ∈ m.catalog.entries)
    (hd : ∀ metadata ∈ given, metadata.type = x.metadata.type → m.schema.Declares metadata) :
    ∃ t, m.schema.type? x.metadata.type = some t ∧ x.metadata.Coherent m.schema t.blank := by
  have hmem := Catalog.mem_types hx
  rw [(Catalog.build_spec hb).2.1] at hmem
  obtain ⟨metadata, hgiven, he⟩ := List.mem_map.1 hmem
  obtain ⟨t, ht, rfl, hdecl⟩ := hd metadata hgiven (he ▸ rfl)
  rw [← he]
  exact ⟨t, ht, hdecl.coherent.withDefaultPolicy settings.embedded⟩

theorem sound_of_build {settings : Settings} {given : List EntityMetadata}
    (hb : Catalog.build settings given = .ok m.catalog)
    (hd : ∀ metadata ∈ given, m.schema.Declares metadata) : m.Sound :=
  ⟨(Catalog.build_spec hb).2.2, fun _ hx =>
    exists_coherent hb hx fun metadata hgiven _ => hd metadata hgiven⟩

theorem Sound.rooted (hm : m.Sound) {metadata : EntityMetadata}
    (h : metadata ∈ m.catalog.types) {i : Inheritance} (hi : metadata.inheritance = some i) :
    metadata.collection = i.root := by
  obtain ⟨x, hx, rfl⟩ := List.mem_map.1 h
  obtain ⟨_, _, hcoherent⟩ := hm.coherent x hx
  exact hcoherent.rooted i hi

theorem Sound.coherent_of_type? (hm : m.Sound) {type : String} {x : CatalogEntry} {t : EntityType}
    (hx : m.catalog.entry? type = some x) (ht : m.schema.type? type = some t) :
    x.metadata.Coherent m.schema t.blank := by
  obtain ⟨hmem, rfl⟩ := Catalog.entry?_mem hx
  obtain ⟨t', ht', hcoherent⟩ := hm.coherent x hmem
  obtain rfl := Option.some.inj (ht.symm.trans ht')
  exact hcoherent

end Mapping

theorem Entity.read_of_mem {type : String} {slots hidden : List (Named Slot)}
    (hn : (Named.names slots).Nodup) {slot : Named Slot} (h : slot ∈ slots) :
    (Entity.mk type slots hidden).read slot.name = slot.value.read := by
  rw [Entity.read, Entity.slot?, Entity.slots, Named.lookup_of_mem hn h]

theorem FieldDescriptor.kind_of_isNested {f : FieldDescriptor} (h : f.isNested = true) :
    f.kind ≠ .collection := by
  intro hk
  simp [isNested, hk] at h

namespace Schema

open Catalog

variable {m : Mapping}

theorem TypedSlots.nodup_names (hm : m.Sound) {slots : List (Named Slot)} {blank : Entity}
    (h : m.schema.TypedSlots slots blank.slots) {x : CatalogEntry} (hx : x ∈ m.catalog.entries)
    (hc : x.metadata.Coherent m.schema blank) : (Named.names slots).Nodup := by
  have hnames := h.names_eq.trans hc.names_eq
  rw [hnames]
  exact hm.consistent.fieldsDistinct _ (mem_types hx)

mutual

/-- The entities of registered types agree with their metadata. -/
theorem Typed.agrees (hm : m.Sound) {e : Entity} : m.schema.Typed e →
    (∃ x, m.catalog.entry? e.type = some x) → m.catalog.Agrees e
  | @Typed.intro _ t _ slots hidden ht hslots, ⟨x, hx⟩ => by
    have hcoherent := hm.coherent_of_type? hx ht
    obtain ⟨hmem, rfl⟩ := entry?_mem hx
    have hdistinct := hslots.nodup_names hm hmem hcoherent
    refine .intro hx fun f hf => ?_
    obtain ⟨slot, hslot, hsuits⟩ :=
      hslots.suits hm hcoherent.fields (mem_types hmem) (fun f hf => hf) f hf
    have hread : (Entity.mk x.metadata.type slots hidden).read f.name = slot.read :=
      Entity.read_of_mem hdistinct hslot
    rw [hread]
    exact hsuits

theorem TypedSlots.suits (hm : m.Sound) {slots blanks : List (Named Slot)}
    {fields : List FieldDescriptor} {metadata : EntityMetadata} : m.schema.TypedSlots slots blanks →
    List.Forall₂ (fun f blank => blank.name = f.name ∧ f.Fits m.schema blank.value) fields blanks →
    metadata ∈ m.catalog.types → (∀ f ∈ fields, f ∈ metadata.fields) →
    ∀ f ∈ fields, ∃ slot, ⟨f.name, slot⟩ ∈ slots ∧ m.catalog.Suits f slot.read
  | .nil, hf, _, _ => by
    cases hf
    simp
  | .cons hslot hrest, hf, hmeta, hmem => by
    cases hf with
    | @cons f _ rest _ hfirst hothers =>
      obtain ⟨rfl, hfits⟩ := hfirst
      intro g hg
      rcases List.mem_cons.1 hg with rfl | hg
      · exact ⟨_, List.mem_cons_self, hslot.suits hm hfits hmeta (hmem _ List.mem_cons_self)⟩
      · obtain ⟨slot, hin, hsuits⟩ := hrest.suits hm hothers hmeta
          (fun f hf => hmem f (List.mem_cons_of_mem _ hf)) g hg
        exact ⟨slot, List.mem_cons_of_mem _ hin, hsuits⟩

theorem TypedSlot.suits (hm : m.Sound) {slot blank : Slot} {f : FieldDescriptor}
    {metadata : EntityMetadata} :
    m.schema.TypedSlot slot blank → f.Fits m.schema blank → metadata ∈ m.catalog.types →
    f ∈ metadata.fields → m.catalog.Suits f slot.read
  | .data, hfits, _, _ => by
    cases hfits with
    | data _ ht _ =>
      rw [Slot.read, Reading.ofValue]
      split
      · exact .empty
      · exact .value ht
  | .single htype he, hfits, hmeta, hmem => by
    cases hfits with
    | @single t hn ht hs =>
      obtain ⟨x, hx⟩ := hm.consistent.target hmeta hmem ht
      have hcoherent := hm.coherent_of_type? hx hs
      rw [hcoherent.type, (entry?_mem hx).2] at htype
      exact .entity (f.kind_of_isNested hn) (htype ▸ ht) (he.agrees hm ⟨x, htype ▸ hx⟩)
  | .missing, _, _, _ => .empty
  | .optional htype he, hfits, hmeta, hmem => by
    subst htype
    cases hfits with
    | optional hn ht =>
      exact .entity (f.kind_of_isNested hn) ht (he.agrees hm (hm.consistent.target hmeta hmem ht))
  | .many htypes hes, hfits, hmeta, hmem => by
    cases hfits with
    | many hk ht =>
      refine .entities hk ht htypes fun e he => ?_
      have htarget := hm.consistent.target hmeta hmem ht
      exact (hes e he).agrees hm ((htypes e he).symm ▸ htarget)

end

end Schema
end RecordMapping
