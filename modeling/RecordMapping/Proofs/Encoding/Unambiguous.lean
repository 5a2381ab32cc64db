import RecordMapping.Proofs.Encoding.Names
import Mathlib
/-!
When look-ups in a record are unambiguous. The entities of a type write every name once, whatever
they hold, exactly if the names that the type may write are distinct: these are the names of its
layout, the discriminators of flattened subtypes, and the flattened fields without a type.
-/
namespace RecordMapping

open Catalog

namespace LayoutItem

def field : LayoutItem → FieldDescriptor
  | .stored f => f
  | .group f _ _ => f
  | .detached f => f

mutual

def fullSlot : LayoutItem → Slot
  | .stored f =>
    match f.target, f.kind with
    | none, _ => .data .bool true
    | some t, .collection => .many t []
    | some t, _ => .single (.mk t [] [])
  | .group _ m items => .single (.mk m.type (fullSlots items) [])
  | .detached _ => .data .bool true

def fullSlots : List LayoutItem → List (Named Slot)
  | [] => []
  | item :: rest => ⟨item.field.name, fullSlot item⟩ :: fullSlots rest

end

variable {types : List EntityMetadata}

theorem Describes.field_eq {item : LayoutItem} {f : FieldDescriptor}
    (h : item.Describes types f) : item.field = f := by
  cases item with
  | stored g => exact h.1
  | group g m items => exact h.1
  | detached g => exact h.1

theorem DescribesAll.exists_item {items : List LayoutItem} {fields : List FieldDescriptor}
    (h : DescribesAll types items fields) {f : FieldDescriptor} (hf : f ∈ fields) :
    ∃ item, (item, f) ∈ items.zip fields ∧ item.Describes types f := by
  induction items generalizing fields with
  | nil =>
    cases fields with
    | nil => cases hf
    | cons g fields => exact h.elim
  | cons item rest ih =>
    cases fields with
    | nil => exact h.elim
    | cons g fields =>
      rcases List.mem_cons.1 hf with rfl | hf
      · exact ⟨item, by simp, h.1⟩
      · obtain ⟨other, hmem, hd⟩ := ih h.2 hf
        exact ⟨other, List.mem_cons_of_mem _ hmem, hd⟩

theorem DescribesAll.of_mem_zip {items : List LayoutItem} {fields : List FieldDescriptor}
    (h : DescribesAll types items fields) {item : LayoutItem} {f : FieldDescriptor}
    (hmem : (item, f) ∈ items.zip fields) : item.Describes types f := by
  induction items generalizing fields with
  | nil => simp at hmem
  | cons head rest ih =>
    cases fields with
    | nil => exact h.elim
    | cons g fields =>
      rcases List.mem_cons.1 hmem with he | hmem
      · obtain ⟨rfl, rfl⟩ := Prod.mk.inj he
        exact h.1
      · exact ih h.2 hmem

theorem DescribesAll.names_fullSlots {items : List LayoutItem} {fields : List FieldDescriptor}
    (h : DescribesAll types items fields) :
    Named.names (fullSlots items) = fields.map (·.name) := by
  induction items generalizing fields with
  | nil =>
    cases fields with
    | nil => rfl
    | cons g fields => exact h.elim
  | cons item rest ih =>
    cases fields with
    | nil => exact h.elim
    | cons g fields => simp [fullSlots, h.1.field_eq, ih h.2]

theorem mem_fullSlots {items : List LayoutItem} {fields : List FieldDescriptor}
    (h : DescribesAll types items fields) {p : LayoutItem × FieldDescriptor}
    (hp : p ∈ items.zip fields) : ⟨p.2.name, p.1.fullSlot⟩ ∈ fullSlots items := by
  induction items generalizing fields with
  | nil => simp at hp
  | cons item rest ih =>
    cases fields with
    | nil => exact h.elim
    | cons g fields =>
      rcases List.mem_cons.1 hp with rfl | hp
      · simp [fullSlots, h.1.field_eq]
      · exact List.mem_cons_of_mem _ (ih h.2 hp)

end LayoutItem

namespace Catalog

variable {c : Catalog}

/-- Every look-up among the attributes of an entity finds what the entity wrote there. -/
structure Unambiguous (c : Catalog) (x : CatalogEntry) (e : Entity)
    (attributes : List Attribute) : Prop where
  distinct : (Named.names attributes).Nodup
  notNull : ∀ a ∈ attributes, a.value ≠ .null
  field : ∀ f ∈ x.metadata.fields, f.isFlattened = false → ∀ own,
    c.part f (e.read f.name) = .ok own →
    Named.lookup f.nativeName attributes = Named.lookup f.nativeName own
  discriminator : ∀ a ∈ discriminator x.metadata, Named.lookup a.name attributes = some a.value

theorem mem_allWrites {items : List LayoutItem} {fields : List FieldDescriptor}
    {item : LayoutItem} {f : FieldDescriptor} (hmem : (item, f) ∈ items.zip fields) {name : String}
    (hname : name ∈ item.writes) : name ∈ LayoutItem.allWrites items := by
  induction items generalizing fields with
  | nil => simp at hmem
  | cons head rest ih =>
    cases fields with
    | nil => simp at hmem
    | cons g fields =>
      rw [LayoutItem.allWrites]
      rcases List.mem_cons.1 hmem with he | hmem
      · obtain ⟨rfl, rfl⟩ := Prod.mk.inj he
        exact List.mem_append_left _ hname
      · exact List.mem_append_right _ (ih hmem)

theorem read_full {items : List LayoutItem} {fields : List FieldDescriptor} {type : String}
    {hidden : List (Named Slot)} (hd : LayoutItem.DescribesAll c.types items fields)
    (hn : (fields.map (·.name)).Nodup) {p : LayoutItem × FieldDescriptor}
    (hp : p ∈ items.zip fields) :
    (Entity.mk type (LayoutItem.fullSlots items) hidden).read p.2.name = p.1.fullSlot.read := by
  have hnames : (Named.names (LayoutItem.fullSlots items)).Nodup := hd.names_fullSlots ▸ hn
  rw [Entity.read, Entity.slot?, Entity.slots,
    Named.lookup_of_mem hnames (LayoutItem.mem_fullSlots hd hp)]

theorem lookup_encodeFields {e : Entity} {items : List LayoutItem} {fields : List FieldDescriptor}
    {attributes : List Attribute} (hd : LayoutItem.DescribesAll c.types items fields)
    (hs : ∀ f ∈ fields, c.Suits f (e.read f.name)) (h : c.encodeFields e fields = .ok attributes)
    (hn : (LayoutItem.allWrites items).Nodup) {item : LayoutItem} {f : FieldDescriptor}
    (hmem : (item, f) ∈ items.zip fields) {own : List Attribute}
    (hown : c.part f (e.read f.name) = .ok own) {name : String} (hname : name ∈ item.writes) :
    Named.lookup name attributes = Named.lookup name own := by
  induction items generalizing fields attributes with
  | nil => simp at hmem
  | cons head rest ih =>
    cases fields with
    | nil => simp at hmem
    | cons g fields =>
      obtain ⟨first, others, hfirst, hothers, rfl⟩ := encodeFields_cons_ok h
      rw [LayoutItem.allWrites, List.nodup_append] at hn
      obtain ⟨_, hrest, hapart⟩ := hn
      have hs' : ∀ f ∈ fields, c.Suits f (e.read f.name) :=
        fun f hf => hs f (List.mem_cons_of_mem g hf)
      rcases List.mem_cons.1 hmem with he | hmem
      · obtain ⟨rfl, rfl⟩ := Prod.mk.inj he
        obtain rfl := Except.ok.inj (hfirst.symm.trans hown)
        have hsub := names_encodeFields_sublist rest hd.2 hs' hothers
        exact Named.lookup_append_left
          (fun hin => hapart name hname name (hsub.subset hin) rfl) _
      · have hsub := names_part_sublist head hd.1 (hs g List.mem_cons_self) hfirst
        rw [Named.lookup_append_right
          fun hin => hapart name (hsub.subset hin) name (mem_allWrites hmem hname) rfl]
        exact ih hd.2 hs' hothers hrest hmem

namespace Consistent

variable (hc : c.Consistent)
include hc

theorem unambiguous_of_nodup {e : Entity} (he : c.Agrees e) {x : CatalogEntry}
    (hx : c.entry? e.type = some x) (hn : x.writes.Nodup) {attributes : List Attribute}
    (h : c.encode e = .ok attributes) : c.Unambiguous x e attributes := by
  have hdistinct := (hc.names_encode_sublist he hx h).nodup hn
  have hd := hc.described x (entry?_mem hx).1
  obtain ⟨inside, hinside, rfl⟩ := encode_ok hx h
  obtain ⟨hitems, _, hapart⟩ := List.nodup_append.1 hn
  constructor
  · exact hdistinct
  · intro a ha hnull
    simpa [hnull, Value.isNull] using isNull_encode h a ha
  · intro f hf hflat own hown
    obtain ⟨item, hmem, hitem⟩ := hd.exists_item hf
    have hname : f.nativeName ∈ item.writes := by
      cases item with
      | stored g =>
        obtain ⟨rfl, _⟩ := hitem
        simp [LayoutItem.writes]
      | group g m items => simp [hitem.2.1] at hflat
      | detached g => simp [hitem.2.1] at hflat
    rw [Named.lookup_append_left,
      lookup_encodeFields hd (he.suits hx) hinside hitems hmem hown hname]
    rw [names_discriminator]
    exact fun hin => hapart _ (mem_allWrites hmem hname) _ hin rfl
  · intro a ha
    exact Named.lookup_of_mem hdistinct (List.mem_append_right _ ha)

end Consistent
mutual

theorem exists_full_part (hc : c.Consistent) (item : LayoutItem) {m : EntityMetadata}
    (hm : m ∈ c.types) {f : FieldDescriptor} (hf : f ∈ m.fields) (hd : item.Describes c.types f) :
    c.Suits f item.fullSlot.read ∧
      ∃ own, c.part f item.fullSlot.read = .ok own ∧ Named.names own = item.writes := by
  match item with
  | .stored g =>
    obtain ⟨rfl, hflat⟩ := hd
    have hsuits : c.Suits g (LayoutItem.stored g).fullSlot.read ∧
        (LayoutItem.stored g).fullSlot.read ≠ .empty := by
      rw [LayoutItem.fullSlot]
      split
      · next ht =>
        exact ⟨.value ht, by simp [Slot.read, Reading.ofValue, DataType.toValue, Value.isNull]⟩
      · next t ht hk => exact ⟨.entities hk ht (by simp) (by simp), by simp [Slot.read]⟩
      · next t ht hk =>
        obtain ⟨x, hx⟩ := hc.target hm hf ht
        have hagrees : c.Agrees (.mk t [] []) := .intro hx fun f _ => .empty
        exact ⟨.entity hk ht hagrees, by simp [Slot.read]⟩
    obtain ⟨own, hown⟩ := hsuits.1.hasPart
    rcases part_stored hflat hown with ⟨hempty, _⟩ | ⟨v, rfl⟩
    · exact absurd hempty hsuits.2
    · exact ⟨hsuits.1, _, hown, rfl⟩
  | .detached g =>
    obtain ⟨rfl, _, ht⟩ := hd
    have hnone : g.target = none := by
      cases htarget : g.target with
      | none => rfl
      | some t =>
        obtain ⟨x, hx⟩ := hc.target hm hf htarget
        simp [htarget, find?_types_iff.2 ⟨x, hx, rfl⟩] at ht
    exact ⟨.value hnone, _, rfl, rfl⟩
  | .group g target items =>
    obtain ⟨rfl, hflat, ht, hitems⟩ := hd
    obtain ⟨t, htarget, hfind⟩ := Option.bind_eq_some_iff.1 ht
    have hmem := List.mem_of_find?_eq_some hfind
    have htype : target.type = t := by simpa using List.find?_some hfind
    obtain ⟨x, hx, rfl⟩ := find?_types_iff.1 hfind
    obtain ⟨hsuits, attributes, ha, hnames⟩ := exists_full_fields hc items hmem
      (fun f hf => hf) hitems (.mk x.metadata.type (LayoutItem.fullSlots items) [])
      (fun p hp => read_full hitems (hc.fieldsDistinct _ hmem) hp)
    have hagrees : c.Agrees (.mk x.metadata.type (LayoutItem.fullSlots items) []) :=
      .intro (htype ▸ hx) hsuits
    refine ⟨.entity (by simp [kind_of_isFlattened hflat]) (htype ▸ htarget) hagrees, ?_⟩
    refine ⟨attributes ++ discriminator x.metadata, ?_, ?_⟩
    · rw [LayoutItem.fullSlot, Slot.read, part, encode_eq (htype ▸ hx), ha]
      simp [Except.map, hflat]
    · simp [LayoutItem.writes, hnames, names_discriminator]

theorem exists_full_fields (hc : c.Consistent) (items : List LayoutItem) {m : EntityMetadata}
    (hm : m ∈ c.types) {fields : List FieldDescriptor} (hfields : ∀ f ∈ fields, f ∈ m.fields)
    (hd : LayoutItem.DescribesAll c.types items fields) (e : Entity)
    (he : ∀ p ∈ items.zip fields, e.read p.2.name = p.1.fullSlot.read) :
    (∀ f ∈ fields, c.Suits f (e.read f.name)) ∧ ∃ attributes,
      c.encodeFields e fields = .ok attributes ∧
        Named.names attributes = LayoutItem.allWrites items := by
  match items, fields with
  | [], [] => exact ⟨by simp, [], encodeFields_nil e, rfl⟩
  | [], _ :: _ => exact hd.elim
  | _ :: _, [] => exact hd.elim
  | item :: rest, f :: fields =>
    obtain ⟨hs, own, hown, hnames⟩ :=
      exists_full_part hc item hm (hfields f List.mem_cons_self) hd.1
    obtain ⟨hss, others, hothers, hrest⟩ := exists_full_fields hc rest hm
      (fun g hg => hfields g (List.mem_cons_of_mem f hg)) hd.2 e
      (fun p hp => he p (List.mem_cons_of_mem _ hp))
    have hread : e.read f.name = item.fullSlot.read := he (item, f) List.mem_cons_self
    refine ⟨?_, own ++ others, ?_, ?_⟩
    · intro g hg
      rcases List.mem_cons.1 hg with rfl | hg
      · rw [hread]
        exact hs
      · exact hss g hg
    · simp [encodeFields_cons, hread, hown, hothers, Except.bind, Except.map]
    · simp [LayoutItem.allWrites, hnames, hrest]

end

theorem Consistent.exists_full (hc : c.Consistent) {x : CatalogEntry} (hx : x ∈ c.entries) :
    ∃ e, c.Agrees e ∧ e.type = x.metadata.type ∧ ∃ attributes,
      c.encode e = .ok attributes ∧ Named.names attributes = x.writes := by
  have hd := hc.described x hx
  obtain ⟨hsuits, own, hown, hnames⟩ := exists_full_fields hc x.items (mem_types hx)
    (fun f hf => hf) hd (.mk x.metadata.type (LayoutItem.fullSlots x.items) [])
    (fun p hp => read_full hd (hc.fieldsDistinct _ (mem_types hx)) hp)
  have hentry := hc.entry?_type hx
  refine ⟨.mk x.metadata.type (LayoutItem.fullSlots x.items) [], .intro hentry hsuits, rfl,
    own ++ discriminator x.metadata, ?_, ?_⟩
  · rw [encode_eq hentry, hown]
    rfl
  · simp [CatalogEntry.writes, hnames, names_discriminator]

inductive Within (c : Catalog) : Entity → Entity → Prop
  | self {e : Entity} : Within c e e
  | single {e inner other : Entity} {x : CatalogEntry} {f : FieldDescriptor} :
    c.entry? e.type = some x → f ∈ x.metadata.fields → e.read f.name = .entity inner →
    Within c inner other → Within c e other
  | element {e inner other : Entity} {x : CatalogEntry} {f : FieldDescriptor} {es : List Entity} :
    c.entry? e.type = some x → f ∈ x.metadata.fields → e.read f.name = .entities es →
    inner ∈ es → Within c inner other → Within c e other

theorem Agrees.within {e other : Entity} (he : c.Agrees e) (h : c.Within e other) :
    c.Agrees other := by
  induction h with
  | self => exact he
  | single hx hf hr _ ih =>
    have hs := he.suits hx _ hf
    rw [hr] at hs
    cases hs with
    | entity _ _ hi => exact ih hi
  | element hx hf hr hmem _ ih =>
    have hs := he.suits hx _ hf
    rw [hr] at hs
    cases hs with
    | entities _ _ _ hes => exact ih (hes _ hmem)

end Catalog

namespace Mapping

/-- The records of a type are unambiguous, alone or nested in others and whatever their entities
hold. -/
def Unambiguous (m : Mapping) (x : CatalogEntry) : Prop :=
  ∀ e inner, m.catalog.Agrees e → m.catalog.Within e inner → inner.type = x.metadata.type →
    ∃ r, m.toRecord inner = .ok r ∧ m.catalog.encode inner = .ok r.attributes ∧
      m.catalog.Unambiguous x inner r.attributes

/-- The records of a type are unambiguous exactly if the type may write no name twice; `null` is
never written. -/
theorem unambiguous_iff_nodup_writes {settings : Settings} {given : List EntityMetadata}
    {m : Mapping} (hb : Catalog.build settings given = .ok m.catalog) {x : CatalogEntry}
    (hx : x ∈ m.catalog.entries) :
    (m.Unambiguous x ↔ x.writes.Nodup) ∧
      ∀ e r, m.toRecord e = .ok r → ∀ a ∈ r.attributes, a.value ≠ .null := by
  obtain ⟨_, _, hc⟩ := build_spec hb
  refine ⟨⟨fun h => ?_, fun hn e inner he hw ht => ?_⟩, fun e r hr a ha hnull => ?_⟩
  · obtain ⟨e, he, ht, attributes, ha, hnames⟩ := hc.exists_full hx
    obtain ⟨r, _, hr, hun⟩ := h e e he .self ht
    obtain rfl := Except.ok.inj (ha.symm.trans hr)
    exact hnames ▸ hun.distinct
  · have hi := he.within hw
    have hentry : m.catalog.entry? inner.type = some x := ht ▸ hc.entry?_type hx
    obtain ⟨attributes, ha⟩ := hi.encodes
    exact ⟨⟨x.metadata.collection, attributes⟩, toRecord_eq_ok_iff.2 ⟨x, hentry, ha, rfl⟩, ha,
      hc.unambiguous_of_nodup hi hentry hn ha⟩
  · obtain ⟨_, _, he, _⟩ := toRecord_eq_ok_iff.1 hr
    simpa [hnull, Value.isNull] using isNull_encode he a ha

def orderType : EntityMetadata :=
  ⟨"orders", "Order", [{ FieldDescriptor.plain "code" with nativeName := "type" },
    { FieldDescriptor.embedded "notice" "Sms" with declaredPolicy := some .flattened }], none⟩

def smsType : EntityMetadata :=
  ⟨"notifications", "Sms", [FieldDescriptor.plain "phone"], some ⟨"type", "sms", "notifications"⟩⟩

def orderEntry : CatalogEntry :=
  ⟨orderType, [.stored { FieldDescriptor.plain "code" with nativeName := "type" },
    .group { FieldDescriptor.embedded "notice" "Sms" with declaredPolicy := some .flattened }
      smsType [.stored (FieldDescriptor.plain "phone")]]⟩

def orders : Mapping :=
  ⟨⟨[], []⟩, Settings.standard,
    [orderEntry, ⟨smsType, [.stored (FieldDescriptor.plain "phone")]⟩]⟩

theorem orders_ambiguous :
    Catalog.build Settings.standard [orderType, smsType] = .ok orders.catalog ∧
      orderEntry ∈ orders.catalog.entries ∧ ¬ orders.Unambiguous orderEntry := by
  have hb : Catalog.build Settings.standard [orderType, smsType] = .ok orders.catalog := by cbv
  have hx : orderEntry ∈ orders.catalog.entries := List.mem_cons_self
  refine ⟨hb, hx, fun h => ?_⟩
  have hn := (unambiguous_iff_nodup_writes hb hx).1.1 h
  exact absurd hn (by decide)

end Mapping
end RecordMapping
