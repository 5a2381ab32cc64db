import RecordMapping.Proofs.Entity.Typed
/-!
Catalogs that flatten no subtype. Their types write exactly the names of their layouts, followed by
their own discriminators, so that all records are unambiguous.
-/
namespace RecordMapping

open Catalog

/-- No flattened field leads to a subtype. -/
def Catalog.FlattensPlain (c : Catalog) : Prop :=
  ∀ x ∈ c.entries, ∀ f ∈ x.metadata.fields, f.isFlattened = true → ∀ y ∈ c.entries,
    f.target = some y.metadata.type → y.metadata.inheritance = none

theorem FieldDescriptor.Fits.exists_target {s : Schema} {f : FieldDescriptor} {slot : Slot}
    (h : f.Fits s slot) (hn : f.isNested = true) : ∃ t, f.target = some t := by
  cases h with
  | data hdata => simp [hn] at hdata
  | single _ ht => exact ⟨_, ht⟩
  | optional _ ht => exact ⟨_, ht⟩
  | many _ ht => exact ⟨_, ht⟩

theorem FieldDescriptor.isNested_of_isFlattened {f : FieldDescriptor} (h : f.isFlattened = true) :
    f.isNested = true := by
  simp [isNested, kind_of_isFlattened h]

theorem EntityMetadata.Coherent.fits {s : Schema} {m : EntityMetadata} {blank : Entity}
    (h : m.Coherent s blank) {f : FieldDescriptor} (hf : f ∈ m.fields) :
    ∃ slot, f.Fits s slot := by
  have hfields := h.fields
  generalize m.fields = fields, blank.slots = slots at hf hfields
  induction hfields with
  | nil => cases hf
  | cons hfirst _ ih =>
    rcases List.mem_cons.1 hf with rfl | hf
    · exact ⟨_, hfirst.2⟩
    · exact ih hf

namespace Mapping

variable {m : Mapping}

theorem Sound.flattened_target (hm : m.Sound) {metadata : EntityMetadata}
    (hmeta : metadata ∈ m.catalog.types) {f : FieldDescriptor} (hf : f ∈ metadata.fields)
    (hflat : f.isFlattened = true) :
    ∃ y ∈ m.catalog.entries, f.target = some y.metadata.type := by
  obtain ⟨x, hx, rfl⟩ := List.mem_map.1 hmeta
  obtain ⟨_, _, hcoherent⟩ := hm.coherent x hx
  obtain ⟨slot, hfits⟩ := hcoherent.fits hf
  obtain ⟨t, ht⟩ := hfits.exists_target (f.isNested_of_isFlattened hflat)
  obtain ⟨y, hy⟩ := hm.consistent.target hmeta hf ht
  obtain ⟨hmem, rfl⟩ := entry?_mem hy
  exact ⟨y, hmem, ht⟩

theorem Sound.eq_group (hm : m.Sound) {metadata : EntityMetadata}
    (hmeta : metadata ∈ m.catalog.types) {f : FieldDescriptor} (hf : f ∈ metadata.fields)
    (hflat : f.isFlattened = true) {item : LayoutItem} (hd : item.Describes m.catalog.types f) :
    ∃ y ∈ m.catalog.entries, ∃ items, item = .group f y.metadata items ∧
      f.target = some y.metadata.type ∧
      LayoutItem.DescribesAll m.catalog.types items y.metadata.fields := by
  obtain ⟨y, hy, htarget⟩ := hm.flattened_target hmeta hf hflat
  have hfind : (f.target.bind fun t => m.catalog.types.find? (·.type == t)) = some y.metadata := by
    rw [htarget, Option.bind_some]
    exact find?_types_iff.2 ⟨y, hm.consistent.entry?_type hy, rfl⟩
  obtain ⟨items, rfl, hitems⟩ := hd.eq_group hflat hfind
  exact ⟨y, hy, items, rfl, htarget, hitems⟩

mutual

theorem writes_eq_names (hm : m.Sound) (hp : m.catalog.FlattensPlain) (item : LayoutItem)
    {x : CatalogEntry} (hx : x ∈ m.catalog.entries) {f : FieldDescriptor}
    (hf : f ∈ x.metadata.fields) (hd : item.Describes m.catalog.types f) :
    item.writes = item.names := by
  cases hflat : f.isFlattened with
  | false =>
    rw [hd.eq_stored hflat]
    rfl
  | true =>
    obtain ⟨y, hy, items, rfl, ht, hitems⟩ := hm.eq_group (mem_types hx) hf hflat hd
    rw [LayoutItem.writes, LayoutItem.names, discriminatorNames, hp x hx f hf hflat y hy ht,
      allWrites_eq_allNames hm hp items hy (fun f hf => hf) hitems]
    exact List.append_nil _

theorem allWrites_eq_allNames (hm : m.Sound) (hp : m.catalog.FlattensPlain)
    (items : List LayoutItem) {x : CatalogEntry} (hx : x ∈ m.catalog.entries)
    {fields : List FieldDescriptor} (hf : ∀ f ∈ fields, f ∈ x.metadata.fields)
    (hd : LayoutItem.DescribesAll m.catalog.types items fields) :
    LayoutItem.allWrites items = LayoutItem.allNames items := by
  match items, fields with
  | [], [] => rfl
  | [], _ :: _ => exact hd.elim
  | _ :: _, [] => exact hd.elim
  | item :: rest, f :: fields =>
    rw [LayoutItem.allWrites, LayoutItem.allNames,
      writes_eq_names hm hp item hx (hf f List.mem_cons_self) hd.1,
      allWrites_eq_allNames hm hp rest hx (fun g hg => hf g (List.mem_cons_of_mem f hg)) hd.2]

end

theorem Sound.nodup_writes (hm : m.Sound) (hp : m.catalog.FlattensPlain) {x : CatalogEntry}
    (hx : x ∈ m.catalog.entries) : x.writes.Nodup := by
  rw [CatalogEntry.writes, allWrites_eq_allNames hm hp x.items hx (fun f hf => hf)
    (hm.consistent.described x hx)]
  exact List.perm_append_comm.nodup_iff.1 (hm.consistent.namesDistinct x hx)

theorem Sound.unambiguous (hm : m.Sound) (hp : m.catalog.FlattensPlain) {e : Entity}
    (he : m.schema.Typed e) {x : CatalogEntry} (hx : m.catalog.entry? e.type = some x)
    {attributes : List Attribute} (h : m.catalog.encode e = .ok attributes) :
    m.catalog.Unambiguous x e attributes :=
  hm.consistent.unambiguous_of_nodup (he.agrees hm ⟨x, hx⟩) hx
    (hm.nodup_writes hp (entry?_mem hx).1) h

def mailing : Mapping :=
  ⟨Declaration.mail, Settings.standard, Declaration.mail.types.map fun t =>
    ⟨t.metadata, t.metadata.fields.map .stored⟩⟩

theorem mailing_accepted : Catalog.build Settings.standard
    (Declaration.mail.types.map (·.metadata)) = .ok mailing.catalog := by cbv

theorem mailing_plain : mailing.catalog.FlattensPlain := by
  intro x hx f hf hflat
  simp only [mailing, Declaration.mail, List.map_cons, List.map_nil, List.mem_cons,
    List.not_mem_nil, or_false] at hx
  rcases hx with rfl | rfl
  · simp only [Declaration.mailType, List.mem_cons, List.not_mem_nil, or_false] at hf
    subst hf
    cases hflat
  · simp only [Declaration.mailType, List.mem_cons, List.not_mem_nil, or_false] at hf
    subst hf
    cases hflat

open Declaration

def parcels : Mapping :=
  ⟨⟨[stopType, parcelType], []⟩, Settings.standard,
    [⟨stopType.metadata, stopType.metadata.fields.map .stored⟩,
      ⟨parcelType.metadata, parcelType.metadata.fields.map fun f =>
        if f.isFlattened then .group f stopType.metadata (stopType.metadata.fields.map .stored)
        else .stored f⟩]⟩

theorem parcels_accepted : Catalog.build Settings.standard
    [stopType.metadata, parcelType.metadata] = .ok parcels.catalog := by cbv

theorem parcels_declares :
    ∀ metadata ∈ parcels.schema.types.map (·.metadata), parcels.schema.Declares metadata :=
  Schema.declares_of_schema?
    (show schema? "post" [] [stopStruct, parcelStruct] = some parcels.schema by cbv) (by decide)

theorem parcels_plain : parcels.catalog.FlattensPlain := by
  intro _ _ _ _ _ y hy _
  rcases List.mem_pair.1 hy with rfl | rfl
  · rfl
  · rfl

end Mapping
end RecordMapping
