import RecordMapping.Proofs.Catalog.Hierarchy
import RecordMapping.Proofs.Conversion.Generated
/-!
What reading depends on. Records are read alike if the attributes that stand first under the names
of a layout are alike, along with the discriminator of a subtype: neither their order nor unknown
attributes nor further ones of a name that is taken make any difference.
-/
namespace RecordMapping

namespace Catalog

open LayoutItem

/-- The names in the layout of a type: those of the attributes of its fields, but for a flattened
field that points at a type the names in the layout of that type. -/
inductive HasName (c : Catalog) : String → String → Prop
  | own {type : String} {f : FieldDescriptor} : f ∈ c.fieldsOf type →
    ¬ (f.isFlattened = true ∧ f.target.isSome = true) → HasName c type f.nativeName
  | flattened {type target name : String} {f : FieldDescriptor} : f ∈ c.fieldsOf type →
    f.isFlattened = true → f.target = some target → HasName c target name → HasName c type name

/-- The names that the records of a type are read by: those in its layout, and for a subtype the
discriminator of its hierarchy. -/
inductive ReadsBy (c : Catalog) (m : EntityMetadata) : String → Prop
  | layout {name : String} : c.HasName m.type name → ReadsBy c m name
  | discriminator {i : Inheritance} {h : Hierarchy} : m.inheritance = some i →
    c.hierarchy? i.root = some h → ReadsBy c m h.discriminator

variable {c : Catalog}

mutual

theorem hasName_of_mem_names (hc : c.Consistent) {m : EntityMetadata} (hm : m ∈ c.types)
    (item : LayoutItem) {f : FieldDescriptor} (hf : f ∈ m.fields) (hd : item.Describes c.types f)
    {name : String} (hn : name ∈ item.names) : c.HasName m.type name := by
  have hfield : f ∈ c.fieldsOf m.type := hc.fieldsOf_type hm ▸ hf
  match item with
  | .stored g =>
    obtain ⟨rfl, hflat⟩ := hd
    obtain rfl := List.mem_singleton.1 hn
    exact .own hfield (by simp [hflat])
  | .group g t items =>
    obtain ⟨ht, htarget⟩ := target_of_group hd
    exact .flattened hfield hd.2.1 htarget
      (hasName_of_mem_allNames hc ht items (fun _ hf => hf) hd.2.2.2 hn)
  | .detached g => cases hn

theorem hasName_of_mem_allNames (hc : c.Consistent) {m : EntityMetadata} (hm : m ∈ c.types)
    (items : List LayoutItem) {fields : List FieldDescriptor}
    (hfields : ∀ f ∈ fields, f ∈ m.fields) (hd : DescribesAll c.types items fields)
    {name : String} (hn : name ∈ allNames items) : c.HasName m.type name := by
  match items, fields with
  | [], _ => cases hn
  | _ :: _, [] => exact hd.elim
  | item :: rest, f :: fields =>
    rcases List.mem_append.1 hn with hn | hn
    · exact hasName_of_mem_names hc hm item (hfields f List.mem_cons_self) hd.1 hn
    · exact hasName_of_mem_allNames hc hm rest (fun g hg => hfields g (List.mem_cons_of_mem f hg))
        hd.2 hn

end

def Agree (c : Catalog) (type : String) (xs ys : List Attribute) : Prop :=
  ∀ name, c.HasName type name → Named.lookup name xs = Named.lookup name ys

section Filling

variable {blank : String → Entity} {xs ys : List Attribute}

theorem any_isPresent_congr {names : List String}
    (h : ∀ name ∈ names, Named.lookup name xs = Named.lookup name ys) :
    names.any (isPresent xs) = names.any (isPresent ys) := by
  rw [Bool.eq_iff_iff, List.any_eq_true, List.any_eq_true]
  refine exists_congr fun name => and_congr_right fun hname => ?_
  rw [isPresent, isPresent, h name hname]

theorem fillPlain_congr {owner : String} {f : FieldDescriptor}
    (h : Named.lookup f.nativeName xs = Named.lookup f.nativeName ys) (e : Entity) :
    e.fillPlain owner f xs = e.fillPlain owner f ys := by
  rw [Entity.fillPlain, Entity.fillPlain, h]

theorem fillItem_stored_congr {owner : String} {f : FieldDescriptor}
    (h : Named.lookup f.nativeName xs = Named.lookup f.nativeName ys) (e : Entity) :
    c.fillItem blank owner xs (.stored f) e = c.fillItem blank owner ys (.stored f) e := by
  cases f.filledFrom ys with
  | value hvalue => rw [fillItem_value hvalue, fillItem_value hvalue, fillPlain_congr h]
  | absent hv => rw [fillItem_absent hv, fillItem_absent (h.trans hv)]
  | null hentity hv => rw [fillItem_null hentity hv, fillItem_null hentity (h.trans hv)]
  | @nested target v hn ht hv hnull =>
    rw [fillItem_of_isNested hn ht hv hnull, fillItem_of_isNested hn ht (h.trans hv) hnull]
    cases c.entry? target with
    | none => rfl
    | some entry => cases v <;> rfl
  | @collection target v hk ht hv hnull =>
    rw [fillItem_of_collection hk ht hv hnull, fillItem_of_collection hk ht (h.trans hv) hnull]
    cases c.entry? target with
    | none => rfl
    | some entry => cases v <;> rfl

mutual

theorem fillItem_congr (hc : c.Consistent) {m : EntityMetadata} (hm : m ∈ c.types)
    (item : LayoutItem) {f : FieldDescriptor} (hf : f ∈ m.fields)
    (hd : item.Describes c.types f) (h : c.Agree m.type xs ys) {owner : String} (e : Entity) :
    c.fillItem blank owner xs item e = c.fillItem blank owner ys item e := by
  have hfield : f ∈ c.fieldsOf m.type := hc.fieldsOf_type hm ▸ hf
  match item with
  | .stored g =>
    obtain ⟨rfl, hflat⟩ := hd
    exact fillItem_stored_congr (h _ (.own hfield (by simp [hflat]))) e
  | .detached g =>
    obtain ⟨rfl, hflat, htarget⟩ := hd
    have hnone := Stepwise.target_of_detached hc hm hf htarget
    rw [fillItem, fillItem, fillPlain_congr (h _ (.own hfield (by simp [hnone])))]
  | .group g t items =>
    obtain ⟨ht, htarget⟩ := target_of_group hd
    obtain ⟨rfl, hflat, _, hitems⟩ := hd
    have hinner : c.Agree t.type xs ys := fun name hname =>
      h name (.flattened hfield hflat htarget hname)
    have hpresent : (allNames items).any (isPresent xs) = (allNames items).any (isPresent ys) :=
      any_isPresent_congr fun name hname =>
        hinner name (hasName_of_mem_allNames hc ht items (fun _ hf => hf) hitems hname)
    have hcall : c.fill blank t.type xs items = c.fill blank t.type ys items :=
      funext fun _ => fill_congr hc ht items (fun _ hf => hf) hitems hinner _
    rw [fillItem, fillItem, hpresent, hcall]

theorem fill_congr (hc : c.Consistent) {m : EntityMetadata} (hm : m ∈ c.types)
    (items : List LayoutItem) {fields : List FieldDescriptor} (hfields : ∀ f ∈ fields, f ∈ m.fields)
    (hd : DescribesAll c.types items fields) (h : c.Agree m.type xs ys) {owner : String}
    (e : Entity) :
    c.fill blank owner xs items e = c.fill blank owner ys items e := by
  match items, fields with
  | [], _ => rw [fill_nil, fill_nil]
  | _ :: _, [] => exact hd.elim
  | item :: rest, f :: fields =>
    have hrest : c.fill blank owner xs rest = c.fill blank owner ys rest :=
      funext (fill_congr hc hm rest (fun g hg => hfields g (List.mem_cons_of_mem f hg)) hd.2 h)
    rw [fill, fill, fillItem_congr hc hm item (hfields f List.mem_cons_self) hd.1 h,
      hrest]

end

theorem fillBy_congr (hc : c.Consistent) {x : CatalogEntry} (hx : x ∈ c.entries)
    (h : c.Agree x.metadata.type xs ys) (e : Entity) :
    c.fillBy blank x xs e = c.fillBy blank x ys e :=
  fill_congr hc (mem_types hx) x.items (fun _ hf => hf) (hc.described x hx) h e

end Filling
end Catalog

namespace Hierarchy

theorem select_congr {h : Hierarchy} {xs ys : List Attribute}
    (heq : Named.lookup h.discriminator xs = Named.lookup h.discriminator ys) :
    h.select xs = h.select ys := by
  rw [select, select, heq]

end Hierarchy

namespace Mapping

variable {m : Mapping} {x : CatalogEntry} {r s : Record}

theorem populate_congr (hc : m.catalog.Consistent) (hx : x ∈ m.catalog.entries)
    (h : m.catalog.Agree x.metadata.type r.attributes s.attributes) {e : Entity}
    (he : e.type = x.metadata.type) : m.populate e r = m.populate e s := by
  have hentry : m.entry e.type = .ok x := by rw [entry, he, hc.entry?_type hx]
  rw [populate, populate, hentry]
  exact Catalog.fillBy_congr hc hx h e

theorem toEntity_congr (hc : m.catalog.Consistent) (hx : x ∈ m.catalog.entries)
    (h : ∀ name, m.catalog.ReadsBy x.metadata name → r.find? name = s.find? name) :
    m.toEntity x.metadata.type r = m.toEntity x.metadata.type s := by
  have hinstantiate : m.instantiate x r.attributes = m.instantiate x s.attributes := by
    rw [instantiate, instantiate,
      Catalog.fillBy_congr hc hx fun name hname => h name (.layout hname)]
  cases hi : x.metadata.inheritance with
  | none =>
    have hentry : m.entry x.metadata.type = .ok x := by rw [entry, hc.entry?_type hx]
    simp [toEntity, hentry, hi, hinstantiate, bind, Except.bind]
  | some i =>
    obtain ⟨hierarchy, hh, _⟩ := hc.exists_hierarchy hx hi
    have hselect : hierarchy.select r.attributes = hierarchy.select s.attributes :=
      Hierarchy.select_congr (h _ (.discriminator hi hh))
    rw [toEntity_eq hc hx hi hh, toEntity_eq hc hx hi hh, hselect, hinstantiate]

/-- Whether records are read alike as entities of a type, up to the errors. -/
structure ReadsAlike (m : Mapping) (type : String) (r s : Record) : Prop where
  made : m.toEntity type r = m.toEntity type s
  populated : ∀ e : Entity, e.type = type → m.populate e r = m.populate e s

theorem readsAlike_of_find? (hc : m.catalog.Consistent) (hx : x ∈ m.catalog.entries)
    (h : ∀ name, m.catalog.ReadsBy x.metadata name → r.find? name = s.find? name) :
    m.ReadsAlike x.metadata.type r s where
  made := toEntity_congr hc hx h
  populated _ he := populate_congr hc hx (fun name hname => h name (.layout hname)) he

/-- Reading depends on the layout alone. Two records are read alike if the same is found in both
under each name in the layout of a type, and under the discriminator of its hierarchy; entities are
populated alike even if the discriminators differ. So distinct attributes may stand in any order,
and nothing is changed by attributes that are unknown to the type, or that come after one of the
same name. -/
theorem read_by_layout {settings : Settings} {given : List EntityMetadata}
    (hb : Catalog.build settings given = .ok m.catalog) (hx : x ∈ m.catalog.entries) :
    (∀ r s : Record, (∀ name, m.catalog.ReadsBy x.metadata name → r.find? name = s.find? name) →
      m.ReadsAlike x.metadata.type r s) ∧
    (∀ r s : Record,
      (∀ name, m.catalog.HasName x.metadata.type name → r.find? name = s.find? name) →
      ∀ e : Entity, e.type = x.metadata.type → m.populate e r = m.populate e s) ∧
    (∀ r s : Record, r.names.Nodup → r.attributes.Perm s.attributes →
      m.ReadsAlike x.metadata.type r s) ∧
    ∀ (collection other : String) (before after : List Attribute) (a : Attribute),
      ¬ m.catalog.ReadsBy x.metadata a.name ∨ a.name ∈ Named.names before →
      m.ReadsAlike x.metadata.type ⟨collection, before ++ a :: after⟩ ⟨other, before ++ after⟩ := by
  obtain ⟨_, _, hc⟩ := Catalog.build_spec hb
  refine ⟨fun r s => readsAlike_of_find? hc hx, fun r s h e => populate_congr hc hx h,
    fun r s hn hperm => readsAlike_of_find? hc hx fun _ _ => Named.lookup_of_perm hn hperm, ?_⟩
  rintro collection other before after a (hunknown | htaken)
  · refine readsAlike_of_find? hc hx fun name hname => ?_
    exact Named.lookup_insert_of_ne (fun h => hunknown (h ▸ hname)) before after
  · exact readsAlike_of_find? hc hx fun name _ => Named.lookup_insert_of_mem htaken after

open Declaration

theorem parcels_hasName {name : String} (h : parcels.catalog.HasName "post::Parcel" name) :
    name ∈ ["label", "city", "legs"] := by
  obtain ⟨_, _, hc⟩ := Catalog.build_spec parcels_accepted
  have hparcel : parcels.catalog.fieldsOf "post::Parcel" = parcelType.metadata.fields :=
    hc.fieldsOf_type (m := parcelType.metadata) (by simp [parcels, Catalog.types])
  have hstop : parcels.catalog.fieldsOf "post::Stop" = stopType.metadata.fields :=
    hc.fieldsOf_type (m := stopType.metadata) (by simp [parcels, Catalog.types])
  have hinner : ∀ inner, parcels.catalog.HasName "post::Stop" inner → inner = "city" := by
    intro inner hinner
    cases hinner with
    | own hf =>
      rw [hstop] at hf
      obtain rfl := List.mem_singleton.1 hf
      rfl
    | flattened hf hflat =>
      rw [hstop] at hf
      obtain rfl := List.mem_singleton.1 hf
      cases hflat
  cases h with
  | own hf hn =>
    rw [hparcel] at hf
    simp only [parcelType, List.mem_cons, List.not_mem_nil, or_false] at hf
    rcases hf with rfl | rfl | rfl
    · exact List.mem_cons_self
    · exact absurd ⟨rfl, rfl⟩ hn
    · decide
  | flattened hf hflat ht hname =>
    rw [hparcel] at hf
    simp only [parcelType, List.mem_cons, List.not_mem_nil, or_false] at hf
    rcases hf with rfl | rfl | rfl
    · cases hflat
    · obtain rfl := Option.some.inj ht
      rw [hinner _ hname]
      decide
    · cases hflat

theorem parcels_read_by_layout :
    Catalog.build Settings.standard [stopType.metadata, parcelType.metadata] =
      .ok parcels.catalog ∧
    parcels.ReadsAlike "post::Parcel"
      ⟨"Parcel", [⟨"city", .text "Bern"⟩, ⟨"city", .record []⟩, ⟨"label", .text "A"⟩]⟩
      ⟨"Other", [⟨"city", .text "Bern"⟩, ⟨"label", .text "A"⟩]⟩ ∧
    parcels.ReadsAlike "post::Parcel"
      ⟨"Parcel", [⟨"city", .text "Bern"⟩, ⟨"pickup", .int 1⟩, ⟨"label", .text "A"⟩]⟩
      ⟨"Other", [⟨"city", .text "Bern"⟩, ⟨"label", .text "A"⟩]⟩ ∧
    parcels.ReadsAlike "post::Parcel"
      ⟨"Parcel", [⟨"city", .text "Bern"⟩, ⟨"label", .text "A"⟩]⟩
      ⟨"Parcel", [⟨"label", .text "A"⟩, ⟨"city", .text "Bern"⟩]⟩ := by
  have hx : ⟨parcelType.metadata, parcelType.metadata.fields.map fun f =>
      if f.isFlattened then .group f stopType.metadata (stopType.metadata.fields.map .stored)
      else .stored f⟩ ∈ parcels.catalog.entries := List.mem_cons_of_mem _ List.mem_cons_self
  have hread : ∀ {name : String}, parcels.catalog.ReadsBy parcelType.metadata name →
      name ∈ ["label", "city", "legs"] := by
    intro name h
    cases h with
    | layout hname => exact parcels_hasName hname
    | discriminator hi => cases hi
  obtain ⟨_, _, hperm, hinsert⟩ := read_by_layout parcels_accepted hx
  refine ⟨parcels_accepted, ?_, ?_, ?_⟩
  · exact hinsert "Parcel" "Other" [⟨"city", .text "Bern"⟩] [⟨"label", .text "A"⟩]
      ⟨"city", .record []⟩ (.inr List.mem_cons_self)
  · exact hinsert "Parcel" "Other" [⟨"city", .text "Bern"⟩] [⟨"label", .text "A"⟩]
      ⟨"pickup", .int 1⟩ (.inl fun hpickup => absurd (hread hpickup) (by decide))
  · exact hperm _ _ (by decide) (.swap _ _ [])

end Mapping
end RecordMapping
