import RecordMapping.Proofs.Conversion.Restoring
import RecordMapping.Proofs.Conversion.Selection
/-!
Entities come back from their records in their normal form.
-/
namespace RecordMapping

open Catalog

namespace Schema

variable {m : Mapping}

mutual

/-- Every typed entity comes back as some entity, by induction on its fields: as its normal form
where all contents are known from their values. -/
theorem Typed.restored (hm : m.Sound) (hp : m.catalog.FlattensPlain) {e : Entity} :
    m.schema.Typed e → (∃ x, m.catalog.entry? e.type = some x) →
    ∃ back, m.Restores e back ∧ (m.schema.Faithful e.type → back = m.normal e)
  | @Typed.intro _ t _ slots hidden ht hslots, ⟨x, hx⟩ => by
    have hcoherent := hm.coherent_of_type? hx ht
    obtain ⟨hmem, rfl⟩ := entry?_mem hx
    have hsuits := (Typed.agrees hm (.intro ht hslots) ⟨x, hx⟩).suits hx
    have hdistinct := hslots.nodup_names hm hmem hcoherent
    have hread : ∀ slot ∈ slots,
        (Entity.mk x.metadata.type slots hidden).read slot.name = slot.value.read :=
      fun slot hslot => Entity.read_of_mem hdistinct hslot
    obtain ⟨backs, hrestores, hnormal⟩ :=
      hslots.restored hm hp hmem (fun f hf => hf) hcoherent.fields
    have hnew : m.schema.blank x.metadata.type =
        .mk x.metadata.type t.blank.slots t.blank.hidden := by
      rw [blank_of_type? ht, ← hcoherent.type]
      cases t.blank with | mk _ _ _ => rfl
    refine ⟨.mk x.metadata.type backs t.blank.hidden, ?_, fun hfaith => ?_⟩
    · intro y items own owner attributes hy hd hn hown hl
      obtain rfl := Option.some.inj (hx.symm.trans hy)
      have hparts := Mapping.exists_parts hm hp hmem hsuits hd hn hown hl
      rw [Entity.type, hnew]
      exact hrestores.fill hd hn hread hparts owner [] t.blank.hidden hdistinct
    · rw [Mapping.normal, hnew, hnormal (fun slot hslot => hfaith.data ht hslot)
        fun slot hslot => hfaith.target ht hslot]
      rfl

theorem TypedSlots.restored (hm : m.Sound) (hp : m.catalog.FlattensPlain) {x : CatalogEntry}
    {fields : List FieldDescriptor} {slots blanks : List (Named Slot)} :
    m.schema.TypedSlots slots blanks → x ∈ m.catalog.entries →
    (∀ f ∈ fields, f ∈ x.metadata.fields) →
    List.Forall₂ (fun f slot => slot.name = f.name ∧ f.Fits m.schema slot.value) fields blanks →
    ∃ backs, m.RestoresSlots fields slots blanks backs ∧
      ((∀ slot ∈ blanks, ∀ {data : DataType} {content : data.Carrier},
          slot.value = .data data content → data.Faithful) →
        (∀ slot ∈ blanks, ∀ {target : String}, slot.value.target? = some target →
          m.schema.Faithful target) →
        backs = m.normalSlots x.metadata.type slots)
  | .nil, _, _, hfields => by
    cases hfields
    exact ⟨[], .nil, fun _ _ => by rw [Mapping.normalSlots]⟩
  | .cons hslot hrest, hx, hf, hfields => by
    cases hfields with
    | @cons f _ rest _ hfirst hothers =>
      obtain ⟨rfl, hfits⟩ := hfirst
      obtain ⟨back, hback, hnormal⟩ :=
        hslot.restored hm hp hx (hf _ List.mem_cons_self) hfits
      obtain ⟨backs, hbacks, hnormals⟩ :=
        hrest.restored hm hp hx (fun g hg => hf g (List.mem_cons_of_mem _ hg)) hothers
      refine ⟨⟨f.name, back⟩ :: backs, .cons hback hbacks, fun hdata htarget => ?_⟩
      rw [Mapping.normalSlots, hm.flattens_eq hx (hf f List.mem_cons_self),
        hnormal (hdata _ List.mem_cons_self) (htarget _ List.mem_cons_self),
        hnormals (fun s hs => hdata s (List.mem_cons_of_mem _ hs))
          fun s hs => htarget s (List.mem_cons_of_mem _ hs)]

theorem TypedSlot.restored (hm : m.Sound) (hp : m.catalog.FlattensPlain) {x : CatalogEntry}
    {f : FieldDescriptor} {slot blank : Slot} : m.schema.TypedSlot slot blank →
    x ∈ m.catalog.entries → f ∈ x.metadata.fields → f.Fits m.schema blank →
    ∃ back, m.RestoresSlot f slot blank back ∧
      ((∀ {data : DataType} {content : data.Carrier}, blank = .data data content →
          data.Faithful) →
        (∀ {target : String}, blank.target? = some target → m.schema.Faithful target) →
        back = m.normalSlot f.isFlattened slot)
  | @TypedSlot.data _ t content _, _, _, hfits => by
    cases hfits with
    | data hnested ht hkind =>
      refine ⟨.data t (t.reread content), ?_, fun hdata _ => ?_⟩
      · intro item own attributes owner type before after hidden hd _ hown hl hname
        exact Mapping.fillItem_data hnested ht hkind hd hown hl hname
      · rw [Mapping.normalSlot, DataType.Faithful.reread (hdata rfl)]
  | .single htype he, hx, hf, hfits => by
    cases hfits with
    | @single t hnested ht hs =>
      obtain ⟨y, hy⟩ := hm.consistent.target (mem_types hx) hf ht
      have hblank := (hm.coherent_of_type? hy hs).type
      rw [hblank, (entry?_mem hy).2] at htype
      rw [← htype] at ht hy hs
      obtain ⟨back, hback, hnormal⟩ := he.restored hm hp ⟨y, hy⟩
      refine ⟨.single back, ?_, fun _ htarget => ?_⟩
      · intro item own attributes owner type before after hidden hd hn hown hl hname
        rw [← blank_of_type? hs]
        exact Mapping.fillItem_single hm hp hx hf hnested hd hn (he.agrees hm ⟨y, hy⟩) ht hback
          hown hl hname
      · have hfaith : m.schema.Faithful t.blank.type := htarget rfl
        rw [hblank, (entry?_mem hy).2] at hfaith
        rw [Mapping.normalSlot, hnormal hfaith]
  | @TypedSlot.missing _ target _, hx, hf, hfits => by
    cases hfits with
    | optional hnested ht =>
      refine ⟨.optional target none, ?_, fun _ _ => by rw [Mapping.normalSlot]⟩
      intro item own attributes owner type before after hidden hd _ hown hl hname
      obtain rfl := Except.ok.inj hown
      exact Mapping.fillItem_empty hm hx hf hd hl _
  | @TypedSlot.optional _ target e _ htype he, hx, hf, hfits => by
    subst htype
    cases hfits with
    | optional hnested ht =>
      have hregistered := hm.consistent.target (mem_types hx) hf ht
      obtain ⟨back, hback, hnormal⟩ := he.restored hm hp hregistered
      refine ⟨.optional e.type (if f.isFlattened && m.isSilent e then none else some back), ?_,
        fun _ htarget => ?_⟩
      · intro item own attributes owner type before after hidden hd hn hown hl hname
        exact Mapping.fillItem_optional hm hp hx hf hnested hd hn (he.agrees hm hregistered) ht
          hback hown hl hname
      · rw [Mapping.normalSlot, hnormal (htarget rfl)]
  | @TypedSlot.many _ target es _ htypes hes, hx, hf, hfits => by
    cases hfits with
    | many hk ht =>
      obtain ⟨y, hy⟩ := hm.consistent.target (mem_types hx) hf ht
      obtain ⟨backs, hbacks, hnormal⟩ := Mapping.exists_backs fun e he =>
        (hes e he).restored hm hp ⟨y, htypes e he ▸ hy⟩
      refine ⟨.many target backs, ?_, fun _ htarget => ?_⟩
      · intro item own attributes owner type before after hidden hd _ hown hl hname
        exact Mapping.fillItem_entities hm hk hd ht hy htypes hbacks hown hl hname
      · rw [Mapping.normalSlot, hnormal fun e he => htypes e he ▸ htarget rfl]

end

theorem Typed.restores (hm : m.Sound) (hp : m.catalog.FlattensPlain) {e : Entity}
    (he : m.schema.Typed e) (hf : m.schema.Faithful e.type) : m.Restores e (m.normal e) := by
  intro x items own owner attributes hx
  obtain ⟨back, hback, hnormal⟩ := he.restored hm hp ⟨x, hx⟩
  obtain rfl := hnormal hf
  exact hback x items own owner attributes hx

end Schema

namespace Mapping

variable {m : Mapping}

theorem instantiate_encode (hm : m.Sound) {e back : Entity} (h : m.Restores e back)
    {x : CatalogEntry} (hx : m.catalog.entry? e.type = some x) {attributes : List Attribute}
    (ha : m.catalog.encode e = .ok attributes) : m.instantiate x attributes = .ok back := by
  have hfill := h.record hm hx ha
  rw [← (entry?_mem hx).2] at hfill
  rw [instantiate, fillBy, hfill]
  rfl

theorem Sound.toEntity_toRecord (hm : m.Sound) (hp : m.catalog.FlattensPlain) {e back : Entity}
    {x : CatalogEntry} (hx : m.catalog.entry? e.type = some x) (he : m.schema.Typed e)
    (h : m.Restores e back) {r : Record} (hr : m.toRecord e = .ok r) :
    m.toEntity e.type r = .ok back := by
  obtain ⟨y, hy, ha, _⟩ := toRecord_eq_ok_iff.1 hr
  obtain rfl := Option.some.inj (hx.symm.trans hy)
  have hentry : m.entry e.type = .ok x := by rw [entry, hx]
  have hnew := instantiate_encode hm h hx ha
  cases hi : x.metadata.inheritance with
  | none => simp [toEntity, hentry, hi, hnew, bind, Except.bind]
  | some i =>
    obtain ⟨h, hh, hselect⟩ := hm.select hp he hx ha hi
    have hsubtype := subtypeOf_eq r hi hh
    simp [toEntity, hentry, hi, hsubtype, hselect, hnew, bind, Except.bind]

theorem Sound.exists_restored (hm : m.Sound) (hp : m.catalog.FlattensPlain) {e : Entity}
    {x : CatalogEntry} (hx : m.catalog.entry? e.type = some x) (he : m.schema.Typed e) :
    ∃ r back, m.toRecord e = .ok r ∧ m.toEntity e.type r = .ok back ∧
      (m.schema.Faithful e.type → back = m.normal e) := by
  obtain ⟨attributes, ha⟩ := (he.agrees hm ⟨x, hx⟩).encodes
  have hr : m.toRecord e = .ok ⟨x.metadata.collection, attributes⟩ :=
    toRecord_eq_ok_iff.2 ⟨x, hx, ha, rfl⟩
  obtain ⟨back, hback, hnormal⟩ := he.restored hm hp ⟨x, hx⟩
  exact ⟨_, back, hr, hm.toEntity_toRecord hp hx he hback hr, hnormal⟩

/-- What is read from the record of an entity is its normal form: by its own type, and for a subtype
also through its siblings, its collection and its root. -/
theorem restored_from_record {settings : Settings} {given : List EntityMetadata}
    (hb : Catalog.build settings given = .ok m.catalog)
    (hd : ∀ metadata ∈ given, m.schema.Declares metadata) (hp : m.catalog.FlattensPlain)
    {e : Entity} {x : CatalogEntry} (hx : m.catalog.entry? e.type = some x)
    (he : m.schema.Typed e) (hf : m.schema.Faithful e.type) :
    ∃ r, m.toRecord e = .ok r ∧ m.toEntity e.type r = .ok (m.normal e) ∧
      ∀ i, x.metadata.inheritance = some i →
        (∀ (sibling : EntityMetadata) (j : Inheritance), sibling.inheritance = some j →
          j.root = i.root → m.toInherited sibling r = .ok (m.normal e)) ∧
        m.toDynamic r = .ok (m.normal e) ∧
        ∀ root : Root, root.collection = i.root → (root.variants.map (·.value)).Nodup →
          ∀ v ∈ root.variants, v.value = e.type →
            m.toRoot root r = .ok ⟨v.name, m.normal e⟩ := by
  have hm := sound_of_build hb hd
  have hrestores := he.restores hm hp hf
  obtain ⟨attributes, ha⟩ := (he.agrees hm ⟨x, hx⟩).encodes
  have hnew := instantiate_encode hm hrestores hx ha
  have hr : m.toRecord e = .ok ⟨x.metadata.collection, attributes⟩ :=
    toRecord_eq_ok_iff.2 ⟨x, hx, ha, rfl⟩
  refine ⟨_, hr, hm.toEntity_toRecord hp hx he hrestores hr, ?_⟩
  intro i hi
  obtain ⟨h, hh, hselect⟩ := hm.select hp he hx ha hi
  refine ⟨fun sibling j hj hroot => ?_, ?_, fun root hroot hdistinct v hv hvalue => ?_⟩
  · rw [toInherited, subtypeOf_eq _ hj (hroot ▸ hh), hselect]
    exact hnew
  · have hcollection := hm.rooted (mem_types (entry?_mem hx).1) hi
    rw [toDynamic, hcollection, hh]
    simp [hselect, hnew, bind, Except.bind]
  · have htype := (entry?_mem hx).2
    have hvariant := m.schema.instantiate?_of_mem hdistinct hv (hvalue.trans htype.symm)
    have hfill := hrestores.record hm hx ha
    rw [← htype] at hfill
    rw [toRoot, hroot, hh]
    simp only [hselect, hvariant, fillBy, hfill, bind, Except.bind]
    rfl

def letter (text : String) : Entity :=
  .mk "post::Letter" [⟨"text", .data .text text⟩] []

theorem letter_faithful : mailing.schema.Faithful "post::Letter" := by
  intro inner t _ ht slot hslot data content hdata
  have hmem : t ∈ Declaration.mail.types := List.mem_of_find?_eq_some ht
  simp only [Declaration.mail, List.mem_cons, List.not_mem_nil, or_false] at hmem
  rcases hmem with rfl | rfl
  · obtain rfl := List.mem_singleton.1 hslot
    cases hdata
    trivial
  · obtain rfl := List.mem_singleton.1 hslot
    cases hdata
    trivial

def stop (city : String) : Entity :=
  .mk "post::Stop" [⟨"city", .data .text city⟩] []

def sent (weight : IntType.Carrier (.unsigned .w64)) : Entity :=
  .mk "post::Parcel" [⟨"label", .data .text "A"⟩,
    ⟨"pickup", .optional "post::Stop" (some (stop "Ulm"))⟩,
    ⟨"legs", .many "post::Stop" [stop "Bonn", stop "Kiel"]⟩]
    [⟨"weight", .data (.int (.unsigned .w64)) weight⟩]

theorem stop_typed (city : String) : parcels.schema.Typed (stop city) :=
  .intro (t := Declaration.stopType) rfl (.cons .data .nil)

theorem sent_typed (weight : IntType.Carrier (.unsigned .w64)) :
    parcels.schema.Typed (sent weight) := by
  have hlegs : ∀ e ∈ [stop "Bonn", stop "Kiel"],
      e.type = "post::Stop" ∧ parcels.schema.Typed e := by
    intro e he
    rcases List.mem_pair.1 he with rfl | rfl
    · exact ⟨rfl, stop_typed _⟩
    · exact ⟨rfl, stop_typed _⟩
  exact .intro (t := Declaration.parcelType) rfl (.cons .data (.cons (.optional rfl (stop_typed _))
    (.cons (.many (fun e he => (hlegs e he).1) fun e he => (hlegs e he).2) .nil)))

theorem parcel_faithful : parcels.schema.Faithful "post::Parcel" := by
  intro inner t _ ht slot hslot data content hdata
  have hmem : t ∈ [Declaration.stopType, Declaration.parcelType] := List.mem_of_find?_eq_some ht
  rcases List.mem_pair.1 hmem with rfl | rfl
  · obtain rfl := List.mem_singleton.1 hslot
    cases hdata
    trivial
  · simp only [Declaration.parcelType, Entity.slots, List.mem_cons, List.not_mem_nil,
      or_false] at hslot
    rcases hslot with rfl | rfl | rfl <;> cases hdata
    trivial

theorem parcel_and_letter_restored :
    (∀ weight, ∃ r, parcels.toRecord (sent weight) = .ok r ∧
      parcels.toEntity "post::Parcel" r = .ok (sent (IntType.zero _))) ∧
    ∃ r, mailing.toRecord (letter "hello") = .ok r ∧
      mailing.toEntity "post::Letter" r = .ok (letter "hello") ∧
      mailing.toDynamic r = .ok (letter "hello") ∧
      mailing.toRoot ⟨"post::Mail", "Mail", "dtype", [⟨"Letter", "post::Letter"⟩,
        ⟨"Card", "post::Card"⟩]⟩ r = .ok ⟨"Letter", letter "hello"⟩ := by
  constructor
  · intro weight
    have hnormal : parcels.normal (sent weight) = sent (IntType.zero _) := by cbv
    obtain ⟨r, hr, hentity, _⟩ := restored_from_record parcels_accepted parcels_declares
      parcels_plain (e := sent weight) rfl (sent_typed weight) parcel_faithful
    rw [hnormal] at hentity
    exact ⟨r, hr, hentity⟩
  · have htyped : mailing.schema.Typed (letter "hello") :=
      .intro (t := Declaration.mailType "Letter" "post::Letter") (by rfl) (.cons .data .nil)
    have hnormal : mailing.normal (letter "hello") = letter "hello" := by cbv
    obtain ⟨r, hr, hentity, hsubtype⟩ := restored_from_record mailing_accepted mail_declares
      mailing_plain (e := letter "hello") rfl htyped letter_faithful
    obtain ⟨_, hdynamic, hroot⟩ := hsubtype _ rfl
    rw [hnormal] at hentity hdynamic
    refine ⟨r, hr, hentity, hdynamic, ?_⟩
    rw [← hnormal]
    exact hroot _ rfl (by decide) ⟨"Letter", "post::Letter"⟩ List.mem_cons_self rfl

end Mapping
end RecordMapping
