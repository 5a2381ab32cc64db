import RecordMapping.Proofs.Catalog.Extension
import RecordMapping.Proofs.Conversion.RoundTrip
/-!
Conversion in a catalog that knows more types. What is written and read without the other types is
written and read in the same way with them.
-/
namespace RecordMapping

namespace Filling

theorem exists_of_andThen {r : Filling} {next : Entity → Filling} {e : Entity}
    (h : r.andThen next = .done e) : ∃ filled, r = .done filled ∧ next filled = .done e := by
  obtain ⟨filled, error?⟩ := r
  cases error? with
  | none => exact ⟨filled, rfl, h⟩
  | some err => cases congrArg Filling.error? h

theorem result_eq_ok_iff {r : Filling} {e : Entity} : r.result = .ok e ↔ r = .done e := by
  obtain ⟨filled, error?⟩ := r
  cases error? <;> simp [result, done]

theorem eq_of_done {fill other : Entity → Filling} (h : ∀ a b, fill a = .done b → other a = .done b)
    {e : Entity} (he : (fill e).error? = none) : other e = fill e := by
  have hdone : fill e = .done (fill e).entity := by rw [done, ← he]
  rw [h _ _ hdone, ← hdone]

end Filling

namespace Entity

variable {blank : String → Entity} {owner field : String} {e filled : Entity}
  {fill other : Entity → Filling}

theorem fillNested_congr (hfill : ∀ a b, fill a = .done b → other a = .done b)
    (h : e.fillNested blank owner field fill = .done filled) :
    e.fillNested blank owner field other = .done filled := by
  rw [fillNested] at h ⊢
  cases hn : e.nested? blank field with
  | none => rwa [hn] at h
  | some inner =>
    simp only [hn] at h ⊢
    rw [Filling.eq_of_done hfill (congrArg Filling.error? h)]
    exact h

theorem fillElement_congr (hfill : ∀ a b, fill a = .done b → other a = .done b)
    (h : e.fillElement blank owner field fill = .done filled) :
    e.fillElement blank owner field other = .done filled := by
  rw [fillElement] at h ⊢
  cases hn : e.element? blank field with
  | none => rwa [hn] at h
  | some inner =>
    simp only [hn] at h ⊢
    rw [Filling.eq_of_done hfill (congrArg Filling.error? h)]
    exact h

end Entity

theorem Mapping.normalAll_congr {m other : Mapping} {es : List Entity}
    (h : ∀ e ∈ es, m.normal e = other.normal e) : m.normalAll es = other.normalAll es := by
  induction es with
  | nil => rw [normalAll, normalAll]
  | cons e rest ih =>
    rw [normalAll, normalAll, h e List.mem_cons_self,
      ih fun e he => h e (List.mem_cons_of_mem _ he)]

namespace Catalog

variable {large small : Catalog}

section Encode

theorem part_congr {f : FieldDescriptor} {r : Reading}
    (hentity : ∀ e attributes, r = .entity e → small.encode e = .ok attributes →
      large.encode e = .ok attributes)
    (hentities : ∀ es items, r = .entities es → small.encodeItems es = .ok items →
      large.encodeItems es = .ok items)
    {own : List Attribute} (h : small.part f r = .ok own) : large.part f r = .ok own := by
  cases r with
  | empty => exact h
  | value v => exact h
  | entity inner =>
    obtain ⟨attributes, ha, rfl⟩ := part_entity_ok h
    rw [Catalog.part, hentity inner attributes rfl ha]
    rfl
  | entities es =>
    obtain ⟨items, hitems, rfl⟩ := part_entities_ok h
    rw [Catalog.part, hentities es items rfl hitems]
    rfl

theorem encodeFields_congr {e : Entity} (hpart : ∀ f own, small.part f (e.read f.name) = .ok own →
      large.part f (e.read f.name) = .ok own) {fields : List FieldDescriptor}
    {attributes : List Attribute} (h : small.encodeFields e fields = .ok attributes) :
    large.encodeFields e fields = .ok attributes := by
  induction fields generalizing attributes with
  | nil =>
    rw [encodeFields_nil] at h ⊢
    exact h
  | cons f rest ih =>
    obtain ⟨own, others, hown, hothers, rfl⟩ := encodeFields_cons_ok h
    rw [encodeFields_cons, hpart f own hown, ih hothers]
    rfl

theorem encodeItems_congr {es : List Entity}
    (hall : ∀ e ∈ es, ∀ attributes, small.encode e = .ok attributes →
      large.encode e = .ok attributes)
    {items : List Value} (h : small.encodeItems es = .ok items) :
    large.encodeItems es = .ok items := by
  induction es generalizing items with
  | nil =>
    rw [encodeItems] at h ⊢
    exact h
  | cons e rest ih =>
    rw [encodeItems] at h ⊢
    cases ha : small.encode e with
    | error err => simp [ha] at h
    | ok attributes =>
      cases hr : small.encodeItems rest with
      | error err => simp [ha, hr, Except.map] at h
      | ok others =>
        rw [hall e List.mem_cons_self attributes ha,
          ih (fun e he => hall e (List.mem_cons_of_mem _ he)) hr]
        simpa only [ha, hr] using h

theorem Extends.encode (hext : large.Extends small) {e : Entity} {attributes : List Attribute}
    (h : small.encode e = .ok attributes) : large.encode e = .ok attributes := by
  cases hx : small.entry? e.type with
  | none => simp [Catalog.encode, hx] at h
  | some x =>
    obtain ⟨own, hown, rfl⟩ := encode_ok hx h
    have hfields : large.encodeFields e x.metadata.fields = .ok own := by
      refine encodeFields_congr (fun f own => part_congr ?_ ?_) hown
      · intro inner attributes hr hinner
        have := Entity.sizeOf_lt_of_read_entity hr
        exact encode hext hinner
      · intro es items hr
        refine encodeItems_congr fun inner hmem attributes hinner => ?_
        have := Entity.sizeOf_lt_of_read_entities hr
        have := List.sizeOf_lt_of_mem hmem
        exact encode hext hinner
    rw [encode_eq (hext hx), hfields]
    rfl
termination_by sizeOf e

end Encode

namespace Extends

section Fill

variable {blank : String → Entity} {owner : String} {attributes : List Attribute}
  {f : FieldDescriptor} {target : String} {v : Value} {e filled : Entity}

theorem fillItem_nested (hext : large.Extends small) (hn : f.isNested = true)
    (ht : f.target = some target) (hv : Named.lookup f.nativeName attributes = some v)
    (hnull : v ≠ .null)
    (hfill : ∀ inner (entry : CatalogEntry), v = .record inner → ∀ a b,
      small.fill blank entry.metadata.type inner entry.items a = .done b →
        large.fill blank entry.metadata.type inner entry.items a = .done b)
    (h : small.fillItem blank owner attributes (.stored f) e = .done filled) :
    large.fillItem blank owner attributes (.stored f) e = .done filled := by
  rw [fillItem_of_isNested hn ht hv hnull] at h ⊢
  cases hx : small.entry? target with
  | none => simp [hx, Filling.done, Filling.fail] at h
  | some entry =>
    rw [hx] at h
    rw [hext hx]
    cases v with
    | record inner => exact Entity.fillNested_congr (hfill inner entry rfl) h
    | _ => exact h

theorem fillItem_many (hext : large.Extends small) (hk : f.kind = .collection)
    (ht : f.target = some target) (hv : Named.lookup f.nativeName attributes = some v)
    (hnull : v ≠ .null)
    (hfill : ∀ values entry, v = .list values →
      small.fillElements blank owner f.name entry values e = .done filled →
        large.fillElements blank owner f.name entry values e = .done filled)
    (h : small.fillItem blank owner attributes (.stored f) e = .done filled) :
    large.fillItem blank owner attributes (.stored f) e = .done filled := by
  rw [fillItem_of_collection hk ht hv hnull] at h ⊢
  cases hx : small.entry? target with
  | none => simp [hx, Filling.done, Filling.fail] at h
  | some entry =>
    rw [hx] at h
    rw [hext hx]
    cases v with
    | list values => exact hfill values entry rfl h
    | _ => exact h

end Fill

variable {blank : String → Entity}

mutual

theorem fill (hext : large.Extends small) (owner : String) (attributes : List Attribute)
    (items : List LayoutItem) {e filled : Entity}
    (h : small.fill blank owner attributes items e = .done filled) :
    large.fill blank owner attributes items e = .done filled := by
  match items with
  | [] =>
    rw [fill_nil] at h ⊢
    exact h
  | item :: rest =>
    rw [Catalog.fill] at h
    obtain ⟨between, hfirst, hrest⟩ := Filling.exists_of_andThen h
    rw [fill_cons (fillItem hext owner attributes item hfirst)]
    exact fill hext owner attributes rest hrest
termination_by (sizeOf attributes, sizeOf items)

theorem fillItem (hext : large.Extends small) (owner : String) (attributes : List Attribute)
    (item : LayoutItem) {e filled : Entity}
    (h : small.fillItem blank owner attributes item e = .done filled) :
    large.fillItem blank owner attributes item e = .done filled := by
  match item with
  | .group f target items =>
    cases hany : (LayoutItem.allNames items).any (isPresent attributes) with
    | false =>
      rw [fillItem_group_absent hany] at h ⊢
      exact h
    | true =>
      rw [fillItem_group hany] at h ⊢
      exact Entity.fillNested_congr (fun _ _ => fill hext target.type attributes items) h
  | .detached f =>
    rw [Catalog.fillItem] at h ⊢
    exact h
  | .stored f =>
    cases f.filledFrom attributes with
    | value hvalue =>
      rw [fillItem_value hvalue] at h ⊢
      exact h
    | absent hv =>
      rw [fillItem_absent hv] at h ⊢
      exact h
    | null hentity hv =>
      rw [fillItem_null hentity hv] at h ⊢
      exact h
    -- only here is a type looked up; what it is filled from is part of the attributes
    | nested hn ht hv hnull =>
      have hsize := sizeOf_lt_of_lookup hv
      refine fillItem_nested hext hn ht hv hnull (fun inner entry hinner a b => ?_) h
      have : sizeOf inner < sizeOf attributes := by
        simp only [hinner, Value.record.sizeOf_spec] at hsize
        omega
      exact fill hext entry.metadata.type inner entry.items
    | collection hk ht hv hnull =>
      have hsize := sizeOf_lt_of_lookup hv
      refine fillItem_many hext hk ht hv hnull (fun values entry hvalues => ?_) h
      have : sizeOf values < sizeOf attributes := by
        simp only [hvalues, Value.list.sizeOf_spec] at hsize
        omega
      exact fillElements hext owner f.name entry values
termination_by (sizeOf attributes, sizeOf item)

theorem fillElements (hext : large.Extends small) (owner field : String) (entry : CatalogEntry)
    (values : List Value) {e filled : Entity}
    (h : small.fillElements blank owner field entry values e = .done filled) :
    large.fillElements blank owner field entry values e = .done filled := by
  match values with
  | [] =>
    rw [Catalog.fillElements] at h ⊢
    exact h
  | v :: rest =>
    cases v with
    | record inner =>
      rw [Catalog.fillElements] at h ⊢
      obtain ⟨between, hfirst, hrest⟩ := Filling.exists_of_andThen h
      rw [Entity.fillElement_congr (fun _ _ => fill hext entry.metadata.type inner entry.items)
        hfirst]
      exact fillElements hext owner field entry rest hrest
    | _ => simp [Catalog.fillElements, Filling.done, Filling.fail] at h
termination_by (sizeOf values, 0)

end

end Extends

end Catalog

section Mapping

variable {m : Mapping} {c : Catalog}

theorem Catalog.Extends.part (hext : m.catalog.Extends c) {f : FieldDescriptor} {r : Reading}
    {own : List Attribute} (h : c.part f r = .ok own) : m.catalog.part f r = .ok own :=
  Catalog.part_congr (fun _ _ _ => hext.encode)
    (fun _ _ _ => Catalog.encodeItems_congr fun _ _ _ => hext.encode) h

theorem Catalog.Extends.toRecord (hext : m.catalog.Extends c) {e : Entity} {record : Record}
    (h : Mapping.toRecord ⟨m.schema, c⟩ e = .ok record) : m.toRecord e = .ok record := by
  obtain ⟨x, hx, ha, hname⟩ := Mapping.toRecord_eq_ok_iff.1 h
  exact Mapping.toRecord_eq_ok_iff.2 ⟨x, hext hx, hext.encode ha, hname⟩

theorem Catalog.Extends.instantiate (hext : m.catalog.Extends c) {x : CatalogEntry}
    {attributes : List Attribute} {e : Entity}
    (h : Mapping.instantiate ⟨m.schema, c⟩ x attributes = .ok e) :
    m.instantiate x attributes = .ok e := by
  rw [Mapping.instantiate, Filling.result_eq_ok_iff] at h ⊢
  exact hext.fill x.metadata.type attributes x.items h

theorem Catalog.Extends.flattens_eq (hext : m.catalog.Extends c) {type : String} {x : CatalogEntry}
    (hx : c.entry? type = some x) (field : String) :
    Mapping.flattens ⟨m.schema, c⟩ type field = m.flattens type field := by
  rw [Mapping.flattens, Mapping.flattens, hx, hext hx]

theorem Catalog.Extends.isSilent_eq (hext : m.catalog.Extends c) {e : Entity}
    (he : c.Agrees e) : Mapping.isSilent ⟨m.schema, c⟩ e = m.isSilent e := by
  obtain ⟨attributes, ha⟩ := he.encodes
  rw [Mapping.isSilent, Mapping.isSilent, ha, hext.encode ha]

mutual

theorem Schema.Typed.normal_eq (hm : Mapping.Sound ⟨m.schema, c⟩) (hext : m.catalog.Extends c)
    {e : Entity} : m.schema.Typed e → (∃ x, c.entry? e.type = some x) →
    Mapping.normal ⟨m.schema, c⟩ e = m.normal e
  | @Schema.Typed.intro _ t _ slots hidden ht hslots, ⟨x, hx⟩ => by
    have hcoherent := hm.coherent_of_type? hx ht
    obtain ⟨hmem, rfl⟩ := Catalog.entry?_mem hx
    have hnormal :=
      hslots.normal_eq hm hext hx hcoherent.fields (Catalog.mem_types hmem) fun f hf => hf
    exact congrArg (Entity.mk x.metadata.type · (m.schema.blank x.metadata.type).hidden) hnormal

theorem Schema.TypedSlots.normal_eq (hm : Mapping.Sound ⟨m.schema, c⟩) (hext : m.catalog.Extends c)
    {type : String} {x : CatalogEntry} {slots blanks : List (Named Slot)}
    {fields : List FieldDescriptor} {metadata : EntityMetadata} :
    m.schema.TypedSlots slots blanks → c.entry? type = some x →
    List.Forall₂ (fun f blank => blank.name = f.name ∧ f.Fits m.schema blank.value) fields blanks →
    metadata ∈ c.types → (∀ f ∈ fields, f ∈ metadata.fields) →
    Mapping.normalSlots ⟨m.schema, c⟩ type slots = m.normalSlots type slots
  | .nil, _, _, _, _ => by rw [Mapping.normalSlots, Mapping.normalSlots]
  | .cons hslot hrest, hx, hf, hmeta, hmem => by
    cases hf with
    | cons hfirst hothers =>
      rw [Mapping.normalSlots, Mapping.normalSlots, hext.flattens_eq hx,
        hslot.normal_eq hm hext hfirst.2 hmeta (hmem _ List.mem_cons_self),
        hrest.normal_eq hm hext hx hothers hmeta fun f hf => hmem f (List.mem_cons_of_mem _ hf)]

theorem Schema.TypedSlot.normal_eq (hm : Mapping.Sound ⟨m.schema, c⟩) (hext : m.catalog.Extends c)
    {slot blank : Slot} {f : FieldDescriptor} {metadata : EntityMetadata} {flattened : Bool} :
    m.schema.TypedSlot slot blank → f.Fits m.schema blank → metadata ∈ c.types →
    f ∈ metadata.fields →
    Mapping.normalSlot ⟨m.schema, c⟩ flattened slot = m.normalSlot flattened slot
  | .data, _, _, _ => by rw [Mapping.normalSlot, Mapping.normalSlot]
  | .single htype he, hfits, hmeta, hmem => by
    cases hfits with
    | @single t hn ht hs =>
      obtain ⟨x, hx⟩ := hm.consistent.target hmeta hmem ht
      have hcoherent := hm.coherent_of_type? hx hs
      rw [hcoherent.type, (Catalog.entry?_mem hx).2] at htype
      rw [Mapping.normalSlot, Mapping.normalSlot, he.normal_eq hm hext ⟨x, htype ▸ hx⟩]
  | .missing, _, _, _ => by rw [Mapping.normalSlot, Mapping.normalSlot]
  | .optional htype he, hfits, hmeta, hmem => by
    subst htype
    cases hfits with
    | optional hn ht =>
      have hx := hm.consistent.target hmeta hmem ht
      rw [Mapping.normalSlot, Mapping.normalSlot, he.normal_eq hm hext hx,
        hext.isSilent_eq (he.agrees hm hx)]
  | .many htypes hes, hfits, hmeta, hmem => by
    cases hfits with
    | many hk ht =>
      have hx := hm.consistent.target hmeta hmem ht
      rw [Mapping.normalSlot, Mapping.normalSlot,
        Mapping.normalAll_congr fun e he => (hes e he).normal_eq hm hext ((htypes e he).symm ▸ hx)]

end

/-- The types that one type leads to make a sound mapping of their own, if all of them are declared.
The other types need not be. -/
theorem Mapping.exists_sound_leads {settings : Settings} {given : List EntityMetadata}
    (hb : Catalog.build settings given = .ok m.catalog) {type : String}
    (hd : ∀ metadata ∈ given, m.catalog.Leads type metadata.type → m.schema.Declares metadata) :
    ∃ c : Catalog, m.catalog.Extends c ∧ Mapping.Sound ⟨m.schema, c⟩ ∧
      c.entry? type = m.catalog.entry? type := by
  classical
  have hc := (Catalog.build_spec hb).2.2
  refine ⟨m.catalog.restrict (m.catalog.Leads type), Catalog.extends_restrict,
    ⟨hc.restrict (Catalog.closed_leads type), fun x hx => ?_⟩, Catalog.entry?_restrict .self⟩
  obtain ⟨hmem, hleads⟩ := Catalog.mem_restrict.1 hx
  exact exists_coherent hb hmem fun metadata hgiven htype =>
    hd metadata hgiven (htype.symm ▸ hleads)

theorem Catalog.Extends.flattensPlain (hext : m.catalog.Extends c) (hc : c.Consistent)
    (hp : m.catalog.FlattensPlain) : c.FlattensPlain :=
  fun _ hx f hf hflat _ hy => hp _ (hext.mem_entries hc hx) f hf hflat _ (hext.mem_entries hc hy)

theorem Mapping.exists_sound_part {settings : Settings} {given : List EntityMetadata}
    (hb : Catalog.build settings given = .ok m.catalog) {type : String}
    (hd : ∀ metadata ∈ given, m.catalog.Leads type metadata.type → m.schema.Declares metadata)
    (hp : m.catalog.FlattensPlain) :
    ∃ c : Catalog, m.catalog.Extends c ∧ Mapping.Sound ⟨m.schema, c⟩ ∧ c.FlattensPlain ∧
      c.entry? type = m.catalog.entry? type := by
  obtain ⟨c, hext, hm, hsame⟩ := exists_sound_leads hb hd
  exact ⟨c, hext, hm, hext.flattensPlain hm.consistent hp, hsame⟩

end Mapping
end RecordMapping
