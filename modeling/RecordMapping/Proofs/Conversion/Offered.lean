import RecordMapping.Proofs.Catalog.Extension
import RecordMapping.Proofs.Conversion.Normal
import RecordMapping.Proofs.Conversion.ReadPaths
import RecordMapping.Proofs.Entity.Typed
/-!
What entities offer to those who fill them. Those of a derived type have a slot for each field that
is described. Types that are not derived may lack slots, or hold other entities than they say, and
then nothing is known of what these offer.
-/
namespace RecordMapping

open Declaration Catalog

namespace Slot

def entities : Slot → List Entity
  | .data _ _ => []
  | .single e => [e]
  | .optional _ o => o.toList
  | .many _ es => es

def made? : Slot → Option String
  | .optional target _ => some target
  | .many target _ => some target
  | _ => none

theorem sizeOf_lt_of_mem_entities {slot : Slot} {e : Entity} (h : e ∈ slot.entities) :
    sizeOf e < sizeOf slot := by
  cases slot with
  | data t x => cases h
  | single inner =>
    obtain rfl := List.mem_singleton.1 h
    simp
  | optional target o =>
    obtain rfl := Option.mem_toList.1 h
    simp only [optional.sizeOf_spec, Option.some.sizeOf_spec]
    omega
  | many target es =>
    have : sizeOf e < sizeOf es := List.sizeOf_lt_of_mem h
    simp only [many.sizeOf_spec]
    omega

/-- Whether a slot is read and written as a descriptor says. -/
inductive Serves (f : FieldDescriptor) : Slot → Prop
  | data {t : DataType} {x : t.Carrier} : f.target = none → Serves f (.data t x)
  | single {e : Entity} : f.isNested = true → f.target.isSome = true → Serves f (.single e)
  | optional {target : String} {o : Option Entity} : f.isNested = true →
    f.target.isSome = true → Serves f (.optional target o)
  | many {target : String} {es : List Entity} : f.kind = .collection →
    f.target.isSome = true → Serves f (.many target es)

/-- Whether a slot holds new entities of a type or room for them, or nothing to be filled. -/
structure IsNew (blank : String → Entity) (target : String) (slot : Slot) : Prop where
  made : ∀ made, slot.made? = some made → made = target
  entities : ∀ e ∈ slot.entities, e = blank target

end Slot

namespace FieldDescriptor.Fits

variable {s : Schema} {f : FieldDescriptor} {slot : Slot}

theorem serves (h : f.Fits s slot) : slot.Serves f := by
  cases h with
  | data _ ht _ => exact .data ht
  | single hn ht _ => exact .single hn (by rw [ht]; rfl)
  | optional hn ht => exact .optional hn (by rw [ht]; rfl)
  | many hk ht => exact .many hk (by rw [ht]; rfl)

theorem isNew (h : f.Fits s slot) {target : String} (htarget : f.target = some target) :
    slot.IsNew s.blank target := by
  cases h with
  | data _ ht _ => simp [ht] at htarget
  | single _ ht hs =>
    obtain rfl := Option.some.inj (ht.symm.trans htarget)
    exact ⟨by simp [Slot.made?], by simp [Slot.entities, Schema.blank_of_type? hs]⟩
  | optional _ ht =>
    obtain rfl := Option.some.inj (ht.symm.trans htarget)
    exact ⟨by simp [Slot.made?], by simp [Slot.entities]⟩
  | many _ ht =>
    obtain rfl := Option.some.inj (ht.symm.trans htarget)
    exact ⟨by simp [Slot.made?], by simp [Slot.entities]⟩

end FieldDescriptor.Fits

namespace Entity

variable {e : Entity} {name : String} {old : Slot}

theorem slot?_assign_self (h : e.slot? name = some old) (new : Slot) :
    (e.assign name new).slot? name = some new := by
  cases e
  exact Named.lookup_assign_self h

theorem slot?_assign_of_ne {other : String} (h : other ≠ name) (new : Slot) :
    (e.assign name new).slot? other = e.slot? other := by
  cases e
  exact Named.lookup_assign_of_ne h

end Entity

namespace Catalog

def fieldsOf (c : Catalog) (type : String) : List FieldDescriptor :=
  (c.entry? type).elim [] (·.metadata.fields)

variable {c : Catalog}

theorem mem_fieldsOf {type : String} {f : FieldDescriptor} :
    f ∈ c.fieldsOf type ↔ ∃ x, c.entry? type = some x ∧ f ∈ x.metadata.fields := by
  rw [fieldsOf]
  cases c.entry? type <;> simp

theorem Consistent.fieldsOf_type (hc : c.Consistent) {m : EntityMetadata} (hm : m ∈ c.types) :
    c.fieldsOf m.type = m.fields := by
  obtain ⟨x, hx, rfl⟩ := List.mem_map.1 hm
  rw [fieldsOf, hc.entry?_type hx]
  rfl

theorem Consistent.nodup_fieldsOf (hc : c.Consistent) (type : String) :
    ((c.fieldsOf type).map (·.name)).Nodup := by
  rw [fieldsOf]
  cases hx : c.entry? type with
  | none => exact List.nodup_nil
  | some x => exact hc.fieldsDistinct _ (mem_types (entry?_mem hx).1)

theorem Leads.trans {type middle target : String} (h : c.Leads type middle)
    (h' : c.Leads middle target) : c.Leads type target := by
  induction h' with
  | self => exact h
  | field _ hm hf ht ih => exact .field ih hm hf ht

theorem Leads.of_mem_fieldsOf {type target : String} {f : FieldDescriptor}
    (hf : f ∈ c.fieldsOf type) (ht : f.target = some target) : c.Leads type target := by
  obtain ⟨x, hx, hfield⟩ := mem_fieldsOf.1 hf
  obtain ⟨hmem, rfl⟩ := entry?_mem hx
  exact .field .self (mem_types hmem) hfield ht

end Catalog

namespace Schema

variable {s : Schema}

section Slots

variable {slot blank : Slot}

theorem TypedSlot.serves (h : s.TypedSlot slot blank) {f : FieldDescriptor}
    (hf : blank.Serves f) : slot.Serves f := by
  cases h with
  | data => cases hf with | data ht => exact .data ht
  | single => cases hf with | single hn ht => exact .single hn ht
  | missing => cases hf with | optional hn ht => exact .optional hn ht
  | optional => cases hf with | optional hn ht => exact .optional hn ht
  | many => cases hf with | many hk ht => exact .many hk ht

theorem TypedSlot.made?_eq (h : s.TypedSlot slot blank) : slot.made? = blank.made? := by
  cases h <;> rfl

theorem TypedSlot.entities (h : s.TypedSlot slot blank) {e : Entity} (he : e ∈ slot.entities) :
    s.Typed e ∧ ((∃ new ∈ blank.entities, e.type = new.type) ∨ blank.made? = some e.type) := by
  cases h with
  | data => cases he
  | single htype htyped =>
    obtain rfl := List.mem_singleton.1 he
    exact ⟨htyped, .inl ⟨_, List.mem_singleton_self _, htype⟩⟩
  | missing => cases he
  | optional htype htyped =>
    obtain rfl := Option.some.inj (Option.mem_toList.1 he)
    exact ⟨htyped, .inr (congrArg some htype.symm)⟩
  | many htypes htyped => exact ⟨htyped e he, .inr (congrArg some (htypes e he).symm)⟩

end Slots

theorem Typed.slots {e : Entity} (h : s.Typed e) :
    s.TypedSlots e.slots (s.blank e.type).slots := by
  cases h with
  | intro ht hslots =>
    rw [Entity.type, blank_of_type? ht]
    exact hslots

end Schema

namespace Mapping

variable (m : Mapping)

/-- A registered type that was derived from a declaration. -/
def Derives (type : String) : Prop :=
  ∃ x t, m.catalog.entry? type = some x ∧ m.schema.type? type = some t ∧ Declared m.schema t ∧
    x.metadata = t.metadata.withDefaultPolicy m.catalog.settings.embedded

/-- Whether new entities of a type are of that type and hold, in the fields that point at other
types, new entities of these types or room for them, or nothing to be filled. -/
structure Honest (type : String) : Prop where
  named : (m.schema.blank type).type = type
  fields : ∀ f ∈ m.catalog.fieldsOf type, ∀ target slot, f.target = some target →
    (m.schema.blank type).slot? f.name = some slot → slot.IsNew m.schema.blank target

inductive Fit : String → Entity → Prop
  | intro {type : String} {e : Entity} :
    (m.Honest type → e.type = type) →
    (m.Derives type → ∀ f ∈ m.catalog.fieldsOf type,
      ∃ slot, e.slot? f.name = some slot ∧ slot.Serves f) →
    (m.Honest type → ∀ f ∈ m.catalog.fieldsOf type, ∀ target slot, f.target = some target →
      e.slot? f.name = some slot → ∀ made, slot.made? = some made → made = target) →
    (m.Honest type → ∀ f ∈ m.catalog.fieldsOf type, ∀ target slot, f.target = some target →
      e.slot? f.name = some slot → ∀ inner ∈ slot.entities, Fit target inner) →
    Fit type e

/-- Whether the types that a type leads to let a field of a type be unknown: one of them is not
derived, and is the owner of the field or holds other entities than it says. -/
def Misled (type owner : String) : Prop :=
  ∃ foreign, m.catalog.Leads type foreign ∧ ¬ m.Derives foreign ∧
    (foreign = owner ∨ ¬ m.Honest foreign)

variable {m}

theorem Derives.coherent {type : String} (h : m.Derives type) :
    ∃ x, m.catalog.entry? type = some x ∧
      x.metadata.Coherent m.schema (m.schema.blank type) := by
  obtain ⟨x, t, hx, ht, hdecl, hmeta⟩ := h
  refine ⟨x, hx, ?_⟩
  rw [Schema.blank_of_type? ht, hmeta]
  exact hdecl.coherent.withDefaultPolicy m.catalog.settings.embedded

theorem Derives.nodup_slots (hc : m.catalog.Consistent) {type : String} (h : m.Derives type) :
    (Named.names (m.schema.blank type).slots).Nodup := by
  obtain ⟨x, hx, hcoherent⟩ := h.coherent
  rw [hcoherent.names_eq]
  exact hc.fieldsDistinct _ (Catalog.mem_types (Catalog.entry?_mem hx).1)

theorem Derives.exists_slot (hc : m.catalog.Consistent) {type : String} (h : m.Derives type)
    {f : FieldDescriptor} (hf : f ∈ m.catalog.fieldsOf type) :
    ∃ slot, (m.schema.blank type).slot? f.name = some slot ∧ f.Fits m.schema slot := by
  obtain ⟨x, hx, hcoherent⟩ := h.coherent
  obtain ⟨y, hy, hfield⟩ := Catalog.mem_fieldsOf.1 hf
  obtain rfl := Option.some.inj (hx.symm.trans hy)
  exact hcoherent.exists_slot (hc.fieldsDistinct _ (Catalog.mem_types (Catalog.entry?_mem hx).1))
    hfield

theorem Derives.honest (hc : m.catalog.Consistent) {type : String} (h : m.Derives type) :
    m.Honest type := by
  constructor
  · obtain ⟨x, hx, hcoherent⟩ := h.coherent
    exact hcoherent.type.trans (Catalog.entry?_mem hx).2
  · intro f hf target slot htarget hslot
    obtain ⟨other, hother, hfits⟩ := h.exists_slot hc hf
    obtain rfl := Option.some.inj (hother.symm.trans hslot)
    exact hfits.isNew htarget

theorem fit_of_not_honest (hc : m.catalog.Consistent) {type : String} (h : ¬ m.Honest type)
    (e : Entity) : m.Fit type e :=
  .intro (fun hh => absurd hh h) (fun hd => absurd (hd.honest hc) h) (fun hh => absurd hh h)
    (fun hh => absurd hh h)

theorem fit_blank (hc : m.catalog.Consistent) (type : String) :
    m.Fit type (m.schema.blank type) := by
  refine .intro (·.named) (fun hd f hf => ?_) (fun hh f hf target slot ht hs => ?_)
    (fun hh f hf target slot ht hs inner hinner => ?_)
  · obtain ⟨slot, hslot, hfits⟩ := hd.exists_slot hc hf
    exact ⟨slot, hslot, hfits.serves⟩
  · exact (hh.fields f hf target slot ht hs).made
  · have hnew := (hh.fields f hf target slot ht hs).entities inner hinner
    have hless := Slot.sizeOf_lt_of_mem_entities hinner
    have hslot := Entity.sizeOf_slot_lt hs
    rw [hnew] at hless ⊢
    exact fit_blank hc target
termination_by sizeOf (m.schema.blank type)

theorem fit_of_typed (hc : m.catalog.Consistent) {e : Entity} (h : m.schema.Typed e) :
    m.Fit e.type e := by
  refine .intro (fun _ => rfl) (fun hd f hf => ?_) (fun hh f hf target slot ht hs => ?_)
    (fun hh f hf target slot ht hs inner hinner => ?_)
  · obtain ⟨blank, hb, hfits⟩ := hd.exists_slot hc hf
    obtain ⟨slot, hslot, htyped⟩ := h.slots.exists_slot hb
    exact ⟨slot, hslot, htyped.serves hfits.serves⟩
  · obtain ⟨blank, hb, htyped⟩ := h.slots.exists_blank hs
    rw [htyped.made?_eq]
    exact (hh.fields f hf target blank ht hb).made
  · obtain ⟨blank, hb, htyped⟩ := h.slots.exists_blank hs
    have hnew := hh.fields f hf target blank ht hb
    obtain ⟨hinnerTyped, hheld⟩ := htyped.entities hinner
    have hless := Slot.sizeOf_lt_of_mem_entities hinner
    have hslot := Entity.sizeOf_slot_lt hs
    -- Anything is fit as what a type that is not honest stands for, so the type of the inner
    -- entity matters for honest targets only.
    by_cases htarget : m.Honest target
    · have htype : inner.type = target := by
        rcases hheld with ⟨new, hmem, hnewType⟩ | hmade
        · rw [hnewType, hnew.entities new hmem, htarget.named]
        · exact hnew.made _ hmade
      have hfit := fit_of_typed hc hinnerTyped
      rwa [htype] at hfit
    · exact fit_of_not_honest hc htarget inner
termination_by sizeOf e

section Steps

variable {type name : String} {e inner : Entity} {f : FieldDescriptor} {target : String}

theorem Fit.serves (h : m.Fit type e) (hd : m.Derives type)
    (hf : f ∈ m.catalog.fieldsOf type) : ∃ slot, e.slot? f.name = some slot ∧ slot.Serves f := by
  cases h with
  | intro _ hserves _ _ => exact hserves hd f hf

theorem Fit.made (h : m.Fit type e) (hh : m.Honest type) (hf : f ∈ m.catalog.fieldsOf type)
    (ht : f.target = some target) {slot : Slot} (hs : e.slot? f.name = some slot) {made : String}
    (hm : slot.made? = some made) : made = target := by
  cases h with
  | intro _ _ hmade _ => exact hmade hh f hf target slot ht hs made hm

theorem Fit.held (h : m.Fit type e) (hh : m.Honest type) (hf : f ∈ m.catalog.fieldsOf type)
    (ht : f.target = some target) {slot : Slot} (hs : e.slot? f.name = some slot)
    (hinner : inner ∈ slot.entities) : m.Fit target inner := by
  cases h with
  | intro _ _ _ hheld => exact hheld hh f hf target slot ht hs inner hinner

theorem Fit.assign (h : m.Fit type e) {old new : Slot} (hold : e.slot? name = some old)
    (hserves : ∀ f, old.Serves f → new.Serves f) (hmade : new.made? = old.made?)
    (hheld : ∀ f ∈ m.catalog.fieldsOf type, f.name = name → ∀ target, f.target = some target →
      ∀ inner ∈ new.entities, m.Fit target inner) :
    m.Fit type (e.assign name new) := by
  have hself : (e.assign name new).slot? name = some new := Entity.slot?_assign_self hold new
  have hother : ∀ other, other ≠ name → (e.assign name new).slot? other = e.slot? other :=
    fun other hne => Entity.slot?_assign_of_ne hne new
  refine .intro (fun hh => ?_) (fun hd f hf => ?_) (fun hh f hf target slot ht hs made hm => ?_)
    (fun hh f hf target slot ht hs inner hinner => ?_)
  · rw [Entity.type_assign]
    cases h with
    | intro htype _ _ _ => exact htype hh
  · obtain ⟨slot, hslot, hs⟩ := h.serves hd hf
    by_cases hname : f.name = name
    · obtain rfl := Option.some.inj (hold.symm.trans (hname ▸ hslot))
      exact ⟨new, hname ▸ hself, hserves f hs⟩
    · exact ⟨slot, (hother _ hname).trans hslot, hs⟩
  · by_cases hname : f.name = name
    · obtain rfl := Option.some.inj (hself.symm.trans (hname ▸ hs))
      exact h.made hh hf ht (hname ▸ hold) (hmade ▸ hm)
    · exact h.made hh hf ht ((hother _ hname).symm.trans hs) hm
  · by_cases hname : f.name = name
    · obtain rfl := Option.some.inj (hself.symm.trans (hname ▸ hs))
      exact hheld f hf hname target ht inner hinner
    · exact h.held hh hf ht ((hother _ hname).symm.trans hs) hinner

end Steps

end Mapping
end RecordMapping
