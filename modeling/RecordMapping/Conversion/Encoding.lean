import RecordMapping.Catalog.Basic
import RecordMapping.Entity.Basic
/-!
Encoding: the attributes of an entity. Empty fields are left out, flattened fields add the
attributes of their entity to those of its owner, and a subtype ends with its discriminator.
-/
namespace RecordMapping

namespace Entity

theorem sizeOf_slot_lt {e : Entity} {name : String} {s : Slot} (h : e.slot? name = some s) :
    sizeOf s < sizeOf e := by
  cases e with
  | mk type slots hidden =>
    have := List.sizeOf_lt_of_mem (Named.mem_of_lookup h)
    simp only [Entity.slots, Named.mk.sizeOf_spec, Entity.mk.sizeOf_spec] at this ⊢
    omega

theorem sizeOf_lt_of_read_entity {e inner : Entity} {name : String}
    (h : e.read name = .entity inner) : sizeOf inner < sizeOf e := by
  unfold read at h
  split at h
  · next s hs =>
    have := sizeOf_slot_lt hs
    cases s with
    | data t x =>
      simp only [Slot.read, Reading.ofValue] at h
      split at h <;> cases h
    | single i =>
      obtain rfl := Reading.entity.inj h
      simp only [Slot.single.sizeOf_spec] at this
      omega
    | optional t o =>
      cases o with
      | none => cases h
      | some i =>
        obtain rfl := Reading.entity.inj h
        simp only [Slot.optional.sizeOf_spec, Option.some.sizeOf_spec] at this
        omega
    | many t es => cases h
  · cases h

theorem sizeOf_lt_of_read_entities {e : Entity} {es : List Entity} {name : String}
    (h : e.read name = .entities es) : sizeOf es < sizeOf e := by
  unfold read at h
  split at h
  · next s hs =>
    have := sizeOf_slot_lt hs
    cases s with
    | data t x =>
      simp only [Slot.read, Reading.ofValue] at h
      split at h <;> cases h
    | single i => cases h
    | optional t o => cases o <;> cases h
    | many t l =>
      obtain rfl := Reading.entities.inj h
      simp only [Slot.many.sizeOf_spec] at this
      omega
  · cases h

end Entity

namespace Catalog

def discriminator (m : EntityMetadata) : List Attribute :=
  match m.inheritance with
  | some i => [⟨i.discriminator, .text i.value⟩]
  | none => []

mutual

def encode (c : Catalog) (e : Entity) : Except MappingError (List Attribute) :=
  match c.entry? e.type with
  | none => .error (.unknownEntity e.type)
  | some entry =>
    (encodeFields c e entry.metadata.fields).map (· ++ discriminator entry.metadata)
termination_by (sizeOf e, 1, 0)

def encodeFields (c : Catalog) (e : Entity) :
    List FieldDescriptor → Except MappingError (List Attribute)
  | [] => .ok []
  | f :: rest =>
    match h : e.read f.name with
    | .empty => encodeFields c e rest
    | .value v => (encodeFields c e rest).map (⟨f.nativeName, v⟩ :: ·)
    | .entity inner =>
      have := Entity.sizeOf_lt_of_read_entity h
      match encode c inner with
      | .error err => .error err
      | .ok attributes =>
        let own : List Attribute :=
          if f.isFlattened then attributes else [⟨f.nativeName, .record attributes⟩]
        (encodeFields c e rest).map (own ++ ·)
    | .entities es =>
      have := Entity.sizeOf_lt_of_read_entities h
      match encodeItems c es with
      | .error err => .error err
      | .ok items => (encodeFields c e rest).map (⟨f.nativeName, .list items⟩ :: ·)
termination_by fields => (sizeOf e, 0, fields.length)

def encodeItems (c : Catalog) : List Entity → Except MappingError (List Value)
  | [] => .ok []
  | e :: rest =>
    match encode c e with
    | .error err => .error err
    | .ok attributes => (encodeItems c rest).map (.record attributes :: ·)
termination_by es => (sizeOf es, 0, 0)

end

end Catalog
end RecordMapping
