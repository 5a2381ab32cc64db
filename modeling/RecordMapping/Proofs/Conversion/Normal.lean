import RecordMapping.Proofs.Encoding.Plain
import RecordMapping.Proofs.Entity.Faithful
/-!
Normal forms: what is left of an entity in its record. Hidden fields are blank again, NaNs are
quiet, and an optional flattened entity that adds no attribute is missing.
-/
namespace RecordMapping

namespace Mapping

variable (m : Mapping)

def flattens (type field : String) : Bool :=
  match m.catalog.entry? type with
  | some x => x.metadata.fields.any fun f => f.name == field && f.isFlattened
  | none => false

def isSilent (e : Entity) : Bool :=
  match m.catalog.encode e with
  | .ok [] => true
  | _ => false

mutual

def normal : Entity → Entity
  | .mk type slots _ => .mk type (normalSlots type slots) (m.schema.blank type).hidden

def normalSlots (type : String) : List (Named Slot) → List (Named Slot)
  | [] => []
  | ⟨name, slot⟩ :: rest => ⟨name, normalSlot (m.flattens type name) slot⟩ :: normalSlots type rest

def normalSlot (flattened : Bool) : Slot → Slot
  | .data t x => .data t (t.quiet x)
  | .single e => .single (normal e)
  | .optional target none => .optional target none
  | .optional target (some e) =>
    .optional target (if flattened && m.isSilent e then none else some (normal e))
  | .many target es => .many target (normalAll es)

def normalAll : List Entity → List Entity
  | [] => []
  | e :: rest => normal e :: normalAll rest

end

variable {m}

theorem isSilent_iff {e : Entity} {attributes : List Attribute}
    (h : m.catalog.encode e = .ok attributes) : m.isSilent e = true ↔ attributes = [] := by
  rw [isSilent, h]
  cases attributes <;> simp

theorem Sound.flattens_eq (hm : m.Sound) {x : CatalogEntry} (hx : x ∈ m.catalog.entries)
    {f : FieldDescriptor} (hf : f ∈ x.metadata.fields) :
    m.flattens x.metadata.type f.name = f.isFlattened := by
  rw [flattens, hm.consistent.entry?_type hx]
  have hdistinct := hm.consistent.fieldsDistinct _ (Catalog.mem_types hx)
  cases hflat : f.isFlattened with
  | true => exact List.any_eq_true.2 ⟨f, hf, by simp [hflat]⟩
  | false =>
    refine List.any_eq_false.2 fun g hg => ?_
    simp only [Bool.and_eq_true, beq_iff_eq, not_and]
    intro hname
    rw [List.inj_on_of_nodup_map hdistinct hg hf hname, hflat]
    exact Bool.false_ne_true

end Mapping

def Slot.target? : Slot → Option String
  | .data _ _ => none
  | .single e => some e.type
  | .optional target _ => some target
  | .many target _ => some target

namespace Schema

/-- Whether entities of one type may hold entities of another, at any depth; each holds itself. -/
inductive Holds (s : Schema) : String → String → Prop
  | self {type : String} : Holds s type type
  | field {type target inner : String} {t : EntityType} {slot : Named Slot} :
    s.type? type = some t → slot ∈ t.blank.slots → slot.value.target? = some target →
    Holds s target inner → Holds s type inner

/-- Whether all plain fields are of faithful types, those of nested entities included. -/
def Faithful (s : Schema) (type : String) : Prop :=
  ∀ inner t, s.Holds type inner → s.type? inner = some t → ∀ slot ∈ t.blank.slots,
    ∀ data content, slot.value = .data data content → data.Faithful

variable {s : Schema} {type : String} {t : EntityType} {slot : Named Slot}

theorem blank_of_type? (h : s.type? type = some t) : s.blank type = t.blank := by
  rw [blank, h]

theorem Faithful.data (h : s.Faithful type) (ht : s.type? type = some t)
    (hslot : slot ∈ t.blank.slots) {data : DataType} {content : data.Carrier}
    (hdata : slot.value = .data data content) : data.Faithful :=
  h type t .self ht slot hslot data content hdata

theorem Faithful.target (h : s.Faithful type) (ht : s.type? type = some t)
    (hslot : slot ∈ t.blank.slots) {target : String} (htarget : slot.value.target? = some target) :
    s.Faithful target :=
  fun inner u hinner hu => h inner u (.field ht hslot htarget hinner) hu

end Schema
end RecordMapping
