import RecordMapping.Entity.DataType
import RecordMapping.Conversion.Error
/-!
Entities: typed objects whose fields are reached by name. A field holds plain data, one entity, an
optional entity or any number of entities; hidden fields belong to the object but not to the
mapping.
-/
namespace RecordMapping

mutual

inductive Slot where
  | data (type : DataType) (content : type.Carrier)
  | single (entity : Entity)
  | optional (target : String) (entity : Option Entity)
  | many (target : String) (entities : List Entity)

inductive Entity where
  | mk (type : String) (slots : List (Named Slot)) (hidden : List (Named Slot))

end

inductive Reading where
  | empty
  | value (v : Value)
  | entity (e : Entity)
  | entities (es : List Entity)

namespace Entity

def type : Entity → String
  | mk type _ _ => type

def slots : Entity → List (Named Slot)
  | mk _ slots _ => slots

def hidden : Entity → List (Named Slot)
  | mk _ _ hidden => hidden

def withSlots : Entity → List (Named Slot) → Entity
  | mk type _ hidden, slots => mk type slots hidden

def slot? (e : Entity) (name : String) : Option Slot :=
  Named.lookup name e.slots

def assign (e : Entity) (name : String) (slot : Slot) : Entity :=
  e.withSlots (Named.assign name slot e.slots)

end Entity

def Reading.ofValue (v : Value) : Reading :=
  if v.isNull then .empty else .value v

def Slot.read : Slot → Reading
  | .data t x => Reading.ofValue (t.toValue x)
  | .single e => .entity e
  | .optional _ none => .empty
  | .optional _ (some e) => .entity e
  | .many _ es => .entities es

namespace Entity

def read (e : Entity) (name : String) : Reading :=
  match e.slot? name with
  | some s => s.read
  | none => .empty

def write (e : Entity) (name : String) (v : Value) : Except MappingError Entity :=
  match e.slot? name with
  | some (.data t _) =>
    match t.ofValue? v with
    | some x => .ok (e.assign name (.data t x))
    | none => .error (.fieldType e.type name v.describe)
  | _ => .error (.unknownField e.type name)

/-- The entity behind a field; an empty optional field has a blank one. -/
def nested? (blank : String → Entity) (e : Entity) (name : String) : Option Entity :=
  match e.slot? name with
  | some (.single inner) => some inner
  | some (.optional _ (some inner)) => some inner
  | some (.optional target none) => some (blank target)
  | _ => none

def putNested (e : Entity) (name : String) (inner : Entity) : Entity :=
  match e.slot? name with
  | some (.single _) => e.assign name (.single inner)
  | some (.optional target _) => e.assign name (.optional target (some inner))
  | _ => e

def element? (blank : String → Entity) (e : Entity) (name : String) : Option Entity :=
  match e.slot? name with
  | some (.many target _) => some (blank target)
  | _ => none

def append (e : Entity) (name : String) (inner : Entity) : Entity :=
  match e.slot? name with
  | some (.many target es) => e.assign name (.many target (es ++ [inner]))
  | _ => e

end Entity
end RecordMapping
