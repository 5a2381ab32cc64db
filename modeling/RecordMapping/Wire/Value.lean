import RecordMapping.Document.Basic
import RecordMapping.Record
/-!
The exchanged form of values and records: every value is the name of its kind with its content.
-/
namespace RecordMapping

def exchange : Dialect where
  isUnit := Document.isNull
  allowsExtra := false

namespace Document

theorem sizeOf_lt_of_lookup {name : String} {d : Document} {entries : List (Named Document)}
    (h : Named.lookup name entries = some d) : sizeOf d < sizeOf entries := by
  have := List.sizeOf_lt_of_mem (Named.mem_of_lookup h)
  simp only [Named.mk.sizeOf_spec] at this
  omega

def bytes? (d : Document) : Option (List UInt8) :=
  d.list?.bind fun items => items.mapM fun item =>
    (item.integerWithin? 0 255).map fun n => UInt8.ofNat n.toNat

mutual

def value? (d : Document) : Option Value :=
  match d with
  | .text "Null" => some .null
  | .table [⟨kind, content⟩] =>
    match kind with
    | "Null" => if content.isNull then some .null else none
    | "Blob" => content.bytes?.map .blob
    | "Bool" => content.bool?.map .bool
    | "Float" => content.number?.map .float
    | "Int" => (content.integerWithin? (-0x8000000000000000) 0x7FFFFFFFFFFFFFFF).bind Value.int?
    | "Uint" => content.count?.map .uint
    | "Text" => content.text?.map .text
    | "List" =>
      match content with
      | .list items => (values? items).map .list
      | _ => none
    | "Record" =>
      match content with
      | .list items => (attributes? items).map .record
      | _ => none
    | _ => none
  | _ => none
termination_by sizeOf d

def values? (ds : List Document) : Option (List Value) :=
  match ds with
  | [] => some []
  | d :: rest =>
    match value? d, values? rest with
    | some v, some vs => some (v :: vs)
    | _, _ => none
termination_by sizeOf ds

def attribute? (d : Document) : Option Attribute :=
  match d with
  | .table entries =>
    match h : Named.lookup "value" entries with
    | some v =>
      have := sizeOf_lt_of_lookup h
      match Named.lookup "name" entries, value? v with
      | some (.text name), some v => some ⟨name, v⟩
      | _, _ => none
    | none => none
  | .list [.text name, v] => (value? v).map (⟨name, ·⟩)
  | _ => none
termination_by sizeOf d

def attributes? (ds : List Document) : Option (List Attribute) :=
  match ds with
  | [] => some []
  | d :: rest =>
    match attribute? d, attributes? rest with
    | some a, some as => some (a :: as)
    | _, _ => none
termination_by sizeOf ds

end

mutual

def ofValue : Value → Document
  | .blob bytes => .table [⟨"Blob", .list (bytes.map fun b => .integer b.toNat)⟩]
  | .bool b => .table [⟨"Bool", .bool b⟩]
  | .float x => .table [⟨"Float", .decimal x⟩]
  | .int n => .table [⟨"Int", .integer n.toInt⟩]
  | .list items => .table [⟨"List", .list (ofValues items)⟩]
  | .null => .text "Null"
  | .record attributes => .table [⟨"Record", .list (ofAttributes attributes)⟩]
  | .text s => .table [⟨"Text", .text s⟩]
  | .uint n => .table [⟨"Uint", .integer n.toNat⟩]

def ofValues : List Value → List Document
  | [] => []
  | v :: rest => ofValue v :: ofValues rest

def ofAttributes : List (Named Value) → List Document
  | [] => []
  | ⟨name, v⟩ :: rest => .table [⟨"name", .text name⟩, ⟨"value", ofValue v⟩] :: ofAttributes rest

end

def ofAttribute (a : Attribute) : Document :=
  .table [⟨"name", .text a.name⟩, ⟨"value", ofValue a.value⟩]

def record? (d : Document) : Option Record :=
  match d.members? exchange ["name", "attributes"] 2 with
  | some [some (.text name), some (.list items)] => (attributes? items).map fun as => ⟨name, as⟩
  | _ => none

def ofRecord (r : Record) : Document :=
  .table [⟨"name", .text r.name⟩, ⟨"attributes", .list (ofAttributes r.attributes)⟩]

def kindNames : List (Named ValueKind) := [
  ⟨"Blob", .blob⟩, ⟨"Bool", .bool⟩, ⟨"Float", .float⟩, ⟨"Int", .int⟩, ⟨"List", .list⟩,
  ⟨"Record", .record⟩, ⟨"Text", .text⟩, ⟨"Uint", .uint⟩]

def valueKind? (d : Document) : Option ValueKind :=
  (d.unitName? exchange).bind fun name => Named.lookup name kindNames

def ofValueKind (kind : ValueKind) : Document :=
  .text (((kindNames.find? (·.value == kind)).map (·.name)).getD "")

end Document
end RecordMapping
