import RecordMapping.Catalog.Metadata
/-!
Layouts: the attributes that an entity type reads and writes once its flattened fields are
expanded. Every name of a layout occurs once, and no type is flattened into itself.
-/
namespace RecordMapping

inductive LayoutItem where
  /-- A field with an attribute of its own. -/
  | stored (field : FieldDescriptor)
  /-- A flattened field, in whose place the layout of its type stands. -/
  | group (field : FieldDescriptor) (target : EntityMetadata) (items : List LayoutItem)
  /-- A flattened field without a type, which has no attributes to expand to. -/
  | detached (field : FieldDescriptor)

namespace LayoutItem

mutual

def names : LayoutItem → List String
  | .stored f => [f.nativeName]
  | .group _ _ items => allNames items
  | .detached _ => []

def allNames : List LayoutItem → List String
  | [] => []
  | item :: rest => names item ++ allNames rest

end

/-- Expands fields in order. `free` holds the types that no enclosing field has expanded yet, and
`seen` the names that are taken. The error names an attribute that is taken, or a field whose type
is being expanded already. -/
def expand (registered : List EntityMetadata) (free seen : List String) :
    List FieldDescriptor → Except String (List LayoutItem)
  | [] => .ok []
  | f :: rest =>
    if f.isFlattened then
      match f.target.bind fun t => registered.find? (·.type == t) with
      | none => (expand registered free seen rest).map (.detached f :: ·)
      | some m =>
        if h : m.type ∈ free then
          have : (free.erase m.type).length < free.length := by
            rw [List.length_erase_of_mem h]
            have := List.length_pos_of_mem h
            omega
          match expand registered (free.erase m.type) seen m.fields with
          | .error e => .error e
          | .ok items =>
            (expand registered free (seen ++ allNames items) rest).map (.group f m items :: ·)
        else .error f.name
    else if f.nativeName ∈ seen then .error f.nativeName
    else (expand registered free (seen ++ [f.nativeName]) rest).map (.stored f :: ·)
termination_by fields => (free.length, fields.length)

end LayoutItem
end RecordMapping
