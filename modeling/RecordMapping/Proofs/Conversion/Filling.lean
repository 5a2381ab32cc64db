import RecordMapping.Conversion.Decoding
import RecordMapping.Proofs.Entity.Faithful
import RecordMapping.Proofs.Lookup
/-!
How single fields are filled: each kind of field by what the look-ups for it find. The slot that is
filled stands somewhere among the slots of its entity, and the others stay as they are.
-/
namespace RecordMapping

def FieldDescriptor.coerced (f : FieldDescriptor) (v : Value) : Except CoercionError Value :=
  match f.valueKind with
  | some kind => v.coerce kind
  | none => .ok v

namespace FieldDescriptor

variable {f : FieldDescriptor}

def IsValue (f : FieldDescriptor) : Prop :=
  ¬ (f.target.isSome = true ∧ (f.isNested = true ∨ f.kind = .collection))

theorem isValue_of_target (h : f.target = none) : f.IsValue := by
  simp [IsValue, h]

theorem IsValue.not_flattened (hf : f.IsValue) :
    ¬ (f.isFlattened = true ∧ f.target.isSome = true) := by
  rintro ⟨hflat, hsome⟩
  simp only [isFlattened, Bool.and_eq_true] at hflat
  exact hf ⟨hsome, .inl (by simp [isNested, hflat.1])⟩

inductive FilledFrom (f : FieldDescriptor) (attributes : List Attribute) : Prop
  | value : f.IsValue → FilledFrom f attributes
  | absent : Named.lookup f.nativeName attributes = none → FilledFrom f attributes
  | null : ¬ f.IsValue → Named.lookup f.nativeName attributes = some .null →
    FilledFrom f attributes
  | nested {target : String} {v : Value} : f.isNested = true → f.target = some target →
    Named.lookup f.nativeName attributes = some v → v ≠ .null → FilledFrom f attributes
  | collection {target : String} {v : Value} : f.kind = .collection → f.target = some target →
    Named.lookup f.nativeName attributes = some v → v ≠ .null → FilledFrom f attributes

theorem filledFrom (f : FieldDescriptor) (attributes : List Attribute) :
    f.FilledFrom attributes := by
  by_cases hvalue : f.IsValue
  · exact .value hvalue
  · obtain ⟨hsome, hk⟩ := not_not.1 hvalue
    obtain ⟨target, ht⟩ := Option.isSome_iff_exists.1 hsome
    cases hv : Named.lookup f.nativeName attributes with
    | none => exact .absent hv
    | some v =>
      by_cases hnull : v = .null
      · exact .null hvalue (hnull ▸ hv)
      · rcases hk with hn | hk
        · exact .nested hn ht hv hnull
        · exact .collection hk ht hv hnull

end FieldDescriptor

namespace Entity

section Plain

variable {e filled : Entity} {name owner : String}

theorem write_eq_ok_iff {v : Value} : e.write name v = .ok filled ↔
    ∃ (t : DataType) (x y : t.Carrier), e.slot? name = some (.data t y) ∧
      t.ofValue? v = some x ∧ filled = e.assign name (.data t x) := by
  constructor
  · intro h
    rw [write] at h
    split at h
    case h_1 t y hs =>
      split at h
      case h_1 x hx => exact ⟨t, x, y, hs, hx, (Except.ok.inj h).symm⟩
      case h_2 => cases h
    case h_2 => cases h
  · rintro ⟨t, x, y, hs, hx, rfl⟩
    simp only [write, hs, hx]

theorem fillPlain_eq (f : FieldDescriptor) (attributes : List Attribute) :
    e.fillPlain owner f attributes =
      match Named.lookup f.nativeName attributes with
      | none => .done e
      | some v =>
        match f.coerced v with
        | .error source => .fail e (.coercion owner f.name source)
        | .ok w =>
          match e.write f.name w with
          | .ok filled => .done filled
          | .error error => .fail e error := by
  rw [fillPlain]
  cases Named.lookup f.nativeName attributes with
  | none => rfl
  | some v =>
    simp only [FieldDescriptor.coerced]
    cases f.valueKind with
    | none => rfl
    | some kind =>
      dsimp only
      cases v.coerce kind <;> rfl

theorem fillPlain_eq_done_iff {f : FieldDescriptor} {attributes : List Attribute} :
    e.fillPlain owner f attributes = .done filled ↔
      (Named.lookup f.nativeName attributes = none ∧ filled = e) ∨
      ∃ v w, Named.lookup f.nativeName attributes = some v ∧ f.coerced v = .ok w ∧
        e.write f.name w = .ok filled := by
  rw [fillPlain_eq]
  cases Named.lookup f.nativeName attributes with
  | none => simp [Filling.done, eq_comm]
  | some v =>
    cases hw : f.coerced v with
    | error source => simp [Filling.fail, Filling.done, hw]
    | ok w => cases hwritten : e.write f.name w <;> simp [Filling.fail, Filling.done, hw, hwritten]

end Plain

variable {type name : String} {before after hidden : List (Named Slot)} {slot : Slot}

theorem slot?_middle (h : name ∉ Named.names before) :
    (mk type (before ++ ⟨name, slot⟩ :: after) hidden).slot? name = some slot := by
  rw [slot?, slots, Named.lookup_append_right h, Named.lookup, if_pos rfl]

theorem assign_middle (h : name ∉ Named.names before) (other : Slot) :
    (mk type (before ++ ⟨name, slot⟩ :: after) hidden).assign name other =
      mk type (before ++ ⟨name, other⟩ :: after) hidden := by
  rw [assign, slots, Named.assign_append h]
  rfl

theorem fillPlain_absent {owner : String} {f : FieldDescriptor} {attributes : List Attribute}
    (h : Named.lookup f.nativeName attributes = none) (e : Entity) :
    e.fillPlain owner f attributes = .done e := by
  rw [fillPlain, h]

theorem fillPlain_written {owner : String} {f : FieldDescriptor} {attributes : List Attribute}
    {t : DataType} {x y : t.Carrier} (hx : (t.toValue x).isNull = false)
    (hkind : f.valueKind = t.valueKind)
    (hname : f.name ∉ Named.names before)
    (h : Named.lookup f.nativeName attributes = some (t.toValue x)) :
    (mk type (before ++ ⟨f.name, .data t y⟩ :: after) hidden).fillPlain owner f attributes =
      .done (mk type (before ++ ⟨f.name, .data t (t.reread x)⟩ :: after) hidden) := by
  have hwrite : (mk type (before ++ ⟨f.name, .data t y⟩ :: after) hidden).write f.name
      (t.toValue x) = .ok (mk type (before ++ ⟨f.name, .data t (t.reread x)⟩ :: after) hidden) := by
    rw [write, slot?_middle hname]
    simp only [DataType.ofValue?_toValue_reread hx, assign_middle hname]
  rw [fillPlain, h]
  cases hk : f.valueKind with
  | none => simp [Except.bind, hwrite]
  | some kind =>
    rw [hk] at hkind
    simp [DataType.coerce_toValue hkind.symm x, Except.mapError, Except.bind, hwrite]

variable {blank : String → Entity} {owner : String} {fill : Entity → Filling}

theorem fillNested_single {inner filled : Entity} (hname : name ∉ Named.names before)
    (h : fill inner = .done filled) :
    (mk type (before ++ ⟨name, .single inner⟩ :: after) hidden).fillNested blank owner name fill =
      .done (mk type (before ++ ⟨name, .single filled⟩ :: after) hidden) := by
  rw [fillNested, nested?, slot?_middle hname]
  simp only [h]
  rw [putNested, slot?_middle hname]
  simp only [Filling.done, assign_middle hname]

theorem fillNested_missing {target : String} {filled : Entity} (hname : name ∉ Named.names before)
    (h : fill (blank target) = .done filled) :
    (mk type (before ++ ⟨name, .optional target none⟩ :: after) hidden).fillNested blank owner name
        fill =
      .done (mk type (before ++ ⟨name, .optional target (some filled)⟩ :: after) hidden) := by
  rw [fillNested, nested?, slot?_middle hname]
  simp only [h]
  rw [putNested, slot?_middle hname]
  simp only [Filling.done, assign_middle hname]

theorem fillElement_many {target : String} {es : List Entity} {filled : Entity}
    (hname : name ∉ Named.names before) (h : fill (blank target) = .done filled) :
    (mk type (before ++ ⟨name, .many target es⟩ :: after) hidden).fillElement blank owner name
        fill =
      .done (mk type (before ++ ⟨name, .many target (es ++ [filled])⟩ :: after) hidden) := by
  rw [fillElement, element?, slot?_middle hname]
  simp only [h]
  rw [append, slot?_middle hname]
  simp only [Filling.done, assign_middle hname]

end Entity

namespace Catalog

variable {c : Catalog} {blank : String → Entity} {owner : String} {attributes : List Attribute}
  {f : FieldDescriptor} {e : Entity}

theorem fill_nil : c.fill blank owner attributes [] e = .done e := by
  rw [fill]

theorem fill_cons {item : LayoutItem} {rest : List LayoutItem} {filled : Entity}
    (h : c.fillItem blank owner attributes item e = .done filled) :
    c.fill blank owner attributes (item :: rest) e = c.fill blank owner attributes rest filled := by
  rw [fill, h]
  rfl

theorem fillItem_group {target : EntityMetadata} {items : List LayoutItem}
    (h : (LayoutItem.allNames items).any (isPresent attributes) = true) :
    c.fillItem blank owner attributes (.group f target items) e =
      e.fillNested blank owner f.name (c.fill blank target.type attributes items) := by
  rw [fillItem, if_pos h]

theorem fillItem_group_absent {target : EntityMetadata} {items : List LayoutItem}
    (h : (LayoutItem.allNames items).any (isPresent attributes) = false) :
    c.fillItem blank owner attributes (.group f target items) e = .done e := by
  rw [fillItem, if_neg (by simp [h])]

theorem fillItem_value (hf : f.IsValue) :
    c.fillItem blank owner attributes (.stored f) e = e.fillPlain owner f attributes := by
  rw [fillItem]
  cases hkind : f.kind <;> cases ht : f.target <;>
    simp_all [FieldDescriptor.IsValue, FieldDescriptor.isNested]

theorem fillItem_absent (h : Named.lookup f.nativeName attributes = none) :
    c.fillItem blank owner attributes (.stored f) e = .done e := by
  rw [fillItem]
  split
  · split
    · rfl
    · rfl
    · next hv => simp [h] at hv
  · split
    · rfl
    · rfl
    · next hv => simp [h] at hv
  · split
    · rfl
    · rfl
    · next hv => simp [h] at hv
  · exact Entity.fillPlain_absent h e

theorem fillItem_null (hf : ¬ f.IsValue)
    (h : Named.lookup f.nativeName attributes = some .null) :
    c.fillItem blank owner attributes (.stored f) e = .done e := by
  obtain ⟨hsome, hk⟩ := not_not.1 hf
  obtain ⟨target, ht⟩ := Option.isSome_iff_exists.1 hsome
  simp only [FieldDescriptor.isNested, Bool.or_eq_true, beq_iff_eq] at hk
  rcases hk with (hk | hk) | hk
  all_goals
    rw [fillItem, hk, ht]
    simp only
    split
    · rfl
    · rfl
    · next hv hw => exact absurd (Option.some.inj (hw.symm.trans h)) hv

theorem fillItem_of_isNested {target : String} {v : Value} (hn : f.isNested = true)
    (ht : f.target = some target) (h : Named.lookup f.nativeName attributes = some v)
    (hv : v ≠ .null) :
    c.fillItem blank owner attributes (.stored f) e =
      match c.entry? target, v with
      | none, _ => .fail e (.unknownEntity (owner ++ "::" ++ f.name))
      | some entry, .record inner =>
        e.fillNested blank owner f.name (c.fill blank entry.metadata.type inner entry.items)
      | some _, _ => .fail e (.unexpectedValue owner f.name .record) := by
  simp only [FieldDescriptor.isNested, Bool.or_eq_true, beq_iff_eq] at hn
  rcases hn with hk | hk
  all_goals
    rw [fillItem, hk, ht]
    simp only
    split
    · next hw => simp [h] at hw
    · next hw => exact absurd (Option.some.inj (h.symm.trans hw)) hv
    · next w _ hw =>
      obtain rfl := Option.some.inj (h.symm.trans hw)
      cases c.entry? target with
      | none => rfl
      | some entry => cases v <;> rfl

theorem fillItem_of_collection {target : String} {v : Value} (hk : f.kind = .collection)
    (ht : f.target = some target) (h : Named.lookup f.nativeName attributes = some v)
    (hv : v ≠ .null) :
    c.fillItem blank owner attributes (.stored f) e =
      match c.entry? target, v with
      | none, _ => .fail e (.unknownEntity (owner ++ "::" ++ f.name))
      | some entry, .list values => c.fillElements blank owner f.name entry values e
      | some _, _ => .fail e (.unexpectedValue owner f.name .list) := by
  rw [fillItem, hk, ht]
  simp only
  split
  · next hw => simp [h] at hw
  · next hw => exact absurd (Option.some.inj (h.symm.trans hw)) hv
  · next w _ hw =>
    obtain rfl := Option.some.inj (h.symm.trans hw)
    cases c.entry? target with
    | none => rfl
    | some entry => cases v <;> rfl

theorem fillItem_nested {target : String} {entry : CatalogEntry} {inner : List Attribute}
    (hn : f.isNested = true) (ht : f.target = some target) (hx : c.entry? target = some entry)
    (h : Named.lookup f.nativeName attributes = some (.record inner)) :
    c.fillItem blank owner attributes (.stored f) e =
      e.fillNested blank owner f.name (c.fill blank entry.metadata.type inner entry.items) := by
  rw [fillItem_of_isNested hn ht h Value.noConfusion, hx]

theorem fillItem_many {target : String} {entry : CatalogEntry} {values : List Value}
    (hk : f.kind = .collection) (ht : f.target = some target) (hx : c.entry? target = some entry)
    (h : Named.lookup f.nativeName attributes = some (.list values)) :
    c.fillItem blank owner attributes (.stored f) e =
      c.fillElements blank owner f.name entry values e := by
  rw [fillItem_of_collection hk ht h Value.noConfusion, hx]

end Catalog
end RecordMapping
