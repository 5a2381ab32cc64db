import RecordMapping.Proofs.Encoding.Agreement
/-!
The names that an entity may write. A layout holds the names that a type reads; a flattened subtype
also writes its discriminator, and a flattened field without a type writes under its own name.
-/
namespace RecordMapping

open Catalog

namespace LayoutItem

mutual

/-- The names that an item may write. -/
def writes : LayoutItem → List String
  | .stored f => [f.nativeName]
  | .group _ m items => allWrites items ++ discriminatorNames m
  | .detached f => [f.nativeName]

def allWrites : List LayoutItem → List String
  | [] => []
  | item :: rest => writes item ++ allWrites rest

end

end LayoutItem

def CatalogEntry.writes (x : CatalogEntry) : List String :=
  LayoutItem.allWrites x.items ++ discriminatorNames x.metadata

namespace Catalog

variable {c : Catalog}

theorem names_discriminator (m : EntityMetadata) :
    Named.names (discriminator m) = discriminatorNames m := by
  rw [discriminator, discriminatorNames]
  cases m.inheritance <;> rfl

theorem part_entity_ok {f : FieldDescriptor} {inner : Entity} {own : List Attribute}
    (h : c.part f (.entity inner) = .ok own) : ∃ attributes, c.encode inner = .ok attributes ∧
      own = if f.isFlattened then attributes else [⟨f.nativeName, .record attributes⟩] := by
  rw [part] at h
  cases hi : c.encode inner with
  | error err => simp [hi, Except.map] at h
  | ok attributes =>
    rw [hi] at h
    exact ⟨attributes, rfl, (Except.ok.inj h).symm⟩

theorem part_entities_ok {f : FieldDescriptor} {es : List Entity} {own : List Attribute}
    (h : c.part f (.entities es) = .ok own) : ∃ items, c.encodeItems es = .ok items ∧
      own = [⟨f.nativeName, .list items⟩] := by
  rw [part] at h
  cases hi : c.encodeItems es with
  | error err => simp [hi, Except.map] at h
  | ok items =>
    rw [hi] at h
    exact ⟨items, rfl, (Except.ok.inj h).symm⟩

theorem part_stored {f : FieldDescriptor} {r : Reading} {own : List Attribute}
    (hf : f.isFlattened = false) (h : c.part f r = .ok own) :
    (r = .empty ∧ own = []) ∨ ∃ v, own = [⟨f.nativeName, v⟩] := by
  cases r with
  | empty => exact .inl ⟨rfl, (Except.ok.inj h).symm⟩
  | value v => exact .inr ⟨v, (Except.ok.inj h).symm⟩
  | entity inner =>
    obtain ⟨attributes, _, rfl⟩ := part_entity_ok h
    exact .inr ⟨.record attributes, by simp [hf]⟩
  | entities es =>
    obtain ⟨items, _, rfl⟩ := part_entities_ok h
    exact .inr ⟨.list items, rfl⟩

theorem kind_of_isFlattened {f : FieldDescriptor} (hf : f.isFlattened = true) :
    f.kind = .embedded := by
  simp only [FieldDescriptor.isFlattened, Bool.and_eq_true, beq_iff_eq] at hf
  exact hf.1

theorem entry_of_group {f : FieldDescriptor} {m : EntityMetadata} {inner : Entity}
    (hm : (f.target.bind fun t => c.types.find? (·.type == t)) = some m)
    (ht : f.target = some inner.type) : ∃ x, c.entry? inner.type = some x ∧ x.metadata = m := by
  rw [ht, Option.bind_some] at hm
  exact find?_types_iff.1 hm

mutual

theorem names_part_sublist {f : FieldDescriptor} {r : Reading} {own : List Attribute}
    (item : LayoutItem) (hd : item.Describes c.types f) (hs : c.Suits f r)
    (h : c.part f r = .ok own) : (Named.names own).Sublist item.writes := by
  match item with
  | .stored g =>
    obtain ⟨rfl, hf⟩ := hd
    rcases part_stored hf h with ⟨_, rfl⟩ | ⟨v, rfl⟩ <;> simp [LayoutItem.writes]
  | .detached g =>
    obtain ⟨rfl, hf, hm⟩ := hd
    cases hs with
    | empty => simp [← Except.ok.inj h]
    | value _ => simp [← Except.ok.inj h, LayoutItem.writes]
    | entity hk ht hi =>
      obtain ⟨x, hx⟩ := hi.registered
      rw [ht, Option.bind_some, find?_types_iff.2 ⟨x, hx, rfl⟩] at hm
      cases hm
    | entities hk => simp [kind_of_isFlattened hf] at hk
  | .group g m items =>
    obtain ⟨rfl, hf, hm, hitems⟩ := hd
    cases hs with
    | empty => simp [← Except.ok.inj h]
    | value ht => simp [ht] at hm
    | entities hk => simp [kind_of_isFlattened hf] at hk
    | entity hk ht hi =>
      obtain ⟨x, hx, rfl⟩ := entry_of_group hm ht
      obtain ⟨attributes, ha, rfl⟩ := part_entity_ok h
      obtain ⟨inside, hinside, rfl⟩ := encode_ok hx ha
      have hsub := names_encodeFields_sublist items hitems (hi.suits hx) hinside
      simpa [hf, LayoutItem.writes, names_discriminator] using hsub

theorem names_encodeFields_sublist {e : Entity} {fields : List FieldDescriptor}
    {attributes : List Attribute} (items : List LayoutItem)
    (hd : LayoutItem.DescribesAll c.types items fields)
    (hs : ∀ f ∈ fields, c.Suits f (e.read f.name)) (h : c.encodeFields e fields = .ok attributes) :
    (Named.names attributes).Sublist (LayoutItem.allWrites items) := by
  match items, fields with
  | [], [] =>
    rw [encodeFields_nil] at h
    simp [← Except.ok.inj h]
  | [], _ :: _ => exact hd.elim
  | _ :: _, [] => exact hd.elim
  | item :: rest, f :: fields =>
    obtain ⟨own, others, hown, hothers, rfl⟩ := encodeFields_cons_ok h
    have hleft := names_part_sublist item hd.1 (hs f List.mem_cons_self) hown
    have hright := names_encodeFields_sublist rest hd.2
      (fun g hg => hs g (List.mem_cons_of_mem f hg)) hothers
    simpa [LayoutItem.allWrites] using hleft.append hright

end

theorem Consistent.names_encode_sublist (hc : c.Consistent) {e : Entity} (he : c.Agrees e)
    {x : CatalogEntry} (hx : c.entry? e.type = some x) {attributes : List Attribute}
    (h : c.encode e = .ok attributes) : (Named.names attributes).Sublist x.writes := by
  obtain ⟨own, hown, rfl⟩ := encode_ok hx h
  have hsub := names_encodeFields_sublist x.items (hc.described x (entry?_mem hx).1)
    (he.suits hx) hown
  simpa [CatalogEntry.writes, names_discriminator] using hsub

theorem isNull_part {f : FieldDescriptor} {e : Entity} {own : List Attribute}
    (hn : ∀ inner attributes, e.read f.name = .entity inner → c.encode inner = .ok attributes →
      ∀ a ∈ attributes, a.value.isNull = false)
    (h : c.part f (e.read f.name) = .ok own) : ∀ a ∈ own, a.value.isNull = false := by
  cases hr : e.read f.name with
  | empty =>
    rw [hr] at h
    simp [← Except.ok.inj h]
  | value v =>
    rw [hr] at h
    simpa [← Except.ok.inj h] using Entity.isNull_of_read_value hr
  | entity inner =>
    rw [hr] at h
    obtain ⟨attributes, ha, rfl⟩ := part_entity_ok h
    split
    · exact hn inner attributes hr ha
    · simp [Value.isNull]
  | entities es =>
    rw [hr] at h
    obtain ⟨items, _, rfl⟩ := part_entities_ok h
    simp [Value.isNull]

theorem isNull_discriminator (m : EntityMetadata) :
    ∀ a ∈ discriminator m, a.value.isNull = false := by
  rw [discriminator]
  cases m.inheritance <;> simp [Value.isNull]

theorem isNull_encodeFields {e : Entity} {fields : List FieldDescriptor}
    {attributes : List Attribute}
    (hn : ∀ name inner attributes, e.read name = .entity inner → c.encode inner = .ok attributes →
      ∀ a ∈ attributes, a.value.isNull = false)
    (h : c.encodeFields e fields = .ok attributes) : ∀ a ∈ attributes, a.value.isNull = false := by
  induction fields generalizing attributes with
  | nil =>
    rw [encodeFields_nil] at h
    simp [← Except.ok.inj h]
  | cons f rest ih =>
    obtain ⟨own, others, hown, hothers, rfl⟩ := encodeFields_cons_ok h
    intro a ha
    rcases List.mem_append.1 ha with ha | ha
    · exact isNull_part (hn f.name) hown a ha
    · exact ih hothers a ha

/-- No attribute that is written is `null`. -/
theorem isNull_encode {e : Entity} {attributes : List Attribute}
    (h : c.encode e = .ok attributes) : ∀ a ∈ attributes, a.value.isNull = false := by
  cases hx : c.entry? e.type with
  | none => simp [encode, hx] at h
  | some x =>
    obtain ⟨own, hown, rfl⟩ := encode_ok hx h
    intro a ha
    rcases List.mem_append.1 ha with ha | ha
    · refine isNull_encodeFields (fun name inner attributes hr hi => ?_) hown a ha
      have := Entity.sizeOf_lt_of_read_entity hr
      exact isNull_encode hi
    · exact isNull_discriminator x.metadata a ha
termination_by sizeOf e

end Catalog
end RecordMapping
