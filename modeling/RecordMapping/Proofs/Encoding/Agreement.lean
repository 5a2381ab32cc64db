import RecordMapping.Conversion.Basic
import RecordMapping.Proofs.Catalog.Consistent
import RecordMapping.Proofs.Lookup
/-!
Entities that hold what their metadata declares. Each of them is encoded, field by field, and no
attribute is ever `null`.
-/
namespace RecordMapping

theorem Entity.isNull_of_read_value {e : Entity} {name : String} {v : Value}
    (h : e.read name = .value v) : v.isNull = false := by
  unfold Entity.read at h
  split at h
  · next s _ =>
    cases s with
    | data t x =>
      simp only [Slot.read, Reading.ofValue] at h
      split at h
      · cases h
      · next hv => simpa [← Reading.value.inj h] using hv
    | single i => cases h
    | optional t o => cases o <;> cases h
    | many t es => cases h
  · cases h

namespace Catalog

variable {c : Catalog}

def part (c : Catalog) (f : FieldDescriptor) : Reading → Except MappingError (List Attribute)
  | .empty => .ok []
  | .value v => .ok [⟨f.nativeName, v⟩]
  | .entity inner => (c.encode inner).map fun attributes =>
    if f.isFlattened then attributes else [⟨f.nativeName, .record attributes⟩]
  | .entities es => (c.encodeItems es).map fun items => [⟨f.nativeName, .list items⟩]

theorem encodeFields_nil (e : Entity) : c.encodeFields e [] = .ok [] := by
  rw [encodeFields]

theorem encodeFields_cons (e : Entity) (f : FieldDescriptor) (rest : List FieldDescriptor) :
    c.encodeFields e (f :: rest) = (c.part f (e.read f.name)).bind fun own =>
      (c.encodeFields e rest).map (own ++ ·) := by
  rw [encodeFields]
  split
  · next h =>
    cases hr : c.encodeFields e rest <;> simp [h, part, Except.bind, Except.map]
  · next v h => simp [h, part, Except.bind]
  · next inner h =>
    cases hi : c.encode inner <;> simp [h, hi, part, Except.bind, Except.map]
  · next es h =>
    cases hi : c.encodeItems es <;> simp [h, hi, part, Except.bind, Except.map]

theorem encodeFields_cons_ok {e : Entity} {f : FieldDescriptor} {rest : List FieldDescriptor}
    {attributes : List Attribute} (h : c.encodeFields e (f :: rest) = .ok attributes) :
    ∃ own others, c.part f (e.read f.name) = .ok own ∧ c.encodeFields e rest = .ok others ∧
      attributes = own ++ others := by
  rw [encodeFields_cons] at h
  cases hp : c.part f (e.read f.name) with
  | error err => simp [hp, Except.bind] at h
  | ok own =>
    cases hr : c.encodeFields e rest with
    | error err => simp [hp, hr, Except.bind, Except.map] at h
    | ok others =>
      simp only [hp, hr, Except.bind, Except.map] at h
      exact ⟨own, others, rfl, rfl, (Except.ok.inj h).symm⟩

theorem encode_eq {e : Entity} {x : CatalogEntry} (h : c.entry? e.type = some x) :
    c.encode e = (c.encodeFields e x.metadata.fields).map (· ++ discriminator x.metadata) := by
  rw [encode, h]

theorem encode_ok {e : Entity} {x : CatalogEntry} (h : c.entry? e.type = some x)
    {attributes : List Attribute} (he : c.encode e = .ok attributes) :
    ∃ own, c.encodeFields e x.metadata.fields = .ok own ∧
      attributes = own ++ discriminator x.metadata := by
  rw [encode_eq h] at he
  cases hf : c.encodeFields e x.metadata.fields with
  | error err => simp [hf, Except.map] at he
  | ok own =>
    rw [hf] at he
    exact ⟨own, rfl, (Except.ok.inj he).symm⟩

mutual

/-- An entity of a registered type whose fields hold what its metadata declares. -/
inductive Agrees (c : Catalog) : Entity → Prop
  | intro {e : Entity} {x : CatalogEntry} : c.entry? e.type = some x →
    (∀ f ∈ x.metadata.fields, Suits c f (e.read f.name)) → Agrees c e

/-- A reading that a field may give. Nested entities are of the type that the field points at. -/
inductive Suits (c : Catalog) : FieldDescriptor → Reading → Prop
  | empty {f : FieldDescriptor} : Suits c f .empty
  | value {f : FieldDescriptor} {v : Value} : f.target = none → Suits c f (.value v)
  | entity {f : FieldDescriptor} {inner : Entity} : f.kind ≠ .collection →
    f.target = some inner.type → Agrees c inner → Suits c f (.entity inner)
  | entities {f : FieldDescriptor} {t : String} {es : List Entity} : f.kind = .collection →
    f.target = some t → (∀ e ∈ es, e.type = t) → (∀ e ∈ es, Agrees c e) →
    Suits c f (.entities es)

end

theorem Agrees.registered {e : Entity} (h : c.Agrees e) : ∃ x, c.entry? e.type = some x := by
  cases h with
  | intro hx _ => exact ⟨_, hx⟩

theorem Agrees.suits {e : Entity} (h : c.Agrees e) {x : CatalogEntry}
    (hx : c.entry? e.type = some x) : ∀ f ∈ x.metadata.fields, c.Suits f (e.read f.name) := by
  cases h with
  | intro hy hs =>
    rw [hx] at hy
    exact Option.some.inj hy ▸ hs

theorem encodeFields_exists {e : Entity} {fields : List FieldDescriptor}
    (h : ∀ f ∈ fields, ∃ own, c.part f (e.read f.name) = .ok own) :
    ∃ attributes, c.encodeFields e fields = .ok attributes := by
  induction fields with
  | nil => exact ⟨[], encodeFields_nil e⟩
  | cons f rest ih =>
    obtain ⟨own, hown⟩ := h f List.mem_cons_self
    obtain ⟨others, hothers⟩ := ih fun g hg => h g (List.mem_cons_of_mem f hg)
    exact ⟨own ++ others, by simp [encodeFields_cons, hown, hothers, Except.bind, Except.map]⟩

theorem encodeItems_exists {es : List Entity}
    (h : ∀ e ∈ es, ∃ attributes, c.encode e = .ok attributes) :
    ∃ items, c.encodeItems es = .ok items := by
  induction es with
  | nil => exact ⟨[], by rw [encodeItems]⟩
  | cons e rest ih =>
    obtain ⟨attributes, ha⟩ := h e List.mem_cons_self
    obtain ⟨items, hi⟩ := ih fun e' he => h e' (List.mem_cons_of_mem e he)
    exact ⟨.record attributes :: items, by simp [encodeItems, ha, hi, Except.map]⟩

mutual

theorem Agrees.encodes {e : Entity} : c.Agrees e → ∃ attributes, c.encode e = .ok attributes
  | .intro hx hs => by
    obtain ⟨own, hown⟩ := encodeFields_exists fun f hf => (hs f hf).hasPart
    exact ⟨_, by rw [encode_eq hx, hown]; rfl⟩

theorem Suits.hasPart {f : FieldDescriptor} {r : Reading} : c.Suits f r →
    ∃ own, c.part f r = .ok own
  | .empty => ⟨[], rfl⟩
  | .value _ => ⟨_, rfl⟩
  | .entity _ _ hi => by
    obtain ⟨attributes, ha⟩ := hi.encodes
    exact ⟨_, by rw [part, ha]; rfl⟩
  | .entities _ _ _ hes => by
    obtain ⟨items, hitems⟩ := encodeItems_exists fun e he => (hes e he).encodes
    exact ⟨_, by rw [part, hitems]; rfl⟩

end

end Catalog

theorem Mapping.toRecord_eq_ok_iff {m : Mapping} {e : Entity} {r : Record} :
    m.toRecord e = .ok r ↔ ∃ x, m.catalog.entry? e.type = some x ∧
      m.catalog.encode e = .ok r.attributes ∧ r.name = x.metadata.collection := by
  cases hx : m.catalog.entry? e.type with
  | none => simp [toRecord, entry, hx, bind, Except.bind]
  | some x =>
    cases he : m.catalog.encode e with
    | error err => simp [toRecord, entry, hx, he, bind, Except.bind]
    | ok attributes =>
      cases r with
      | mk name given =>
        simp [toRecord, entry, hx, he, bind, Except.bind, pure, Except.pure, eq_comm, and_comm]

end RecordMapping
