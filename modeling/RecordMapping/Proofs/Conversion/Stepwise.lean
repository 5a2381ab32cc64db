import RecordMapping.Proofs.Catalog.Consistent
import RecordMapping.Proofs.Conversion.Filling
/-!
What every filling preserves. A property of an entity and its filling holds throughout if it holds
of each step that a filling is made of: writing a plain field, entering a nested one, and appending
an element.
-/
namespace RecordMapping

theorem Entity.fillPlain_cases (owner : String) (f : FieldDescriptor) (attributes : List Attribute)
    (e : Entity) : e.fillPlain owner f attributes = .done e ∨
      (∃ v filled, e.write f.name v = .ok filled ∧
        e.fillPlain owner f attributes = .done filled) ∨
      (∃ v error, e.write f.name v = .error error ∧
        e.fillPlain owner f attributes = .fail e error) ∨
      ∃ source, e.fillPlain owner f attributes = .fail e (.coercion owner f.name source) := by
  rw [fillPlain_eq]
  cases Named.lookup f.nativeName attributes with
  | none => exact .inl rfl
  | some v =>
    cases hv : f.coerced v with
    | error source => exact .inr (.inr (.inr ⟨source, by simp [hv]⟩))
    | ok w =>
      cases hw : e.write f.name w with
      | error error => exact .inr (.inr (.inl ⟨w, error, hw, by simp [hv, hw]⟩))
      | ok filled => exact .inr (.inl ⟨w, filled, hw, by simp [hv, hw]⟩)

def Entity.fillPart (owner field : String) (e : Entity) (inner? : Option Entity)
    (put : Entity → Entity) (fill : Entity → Filling) : Filling :=
  match inner? with
  | none => .fail e (.unknownField owner field)
  | some inner => ⟨put (fill inner).entity, (fill inner).error?⟩

theorem Entity.fillNested_eq (blank : String → Entity) (owner field : String) (e : Entity)
    (fill : Entity → Filling) : e.fillNested blank owner field fill =
      e.fillPart owner field (e.nested? blank field) (e.putNested field) fill := by
  rw [fillNested]
  cases e.nested? blank field <;> rfl

theorem Entity.fillElement_eq (blank : String → Entity) (owner field : String) (e : Entity)
    (fill : Entity → Filling) : e.fillElement blank owner field fill =
      e.fillPart owner field (e.element? blank field) (e.append field) fill := by
  rw [fillElement]
  cases e.element? blank field <;> rfl

namespace Catalog

open LayoutItem

structure Stepwise (c : Catalog) (blank : String → Entity)
    (P : String → (Entity → Filling) → Prop) : Prop where
  done : ∀ {type : String}, P type .done
  refuse : ∀ {type : String} (owner field : String) (expected : ValueKind),
    P type (.fail · (.unexpectedValue owner field expected))
  andThen : ∀ {type : String} {first next : Entity → Filling},
    P type first → P type next → P type fun e => (first e).andThen next
  plain : ∀ {m : EntityMetadata} {f : FieldDescriptor} (attributes : List Attribute),
    m ∈ c.types → f ∈ m.fields →
    ¬ (f.target.isSome = true ∧ (f.isNested = true ∨ f.kind = .collection)) →
    P m.type (Entity.fillPlain m.type f attributes)
  nested : ∀ {m : EntityMetadata} {f : FieldDescriptor} {target : String}
    {fill : Entity → Filling}, m ∈ c.types → f ∈ m.fields → f.isNested = true →
    f.target = some target → P target fill →
    P m.type fun e => e.fillNested blank m.type f.name fill
  element : ∀ {m : EntityMetadata} {f : FieldDescriptor} {target : String}
    {fill : Entity → Filling}, m ∈ c.types → f ∈ m.fields → f.kind = .collection →
    f.target = some target → P target fill →
    P m.type fun e => e.fillElement blank m.type f.name fill

namespace Stepwise

variable {c : Catalog} {blank : String → Entity} {P : String → (Entity → Filling) → Prop}

theorem target_of_detached (hc : c.Consistent) {m : EntityMetadata} (hm : m ∈ c.types)
    {f : FieldDescriptor} (hf : f ∈ m.fields)
    (h : (f.target.bind fun t => c.types.find? (·.type == t)) = none) : f.target = none := by
  cases ht : f.target with
  | none => rfl
  | some t =>
    obtain ⟨x, hx⟩ := hc.target hm hf ht
    rw [ht, Option.bind_some, find?_types_iff.2 ⟨x, hx, rfl⟩] at h
    cases h

theorem of_eq {type : String} {fill other : Entity → Filling} (h : P type fill)
    (heq : ∀ e, other e = fill e) : P type other := by
  rw [funext heq]
  exact h

mutual

theorem fill (hc : c.Consistent) (hP : c.Stepwise blank P) {m : EntityMetadata}
    (hm : m ∈ c.types) (attributes : List Attribute) (items : List LayoutItem)
    {fields : List FieldDescriptor} (hfields : ∀ f ∈ fields, f ∈ m.fields)
    (hd : DescribesAll c.types items fields) :
    P m.type (c.fill blank m.type attributes items) := by
  match items, fields with
  | [], _ => exact of_eq hP.done fun _ => fill_nil
  | _ :: _, [] => exact hd.elim
  | item :: rest, f :: fields =>
    refine of_eq (hP.andThen
      (fillItem hc hP hm attributes item (hfields f List.mem_cons_self) hd.1)
      (fill hc hP hm attributes rest (fun g hg => hfields g (List.mem_cons_of_mem f hg)) hd.2))
      fun e => ?_
    rw [Catalog.fill]
termination_by (sizeOf attributes, sizeOf items)

theorem fillItem (hc : c.Consistent) (hP : c.Stepwise blank P) {m : EntityMetadata}
    (hm : m ∈ c.types) (attributes : List Attribute) (item : LayoutItem) {f : FieldDescriptor}
    (hf : f ∈ m.fields) (hd : item.Describes c.types f) :
    P m.type (c.fillItem blank m.type attributes item) := by
  match item with
  | .group g target items =>
    obtain ⟨hmem, ht⟩ := target_of_group hd
    obtain ⟨rfl, hflat, _, hitems⟩ := hd
    have hnested : g.isNested = true := by
      simp only [FieldDescriptor.isFlattened, Bool.and_eq_true] at hflat
      simp [FieldDescriptor.isNested, hflat.1]
    cases hany : (LayoutItem.allNames items).any (isPresent attributes) with
    | false => exact of_eq hP.done fun _ => fillItem_group_absent hany
    | true =>
      have hinner := fill hc hP hmem attributes items (fun f hf => hf) hitems
      exact of_eq (hP.nested hm hf hnested ht hinner) fun _ => fillItem_group hany
  | .detached g =>
    obtain ⟨rfl, _, htarget⟩ := hd
    have hnone := target_of_detached hc hm hf htarget
    refine of_eq (hP.plain attributes hm hf (by simp [hnone])) fun e => ?_
    rw [Catalog.fillItem]
  | .stored g =>
    obtain ⟨rfl, _⟩ := hd
    cases g.filledFrom attributes with
    | value hvalue =>
      exact of_eq (hP.plain attributes hm hf hvalue) fun _ => fillItem_value hvalue
    | absent hv => exact of_eq hP.done fun _ => fillItem_absent hv
    | null hentity hv => exact of_eq hP.done fun _ => fillItem_null hentity hv
    | @nested target v hn ht hv hnull =>
      -- What is found under the name of the field is smaller than the attributes.
      have hsize := sizeOf_lt_of_lookup hv
      obtain ⟨x, hx⟩ := hc.target hm hf ht
      obtain ⟨hmem, rfl⟩ := entry?_mem hx
      cases v with
      | record inner =>
        have : sizeOf inner < sizeOf attributes := by
          simp only [Value.record.sizeOf_spec] at hsize
          omega
        have hinner := fill hc hP (mem_types hmem) inner x.items (fun f hf => hf)
          (hc.described x hmem)
        exact of_eq (hP.nested hm hf hn ht hinner) fun _ => fillItem_nested hn ht hx hv
      | _ =>
        refine of_eq (hP.refuse m.type g.name .record) fun e => ?_
        rw [fillItem_of_isNested hn ht hv hnull, hx]
    | @collection target v hk ht hv hnull =>
      have hsize := sizeOf_lt_of_lookup hv
      obtain ⟨x, hx⟩ := hc.target hm hf ht
      obtain ⟨hmem, rfl⟩ := entry?_mem hx
      cases v with
      | list values =>
        have : sizeOf values < sizeOf attributes := by
          simp only [Value.list.sizeOf_spec] at hsize
          omega
        exact of_eq (fillElements hc hP hm hf hk ht hmem values)
          fun _ => fillItem_many hk ht hx hv
      | _ =>
        refine of_eq (hP.refuse m.type g.name .list) fun e => ?_
        rw [fillItem_of_collection hk ht hv hnull, hx]
termination_by (sizeOf attributes, sizeOf item)

theorem fillElements (hc : c.Consistent) (hP : c.Stepwise blank P) {m : EntityMetadata}
    (hm : m ∈ c.types) {f : FieldDescriptor} (hf : f ∈ m.fields) (hk : f.kind = .collection)
    {x : CatalogEntry} (ht : f.target = some x.metadata.type) (hx : x ∈ c.entries)
    (values : List Value) : P m.type (c.fillElements blank m.type f.name x values) := by
  match values with
  | [] =>
    refine of_eq hP.done fun e => ?_
    rw [Catalog.fillElements]
  | v :: rest =>
    cases v with
    | record inner =>
      have hinner := fill hc hP (mem_types hx) inner x.items (fun f hf => hf) (hc.described x hx)
      refine of_eq (hP.andThen (hP.element hm hf hk ht hinner)
        (fillElements hc hP hm hf hk ht hx rest)) fun e => ?_
      rw [Catalog.fillElements]
    | _ =>
      refine of_eq (hP.refuse m.type f.name .record) fun e => ?_
      simp only [Catalog.fillElements]
termination_by (sizeOf values, 0)

end

theorem fillBy (hc : c.Consistent) (hP : c.Stepwise blank P) {x : CatalogEntry}
    (hx : x ∈ c.entries) (attributes : List Attribute) :
    P x.metadata.type (c.fillBy blank x attributes) :=
  fill hc hP (mem_types hx) attributes x.items (fun _ hf => hf) (hc.described x hx)

end Stepwise
end Catalog
end RecordMapping
