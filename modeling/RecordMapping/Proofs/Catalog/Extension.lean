import RecordMapping.Proofs.Catalog.Consistent
/-!
Catalogs that know more types than others. Some types of a catalog make a catalog of their own if
none of their fields leads to another type; it is as consistent as the whole one.
-/
namespace RecordMapping

namespace Catalog

def Extends (large small : Catalog) : Prop :=
  ∀ ⦃type : String⦄ ⦃x : CatalogEntry⦄, small.entry? type = some x → large.entry? type = some x

theorem Extends.mem_entries {large small : Catalog} (hext : large.Extends small)
    (hs : small.Consistent) {x : CatalogEntry} (hx : x ∈ small.entries) : x ∈ large.entries :=
  (entry?_mem (hext (hs.entry?_type hx))).1

/-- Whether the fields of one type lead to another one, over any number of types in between. -/
inductive Leads (c : Catalog) (type : String) : String → Prop
  | self : Leads c type type
  | field {m : EntityMetadata} {f : FieldDescriptor} {target : String} : Leads c type m.type →
    m ∈ c.types → f ∈ m.fields → f.target = some target → Leads c type target

section Restrict

variable (c : Catalog) (keep : String → Prop) [DecidablePred keep]

def restrict : Catalog :=
  { c with entries := c.entries.filter fun x => keep x.metadata.type }

def Closed : Prop :=
  ∀ m ∈ c.types, keep m.type → ∀ f ∈ m.fields, ∀ t, f.target = some t → keep t

variable {c keep}

theorem closed_leads (type : String) : c.Closed (c.Leads type) :=
  fun _ hm hleads _ hf _ ht => .field hleads hm hf ht

theorem mem_restrict {x : CatalogEntry} :
    x ∈ (c.restrict keep).entries ↔ x ∈ c.entries ∧ keep x.metadata.type := by
  simp [restrict]

theorem types_restrict : (c.restrict keep).types = c.types.filter fun m => keep m.type := by
  rw [types, types, restrict, List.filter_map]
  rfl

theorem mem_types_restrict {m : EntityMetadata} :
    m ∈ (c.restrict keep).types ↔ m ∈ c.types ∧ keep m.type := by
  simp [types_restrict]

theorem entry?_restrict {type : String} (h : keep type) :
    entry? (c.restrict keep) type = c.entry? type := by
  unfold entry? restrict
  rw [List.find?_filter]
  congr 1
  funext x
  by_cases hx : x.metadata.type = type <;> simp [hx, h]

theorem extends_restrict : c.Extends (c.restrict keep) := by
  intro type x h
  obtain ⟨hmem, htype⟩ := entry?_mem h
  have hkeep := (mem_restrict.1 hmem).2
  rw [htype] at hkeep
  rwa [entry?_restrict hkeep] at h

theorem find?_types_restrict {type : String} (h : keep type) :
    (c.restrict keep).types.find? (·.type == type) = c.types.find? (·.type == type) := by
  rw [types_restrict, List.find?_filter]
  congr 1
  funext m
  by_cases hm : m.type = type <;> simp [hm, h]

theorem carried_restrict (hk : c.Closed keep) : LayoutItem.Carried c.types (c.restrict keep).types
    fun m => m ∈ c.types ∧ keep m.type := by
  constructor
  · rintro m ⟨hm, hkeep⟩ f hf t ht
    exact find?_types_restrict (hk m hm hkeep f hf t ht)
  · rintro m ⟨hm, hkeep⟩ f hf t ht n hn
    have htype : n.type = t := by simpa using List.find?_some hn
    exact ⟨List.mem_of_find?_eq_some hn, htype ▸ hk m hm hkeep f hf t ht⟩

theorem Consistent.restrict (hc : c.Consistent) (hk : c.Closed keep) :
    (c.restrict keep).Consistent := by
  have hsub : ∀ m ∈ (c.restrict keep).types, m ∈ c.types := fun m hm => (mem_types_restrict.1 hm).1
  constructor
  · rw [types_restrict]
    exact hc.apart.filter _
  · exact fun a ha b hb => hc.rootsFree a (hsub a ha) b (hsub b hb)
  · exact fun m hm => hc.fieldsDistinct m (hsub m hm)
  · intro m hm f hf t ht
    obtain ⟨hmem, hkeep⟩ := mem_types_restrict.1 hm
    obtain ⟨x, hx, rfl⟩ := hc.targetsRegistered m hmem f hf t ht
    exact ⟨x, mem_types_restrict.2 ⟨hx, hk m hmem hkeep f hf _ ht⟩, rfl⟩
  · intro x hx
    obtain ⟨hmem, hkeep⟩ := mem_restrict.1 hx
    exact (hc.described x hmem).carry (carried_restrict hk) x.items ⟨mem_types hmem, hkeep⟩
      fun f hf => hf
  · exact fun x hx => hc.namesDistinct x (mem_restrict.1 hx).1

end Restrict

end Catalog
end RecordMapping
