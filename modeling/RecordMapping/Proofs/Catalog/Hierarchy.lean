import RecordMapping.Proofs.Catalog.Consistent
import RecordMapping.Proofs.Lookup
/-!
The hierarchies of an accepted catalog: each lists the subtypes of its root, by their
discriminators.
-/
namespace RecordMapping

open EntityMetadata

theorem CatalogEntry.memberOf?_eq_some_iff {x : CatalogEntry} {root : String}
    {p : Inheritance × CatalogEntry} :
    x.memberOf? root = some p ↔ x.metadata.inheritance = some p.1 ∧ p.1.root = root ∧ x = p.2 := by
  obtain ⟨j, y⟩ := p
  rw [memberOf?]
  cases hi : x.metadata.inheritance with
  | none => simp
  | some i =>
    by_cases hroot : i.root = root
    · simp only [if_pos hroot, Option.some.injEq, Prod.mk.injEq]
      constructor
      · rintro ⟨rfl, rfl⟩
        exact ⟨rfl, hroot, rfl⟩
      · exact fun h => ⟨h.1, h.2.2⟩
    · simp only [if_neg hroot, Option.some.injEq, reduceCtorEq, false_iff]
      rintro ⟨rfl, h, _⟩
      exact hroot h

namespace Catalog

variable {c : Catalog}

theorem mem_members {root : String} {i : Inheritance} {x : CatalogEntry} :
    (i, x) ∈ c.members root ↔ x ∈ c.entries ∧ x.metadata.inheritance = some i ∧ i.root = root := by
  rw [members, List.mem_filterMap]
  constructor
  · rintro ⟨y, hy, h⟩
    obtain ⟨hi, hroot, rfl⟩ := CatalogEntry.memberOf?_eq_some_iff.1 h
    exact ⟨hy, hi, hroot⟩
  · rintro ⟨hx, hi, hroot⟩
    exact ⟨x, hx, CatalogEntry.memberOf?_eq_some_iff.2 ⟨hi, hroot, rfl⟩⟩

theorem hierarchy?_eq_none_iff {root : String} : c.hierarchy? root = none ↔
    ∀ x ∈ c.entries, ∀ i, x.metadata.inheritance = some i → i.root ≠ root := by
  rw [hierarchy?]
  constructor
  · intro h x hx i hi hroot
    have hmem := mem_members.2 ⟨hx, hi, hroot⟩
    split at h
    · next hnil => exact absurd (hnil ▸ hmem) List.not_mem_nil
    · cases h
  · intro h
    split
    · rfl
    · next i x rest hmembers =>
      obtain ⟨hx, hi, hroot⟩ := mem_members.1 (hmembers ▸ List.mem_cons_self : (i, x) ∈ _)
      exact absurd hroot (h x hx i hi)

theorem exists_member {root : String} {h : Hierarchy} (hh : c.hierarchy? root = some h) :
    ∃ x ∈ c.entries, ∃ i, x.metadata.inheritance = some i ∧ i.root = root := by
  by_contra hnone
  rw [hierarchy?_eq_none_iff.2 fun x hx i hi hroot => hnone ⟨x, hx, i, hi, hroot⟩] at hh
  cases hh

theorem Consistent.values_nodup (hc : c.Consistent) (root : String) :
    ((c.members root).map (·.1.value)).Nodup := by
  have hapart : c.entries.Pairwise fun x y => Apart x.metadata y.metadata :=
    List.pairwise_map.1 hc.apart
  refine List.pairwise_map.2 (List.Pairwise.filterMap _ ?_ hapart)
  rintro x y ⟨_, hsiblings, _⟩ p hp q hq
  obtain ⟨hi, hroot, _⟩ := CatalogEntry.memberOf?_eq_some_iff.1 hp
  obtain ⟨hj, hother, _⟩ := CatalogEntry.memberOf?_eq_some_iff.1 hq
  exact (hsiblings p.1 q.1 hi hj (hroot.trans hother.symm)).2

theorem Consistent.exists_hierarchy (hc : c.Consistent) {x : CatalogEntry} (hx : x ∈ c.entries)
    {i : Inheritance} (hi : x.metadata.inheritance = some i) :
    ∃ h, c.hierarchy? i.root = some h ∧ h.discriminator = i.discriminator ∧
      h.subtype? i.value = some x := by
  have hmem : (i, x) ∈ c.members i.root := mem_members.2 ⟨hx, hi, rfl⟩
  have hvalues : (Named.names ((c.members i.root).map fun p => Named.mk p.1.value p.2)).Nodup := by
    simpa [Named.names, Function.comp_def] using hc.values_nodup i.root
  rw [hierarchy?]
  cases hmembers : c.members i.root with
  | nil => simp [hmembers] at hmem
  | cons first rest =>
    obtain ⟨j, y⟩ := first
    obtain ⟨hy, hj, hroot⟩ := mem_members.1 (hmembers ▸ List.mem_cons_self : (j, y) ∈ _)
    refine ⟨_, rfl, discriminator_eq hc.apart (mem_types hy) (mem_types hx) hj hi hroot, ?_⟩
    rw [← hmembers]
    exact Named.lookup_of_mem hvalues (List.mem_map_of_mem hmem)

theorem Consistent.hierarchy?_spec (hc : c.Consistent) {x : CatalogEntry} (hx : x ∈ c.entries)
    {i : Inheritance} (hi : x.metadata.inheritance = some i) :
    ∃ h, c.hierarchy? i.root = some h ∧ h.root = i.root ∧ h.discriminator = i.discriminator ∧
      ∀ value y, h.subtype? value = some y ↔ y ∈ c.entries ∧
        ∃ j, y.metadata.inheritance = some j ∧ j.root = i.root ∧ j.value = value := by
  obtain ⟨h, hh, hdiscriminator, _⟩ := hc.exists_hierarchy hx hi
  have hfound := hh
  rw [hierarchy?] at hfound
  split at hfound
  · cases hfound
  · obtain rfl := Option.some.inj hfound
    refine ⟨_, hh, rfl, hdiscriminator, fun value y => ?_⟩
    constructor
    · intro hvalue
      obtain ⟨⟨j, z⟩, hz, heq⟩ := List.mem_map.1 (Named.mem_of_lookup hvalue)
      obtain ⟨rfl, rfl⟩ := Named.mk.inj heq
      obtain ⟨hentry, hj, hroot⟩ := mem_members.1 hz
      exact ⟨hentry, j, hj, hroot, rfl⟩
    · rintro ⟨hy, j, hj, hroot, rfl⟩
      obtain ⟨h', hh', _, hvalue⟩ := hc.exists_hierarchy hy hj
      rw [hroot] at hh'
      rw [Option.some.inj (hh.symm.trans hh')]
      exact hvalue

end Catalog

end RecordMapping
