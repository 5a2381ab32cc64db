import RecordMapping.Proofs.Catalog.Extension
import RecordMapping.Proofs.Catalog.Hierarchy
/-!
Registering more types. Whatever else is registered, and in whatever order, a catalog knows the
types that it would know without the others in the same way. A hierarchy only gains subtypes, and a
collection that holds one type goes on to do so.
-/
namespace RecordMapping.Catalog

open EntityMetadata

section Build

variable {settings : Settings} {given others : List EntityMetadata} {small large : Catalog}

theorem carried_of_extends (hsmall : small.Consistent)
    (hfound : ∀ type m, small.types.find? (·.type == type) = some m →
      large.types.find? (·.type == type) = some m) :
    LayoutItem.Carried small.types large.types (· ∈ small.types) := by
  constructor
  · intro m hm f hf t ht
    obtain ⟨x, hx⟩ := hsmall.target hm hf ht
    have hfind := find?_types_iff.2 ⟨x, hx, rfl⟩
    rw [hfind, hfound t _ hfind]
  · exact fun _ _ _ _ _ _ n hn => List.mem_of_find?_eq_some hn

theorem extends_of_build (hsmall : build settings given = .ok small)
    (hlarge : build settings others = .ok large) (hsub : ∀ m ∈ given, m ∈ others) :
    large.Extends small := by
  obtain ⟨_, hgiven, hs⟩ := build_spec hsmall
  obtain ⟨_, hothers, hl⟩ := build_spec hlarge
  have hmem : ∀ m ∈ small.types, m ∈ large.types := by
    rw [hgiven, hothers]
    exact List.forall_mem_map.2 fun m hm => List.mem_map_of_mem (hsub m hm)
  have hentry : ∀ x ∈ small.entries, ∃ y ∈ large.entries, y.metadata = x.metadata :=
    fun x hx => List.mem_map.1 (hmem _ (mem_types hx))
  have hfound : ∀ type m, small.types.find? (·.type == type) = some m →
      large.types.find? (·.type == type) = some m := by
    intro type m hm
    obtain ⟨x, hx, rfl⟩ := find?_types_iff.1 hm
    obtain ⟨hxmem, rfl⟩ := entry?_mem hx
    obtain ⟨y, hy, hmeta⟩ := hentry x hxmem
    exact find?_types_iff.2 ⟨y, hmeta ▸ hl.entry?_type hy, hmeta⟩
  intro type x hx
  obtain ⟨hxmem, rfl⟩ := entry?_mem hx
  obtain ⟨y, hy, hmeta⟩ := hentry x hxmem
  have hitems : y.items = x.items := by
    have hcarried := (hs.described x hxmem).carry (carried_of_extends hs hfound) x.items
      (mem_types hxmem) fun f hf => hf
    exact LayoutItem.DescribesAll.unique x.items hcarried (hmeta ▸ hl.described y hy)
  have hsame : y = x := by
    obtain ⟨_, _⟩ := x
    obtain ⟨_, _⟩ := y
    simp_all
  exact hsame ▸ hl.entry?_type hy

end Build

namespace Extends

variable {large small : Catalog} (hext : large.Extends small) (hs : small.Consistent)
  (hl : large.Consistent)
include hext hs hl

theorem exists_hierarchy {root : String} {h : Hierarchy} (hh : small.hierarchy? root = some h) :
    ∃ h', large.hierarchy? root = some h' ∧ h'.root = h.root ∧
      h'.discriminator = h.discriminator ∧
      ∀ value x, h.subtype? value = some x → h'.subtype? value = some x := by
  obtain ⟨x, hx, i, hi, rfl⟩ := exists_member hh
  obtain ⟨hsame, hsmall, hroot, hdiscriminator, hsubtype⟩ := hs.hierarchy?_spec hx hi
  obtain rfl := Option.some.inj (hh.symm.trans hsmall)
  obtain ⟨h', hh', hroot', hdiscriminator', hsubtype'⟩ :=
    hl.hierarchy?_spec (hext.mem_entries hs hx) hi
  refine ⟨h', hh', hroot'.trans hroot.symm, hdiscriminator'.trans hdiscriminator.symm, ?_⟩
  intro value y hy
  obtain ⟨hmem, hvalue⟩ := (hsubtype value y).1 hy
  exact (hsubtype' value y).2 ⟨hext.mem_entries hs hmem, hvalue⟩

theorem inCollection? {collection : String} {x : CatalogEntry}
    (hx : small.inCollection? collection = some x) :
    large.hierarchy? collection = none ∧ large.inCollection? collection = some x := by
  obtain ⟨hmem, hplain, rfl⟩ := hs.inCollection?_eq_some_iff.1 hx
  have hlarge := hext.mem_entries hs hmem
  refine ⟨hierarchy?_eq_none_iff.2 fun y hy i hi hroot => ?_,
    hl.inCollection?_eq_some_iff.2 ⟨hlarge, hplain, rfl⟩⟩
  exact hl.rootsFree _ (mem_types hy) _ (mem_types hlarge) i hi hplain hroot.symm

end Extends
end RecordMapping.Catalog
