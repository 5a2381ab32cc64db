import RecordMapping.Conversion.Basic
import RecordMapping.Proofs.Catalog.Hierarchy
import RecordMapping.Proofs.Encoding.Plain
/-!
The subtype that a record selects: the one whose entity it was made from.
-/
namespace RecordMapping

open EntityMetadata

theorem Hierarchy.select_of_lookup {h : Hierarchy} {attributes : List Attribute} {value : String}
    {x : CatalogEntry} (hl : Named.lookup h.discriminator attributes = some (.text value))
    (hx : h.subtype? value = some x) : h.select attributes = .ok x := by
  have hcoerce : (Value.text value).coerce .text = .ok (.text value) := rfl
  simp only [select, hl, hcoerce, hx]

theorem Schema.instantiate?_of_mem (s : Schema) {root : Root}
    (hdistinct : (root.variants.map (·.value)).Nodup) {v : Named String} (hv : v ∈ root.variants)
    {type : String} (ht : v.value = type) :
    s.instantiate? root type = some ⟨v.name, s.blank type⟩ := by
  rw [instantiate?, (find?_key_iff hdistinct).2 ⟨hv, ht⟩]
  rfl

namespace Mapping

variable {m : Mapping}

theorem subtypeOf_eq {member : EntityMetadata} {i : Inheritance} (r : Record)
    (hi : member.inheritance = some i) {h : Hierarchy} (hh : m.catalog.hierarchy? i.root = some h) :
    m.subtypeOf member r = h.select r.attributes := by
  rw [subtypeOf, hi, Option.bind_some, hh]

theorem Sound.select (hm : m.Sound) (hp : m.catalog.FlattensPlain) {e : Entity}
    (he : m.schema.Typed e) {x : CatalogEntry} (hx : m.catalog.entry? e.type = some x)
    {attributes : List Attribute} (ha : m.catalog.encode e = .ok attributes) {i : Inheritance}
    (hi : x.metadata.inheritance = some i) :
    ∃ h, m.catalog.hierarchy? i.root = some h ∧ h.select attributes = .ok x := by
  obtain ⟨h, hh, hdisc, hvalue⟩ := hm.consistent.exists_hierarchy (Catalog.entry?_mem hx).1 hi
  have hlookup := (hm.unambiguous hp he hx ha).discriminator ⟨i.discriminator, .text i.value⟩
    (by simp [Catalog.discriminator, hi])
  exact ⟨h, hh, Hierarchy.select_of_lookup (hdisc ▸ hlookup) hvalue⟩

end Mapping
end RecordMapping
