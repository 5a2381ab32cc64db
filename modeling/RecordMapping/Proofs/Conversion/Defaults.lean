import Mathlib
import RecordMapping.Conversion.Basic
import RecordMapping.Proofs.Catalog.Consistent
/-!
The configured policy of embedded fields against the same policy written into every field that
declares none. Fields are checked as they are declared, before they take the default, so that a
field that will be flattened by default still needs an attribute of its own. Nothing else tells the
two apart: the catalogs have the same entries, and settings do not matter to conversion.
-/
namespace RecordMapping

namespace FieldDescriptor

variable (p q : EmbeddedPolicy) (f : FieldDescriptor)

theorem withDefaultPolicy_withDefaultPolicy :
    (f.withDefaultPolicy p).withDefaultPolicy q = f.withDefaultPolicy p := by
  by_cases h : f.kind = .embedded ∧ f.declaredPolicy = none
  · simp [withDefaultPolicy, h]
  · simp [withDefaultPolicy, if_neg h]

variable {p f} in
theorem isFlattened_withDefaultPolicy (h : f.isFlattened = true) :
    (f.withDefaultPolicy p).isFlattened = true := by
  simp only [isFlattened, Bool.and_eq_true, beq_iff_eq] at h
  rw [withDefaultPolicy, if_neg (by simp [h.2])]
  simp [isFlattened, h]

theorem isFlattened_withDefaultPolicy_nested :
    (f.withDefaultPolicy .nested).isFlattened = f.isFlattened := by
  by_cases h : f.kind = .embedded ∧ f.declaredPolicy = none
  · rw [withDefaultPolicy, if_pos h]
    simp [isFlattened, h.2]
  · rw [withDefaultPolicy, if_neg h]

end FieldDescriptor

namespace EntityMetadata

variable {p : EmbeddedPolicy}

theorem withDefaultPolicy_withDefaultPolicy (p q : EmbeddedPolicy) (m : EntityMetadata) :
    (m.withDefaultPolicy p).withDefaultPolicy q = m.withDefaultPolicy p := by
  simp [withDefaultPolicy, FieldDescriptor.withDefaultPolicy_withDefaultPolicy]

theorem ownNames_withDefaultPolicy_sublist (fields : List FieldDescriptor) :
    (ownNames (fields.map (·.withDefaultPolicy p))).Sublist (ownNames fields) := by
  induction fields with
  | nil => exact List.Sublist.refl _
  | cons f rest ih =>
    rw [List.map_cons, ownNames_cons, ownNames_cons, FieldDescriptor.withDefaultPolicy_nativeName]
    cases hf : f.isFlattened with
    | true => simpa only [FieldDescriptor.isFlattened_withDefaultPolicy hf, if_true] using ih
    | false =>
      cases (f.withDefaultPolicy p).isFlattened with
      | true => exact ih.cons _
      | false => exact ih.cons_cons _

theorem ownNames_withDefaultPolicy_nested (fields : List FieldDescriptor) :
    ownNames (fields.map (·.withDefaultPolicy .nested)) = ownNames fields := by
  induction fields with
  | nil => rfl
  | cons f rest ih =>
    rw [List.map_cons, ownNames_cons, ownNames_cons, ih,
      FieldDescriptor.isFlattened_withDefaultPolicy_nested,
      FieldDescriptor.withDefaultPolicy_nativeName]

theorem duplicateField?_eq_none_iff_withDefaultPolicy (p : EmbeddedPolicy) {m : EntityMetadata} :
    m.duplicateField? = none ↔
      (ownNames m.fields).Nodup ∧ (m.withDefaultPolicy p).duplicateField? = none := by
  have hnames : (m.withDefaultPolicy p).fields.map (·.name) = m.fields.map (·.name) := by
    simp [withDefaultPolicy, FieldDescriptor.withDefaultPolicy_name]
  rw [duplicateField?_eq_none_iff, duplicateField?_eq_none_iff, hnames]
  constructor
  · exact fun h => ⟨h.2, h.1, h.2.sublist (ownNames_withDefaultPolicy_sublist m.fields)⟩
  · exact fun h => ⟨h.2.1, h.1⟩

end EntityMetadata

namespace Catalog

open EntityMetadata

variable {settings : Settings} {given : List EntityMetadata}

theorem build_eq_ok_iff_explicit (other : Settings) {c : Catalog} :
    build settings given = .ok c ↔ c.settings = settings ∧
      (∀ m ∈ given, (ownNames m.fields).Nodup) ∧
      build other (given.map (·.withDefaultPolicy settings.embedded)) =
        .ok ⟨other, c.entries⟩ := by
  have hkept : (given.map (·.withDefaultPolicy settings.embedded)).map
      (·.withDefaultPolicy other.embedded) =
        given.map (·.withDefaultPolicy settings.embedded) := by
    simp [EntityMetadata.withDefaultPolicy_withDefaultPolicy]
  have hchecks : (∀ m ∈ given, m.duplicateField? = none) ↔
      (∀ m ∈ given, (ownNames m.fields).Nodup) ∧
        ∀ m ∈ given.map (·.withDefaultPolicy settings.embedded), m.duplicateField? = none := by
    rw [List.forall_mem_map, ← forall₂_and]
    exact forall₂_congr fun m _ => duplicateField?_eq_none_iff_withDefaultPolicy settings.embedded
  simp only [build_eq_ok_iff, register_eq_ok_iff List.Pairwise.nil, List.nil_append, hkept, hchecks,
    and_assoc, exists_eq_left, and_true]
  tauto

end Catalog

namespace Mapping

/-- Whether two mappings convert everything in the same way. -/
structure ConvertsAs (m other : Mapping) : Prop where
  toRecord : ∀ e, m.toRecord e = other.toRecord e
  toEntity : ∀ type r, m.toEntity type r = other.toEntity type r
  populate : ∀ e r, m.populate e r = other.populate e r
  toInherited : ∀ member r, m.toInherited member r = other.toInherited member r
  toRoot : ∀ root r, m.toRoot root r = other.toRoot root r
  toDynamic : ∀ r, m.toDynamic r = other.toDynamic r

theorem convertsAs_of_entries (schema : Schema) {c d : Catalog} (h : c.entries = d.entries) :
    ConvertsAs ⟨schema, c⟩ ⟨schema, d⟩ := by
  obtain ⟨s, entries⟩ := c
  obtain ⟨t, _⟩ := d
  obtain rfl := h
  -- both sides run the same code on the same entries
  constructor <;> intros <;> with_unfolding_all rfl

open EntityMetadata in
/-- A default policy against the same policy written out: it is accepted if the latter is and the
attributes of the fields are distinct before they take the default, which they are anyway if the
default is to nest. Two catalogs that are accepted convert everything in the same way. -/
theorem default_as_written_out (settings other : Settings) (given : List EntityMetadata) :
    let written := given.map (·.withDefaultPolicy settings.embedded)
    ((∃ c, Catalog.build settings given = .ok c) ↔
      (∃ d, Catalog.build other written = .ok d) ∧ ∀ m ∈ given, (ownNames m.fields).Nodup) ∧
    (settings.embedded = .nested → ((∃ c, Catalog.build settings given = .ok c) ↔
      ∃ d, Catalog.build other written = .ok d)) ∧
    ∀ c d, Catalog.build settings given = .ok c → Catalog.build other written = .ok d →
      ∀ schema, ConvertsAs ⟨schema, c⟩ ⟨schema, d⟩ := by
  intro written
  have hiff : (∃ c, Catalog.build settings given = .ok c) ↔
      (∃ d, Catalog.build other written = .ok d) ∧ ∀ m ∈ given, (ownNames m.fields).Nodup := by
    constructor
    · rintro ⟨c, hc⟩
      obtain ⟨_, hown, hd⟩ := (Catalog.build_eq_ok_iff_explicit other).1 hc
      exact ⟨⟨_, hd⟩, hown⟩
    · rintro ⟨⟨d, hd⟩, hown⟩
      obtain ⟨hsettings, _⟩ := Catalog.build_spec hd
      exact ⟨⟨settings, d.entries⟩, (Catalog.build_eq_ok_iff_explicit other).2
        ⟨rfl, hown, hd.trans (by rw [← hsettings])⟩⟩
  refine ⟨hiff, fun hnested => hiff.trans (and_iff_left_of_imp ?_), ?_⟩
  · rintro ⟨d, hd⟩ m hm
    obtain ⟨_, hown, _⟩ := (Catalog.build_eq_ok_iff_explicit other).1 hd
    have hdistinct := hnested ▸ hown _ (List.mem_map_of_mem hm)
    rwa [← ownNames_withDefaultPolicy_nested]
  · intro c d hc hd schema
    obtain ⟨_, _, hsame⟩ := (Catalog.build_eq_ok_iff_explicit other).1 hc
    rw [Except.ok.inj (hd.symm.trans hsame)]
    exact convertsAs_of_entries schema rfl

def residents (native : String) : List EntityMetadata := [
  ⟨"people", "Person", [{ FieldDescriptor.plain "name" with nativeName := "label" },
    { FieldDescriptor.embedded "address" "Address" with nativeName := native }], none⟩,
  ⟨"addresses", "Address", [.plain "street"], none⟩]

/-- An address that is flattened by default may not share the attribute of the label, which it never
uses, while one that is declared to be flattened may. -/
theorem residents_refused :
    (¬∃ c, Catalog.build ⟨.flattened, false, true⟩ (residents "label") = .ok c) ∧
    (∃ d, Catalog.build Settings.standard
      ((residents "label").map (·.withDefaultPolicy .flattened)) = .ok d) ∧
    (∃ c d, Catalog.build ⟨.flattened, false, true⟩ (residents "address") = .ok c ∧
      Catalog.build Settings.standard
        ((residents "address").map (·.withDefaultPolicy .flattened)) = .ok d ∧
      ∀ schema, ConvertsAs ⟨schema, c⟩ ⟨schema, d⟩) ∧
    ∃ c, Catalog.build Settings.standard (residents "address") = .ok c := by
  refine ⟨fun hc => ?_, ⟨_, by cbv⟩, ?_, ?_⟩
  · obtain ⟨hiff, _⟩ := default_as_written_out ⟨.flattened, false, true⟩ Settings.standard
      (residents "label")
    exact absurd ((hiff.1 hc).2 _ List.mem_cons_self) (by decide)
  · obtain ⟨hiff, _, hsame⟩ := default_as_written_out ⟨.flattened, false, true⟩ Settings.standard
      (residents "address")
    have hd : ∃ d, Catalog.build Settings.standard
        ((residents "address").map (·.withDefaultPolicy .flattened)) = .ok d := ⟨_, by cbv⟩
    obtain ⟨c, hc⟩ := hiff.2 ⟨hd, by decide⟩
    obtain ⟨d, hd⟩ := hd
    exact ⟨c, d, hc, hd, hsame c d hc hd⟩
  · obtain ⟨_, hnested, _⟩ := default_as_written_out Settings.standard ⟨.flattened, false, true⟩
      (residents "address")
    exact (hnested rfl).2 ⟨_, by cbv⟩

end Mapping
end RecordMapping
