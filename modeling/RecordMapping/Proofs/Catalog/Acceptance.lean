import Mathlib
import RecordMapping.Proofs.Catalog.Expansion
import RecordMapping.Proofs.Catalog.Hierarchy
/-!
Acceptance: a catalog is built exactly if its types are well formed, in whatever order they are
given, and it then answers for these types and for no others.
-/
namespace RecordMapping

open EntityMetadata LayoutItem

namespace EntityMetadata

variable (p : EmbeddedPolicy) (m : EntityMetadata)

@[simp] theorem withDefaultPolicy_type : (m.withDefaultPolicy p).type = m.type := rfl

@[simp] theorem withDefaultPolicy_inheritance :
    (m.withDefaultPolicy p).inheritance = m.inheritance := rfl

@[simp] theorem withDefaultPolicy_collection :
    (m.withDefaultPolicy p).collection = m.collection := rfl

theorem pairwise_apart_iff {ms : List EntityMetadata} : ms.Pairwise Apart ↔
    (ms.map (·.type)).Nodup ∧
    ((ms.filterMap (·.inheritance)).Pairwise fun i j => i.root = j.root →
      i.discriminator = j.discriminator ∧ i.value ≠ j.value) ∧
    ((ms.filter (·.inheritance.isNone)).map (·.collection)).Nodup := by
  rw [List.Nodup, List.pairwise_map, List.pairwise_map, List.pairwise_filter,
    List.pairwise_filterMap, ← List.pairwise_and_iff, ← List.pairwise_and_iff]
  refine List.Pairwise.iff fun {a b} => ?_
  simp only [Apart, Option.isNone_iff_eq_none]
  grind

end EntityMetadata

namespace Catalog

theorem exists_entryOf_iff {types : List EntityMetadata} {m : EntityMetadata}
    (hn : (types.map (·.type)).Nodup) (hc : ∀ x ∈ types, TargetsIn types x.fields)
    (hm : m ∈ types) : (∃ x, entryOf types m = .ok x) ↔
      m.Descends types ∧ ∃ names, Expands types m.fields names ∧
        (discriminatorNames m ++ names).Nodup := by
  rw [descends_iff_staysWithin hn]
  constructor
  · rintro ⟨x, hx⟩
    obtain ⟨_, hd, hnames⟩ := entryOf_spec hx
    refine ⟨?_, _, expands_of_describesAll hc x.items (hc m hm) hd, hnames⟩
    rw [entryOf] at hx
    split at hx
    · next items hitems =>
      exact staysWithin_of_expand hn _ _ m.fields hitems (hn.erase m.type)
    · cases hx
  · rintro ⟨hdown, names, hnames, hdistinct⟩
    obtain ⟨items, hitems, _⟩ := exists_expand hn hnames hdistinct hdown
    rw [discriminatorNames] at hitems
    exact ⟨⟨m, items⟩, by rw [entryOf]; simp only [hitems]⟩

theorem exists_entriesOf_iff {types given : List EntityMetadata} :
    (∃ entries, entriesOf types given = .ok entries) ↔
      ∀ m ∈ given, ∃ x, entryOf types m = .ok x := by
  induction given with
  | nil => simp [entriesOf]
  | cons m rest ih =>
    rw [List.forall_mem_cons, ← ih, entriesOf]
    cases entryOf types m with
    | error e => simp [bind, Except.bind]
    | ok x =>
      cases entriesOf types rest with
      | error e => simp [bind, Except.bind]
      | ok entries => simp [bind, Except.bind, pure, Except.pure]

/-- What tells types apart, when embedded fields that declare no policy have the given one. -/
structure WellFormed (policy : EmbeddedPolicy) (given : List EntityMetadata) : Prop where
  fieldNames : ∀ m ∈ given, (m.fields.map (·.name)).Nodup
  ownNames : ∀ m ∈ given, (ownNames m.fields).Nodup
  types : (given.map (·.type)).Nodup
  siblings : (given.filterMap (·.inheritance)).Pairwise fun i j => i.root = j.root →
    i.discriminator = j.discriminator ∧ i.value ≠ j.value
  collections : ((given.filter (·.inheritance.isNone)).map (·.collection)).Nodup
  roots : ∀ a ∈ given, ∀ b ∈ given, ∀ i, a.inheritance = some i → b.inheritance = none →
    b.collection ≠ i.root
  targets : ∀ m ∈ given, TargetsIn given m.fields
  descends : ∀ m ∈ given.map (·.withDefaultPolicy policy),
    m.Descends (given.map (·.withDefaultPolicy policy))
  layouts : ∀ m ∈ given.map (·.withDefaultPolicy policy), ∃ names,
    Expands (given.map (·.withDefaultPolicy policy)) m.fields names ∧
      (discriminatorNames m ++ names).Nodup

theorem WellFormed.perm {policy : EmbeddedPolicy} {given others : List EntityMetadata}
    (h : WellFormed policy given) (hp : given.Perm others) : WellFormed policy others := by
  have hmem : ∀ m, m ∈ others → m ∈ given := fun m hm => hp.mem_iff.2 hm
  have hall : ∀ m, m ∈ given.map (·.withDefaultPolicy policy) ↔
      m ∈ others.map (·.withDefaultPolicy policy) := fun m => (hp.map _).mem_iff
  constructor
  · exact fun m hm => h.fieldNames m (hmem m hm)
  · exact fun m hm => h.ownNames m (hmem m hm)
  · exact (hp.map _).nodup_iff.1 h.types
  · refine ((hp.filterMap _).pairwise_iff fun hij hroot => ?_).1 h.siblings
    exact ⟨(hij hroot.symm).1.symm, (hij hroot.symm).2.symm⟩
  · exact ((hp.filter _).map _).nodup_iff.1 h.collections
  · exact fun a ha b hb => h.roots a (hmem a ha) b (hmem b hb)
  · intro m hm f hf t ht
    obtain ⟨x, hx, he⟩ := h.targets m (hmem m hm) f hf t ht
    exact ⟨x, hp.mem_iff.1 hx, he⟩
  · exact fun m hm => (h.descends m ((hall m).2 hm)).mono fun x hx => (hall x).2 hx
  · intro m hm
    obtain ⟨names, hnames, hdistinct⟩ := h.layouts m ((hall m).2 hm)
    exact ⟨names, hnames.mono fun x hx => (hall x).1 hx, hdistinct⟩

section Given

variable {policy : EmbeddedPolicy} {given : List EntityMetadata}

theorem map_type_withDefaultPolicy :
    (given.map (·.withDefaultPolicy policy)).map (·.type) = given.map (·.type) := by
  simp [Function.comp_def]

theorem pairwise_apart_withDefaultPolicy :
    (given.map (·.withDefaultPolicy policy)).Pairwise Apart ↔ given.Pairwise Apart :=
  List.pairwise_map

theorem rootClash?_withDefaultPolicy :
    rootClash? (given.map (·.withDefaultPolicy policy)) = none ↔
      ∀ a ∈ given, ∀ b ∈ given, ∀ i, a.inheritance = some i → b.inheritance = none →
        b.collection ≠ i.root := by
  simp [rootClash?_eq_none_iff]

theorem targetsIn_withDefaultPolicy {m : EntityMetadata} :
    TargetsIn (given.map (·.withDefaultPolicy policy)) (m.withDefaultPolicy policy).fields ↔
      TargetsIn given m.fields := by
  simp [TargetsIn, EntityMetadata.withDefaultPolicy, FieldDescriptor.withDefaultPolicy_target]

/-- A catalog is built exactly if its types are well formed. -/
theorem exists_build_iff {settings : Settings} :
    (∃ c, build settings given = .ok c) ↔ WellFormed settings.embedded given := by
  have hchecks : (∃ c, build settings given = .ok c) ↔
      (given.Pairwise Apart ∧ ∀ m ∈ given, m.duplicateField? = none) ∧
      rootClash? (given.map (·.withDefaultPolicy settings.embedded)) = none ∧
      strayTarget? (given.map (·.withDefaultPolicy settings.embedded)) = none ∧
      ∀ m ∈ given.map (·.withDefaultPolicy settings.embedded),
        ∃ x, entryOf (given.map (·.withDefaultPolicy settings.embedded)) m = .ok x := by
    rw [← exists_entriesOf_iff, ← pairwise_apart_withDefaultPolicy]
    constructor
    · rintro ⟨c, hc⟩
      obtain ⟨all, hreg, ⟨hclash, hstray⟩, hentries, _⟩ := build_eq_ok_iff.1 hc
      obtain ⟨hall, hapart, hfields⟩ := (register_eq_ok_iff List.Pairwise.nil).1 hreg
      rw [List.nil_append] at hall
      subst hall
      exact ⟨⟨hapart, hfields⟩, hclash, hstray, _, hentries⟩
    · rintro ⟨⟨hapart, hfields⟩, hclash, hstray, entries, hentries⟩
      refine ⟨⟨settings, entries⟩, build_eq_ok_iff.2 ⟨_, ?_, ⟨hclash, hstray⟩, hentries, rfl⟩⟩
      exact (register_eq_ok_iff List.Pairwise.nil).2 ⟨rfl, hapart, hfields⟩
  rw [hchecks, pairwise_apart_iff, rootClash?_withDefaultPolicy, strayTarget?_eq_none_iff]
  constructor
  · rintro ⟨⟨⟨htypes, hsiblings, hcollections⟩, hfields⟩, hroots, htargets, hentries⟩
    have hn : ((given.map (·.withDefaultPolicy settings.embedded)).map (·.type)).Nodup := by
      rwa [map_type_withDefaultPolicy]
    have hlayouts := fun m hm => (exists_entryOf_iff hn htargets hm).1 (hentries m hm)
    constructor
    · exact fun m hm => (duplicateField?_eq_none_iff.1 (hfields m hm)).1
    · exact fun m hm => (duplicateField?_eq_none_iff.1 (hfields m hm)).2
    · exact htypes
    · exact hsiblings
    · exact hcollections
    · exact hroots
    · exact fun m hm => targetsIn_withDefaultPolicy.1 (htargets _ (List.mem_map_of_mem hm))
    · exact fun m hm => (hlayouts m hm).1
    · exact fun m hm => (hlayouts m hm).2
  · intro h
    have hn : ((given.map (·.withDefaultPolicy settings.embedded)).map (·.type)).Nodup := by
      rw [map_type_withDefaultPolicy]
      exact h.types
    have htargets : ∀ m ∈ given.map (·.withDefaultPolicy settings.embedded),
        TargetsIn (given.map (·.withDefaultPolicy settings.embedded)) m.fields := by
      intro m hm
      obtain ⟨m', hm', rfl⟩ := List.mem_map.1 hm
      exact targetsIn_withDefaultPolicy.2 (h.targets m' hm')
    refine ⟨⟨⟨h.types, h.siblings, h.collections⟩, fun m hm => ?_⟩, h.roots, htargets,
      fun m hm => ?_⟩
    · exact duplicateField?_eq_none_iff.2 ⟨h.fieldNames m hm, h.ownNames m hm⟩
    · exact (exists_entryOf_iff hn htargets hm).2 ⟨h.descends m hm, h.layouts m hm⟩

end Given

/-- Whether a catalog answers for the given types and for no others: by their names, plain ones by
their collections, and subtypes by their discriminators in the hierarchies of their roots. -/
structure Holds (c : Catalog) (types : List EntityMetadata) : Prop where
  byType : ∀ type m, (c.entry? type).map (·.metadata) = some m ↔ m ∈ types ∧ m.type = type
  byCollection : ∀ collection m, (c.inCollection? collection).map (·.metadata) = some m ↔
    m ∈ types ∧ m.inheritance = none ∧ m.collection = collection
  noHierarchy : ∀ root, c.hierarchy? root = none ↔
    ∀ m ∈ types, ∀ i, m.inheritance = some i → i.root ≠ root
  byRoot : ∀ root h, c.hierarchy? root = some h → h.root = root ∧
    (∀ m ∈ types, ∀ i, m.inheritance = some i → i.root = root →
      i.discriminator = h.discriminator) ∧
    ∀ value m, (h.subtype? value).map (·.metadata) = some m ↔
      m ∈ types ∧ ∃ i, m.inheritance = some i ∧ i.root = root ∧ i.value = value

namespace Consistent

variable {c : Catalog} (hc : c.Consistent)
include hc

theorem entry?_metadata_iff {type : String} {m : EntityMetadata} :
    (c.entry? type).map (·.metadata) = some m ↔ m ∈ c.types ∧ m.type = type := by
  rw [Option.map_eq_some_iff]
  constructor
  · rintro ⟨x, hx, rfl⟩
    exact ⟨mem_types (entry?_mem hx).1, (entry?_mem hx).2⟩
  · rintro ⟨hm, rfl⟩
    obtain ⟨x, hx, rfl⟩ := List.mem_map.1 hm
    exact ⟨x, hc.entry?_type hx, rfl⟩

theorem inCollection?_metadata_iff {collection : String} {m : EntityMetadata} :
    (c.inCollection? collection).map (·.metadata) = some m ↔
      m ∈ c.types ∧ m.inheritance = none ∧ m.collection = collection := by
  rw [Option.map_eq_some_iff]
  constructor
  · rintro ⟨x, hx, rfl⟩
    obtain ⟨hmem, hplain⟩ := hc.inCollection?_eq_some_iff.1 hx
    exact ⟨mem_types hmem, hplain⟩
  · rintro ⟨hm, hplain⟩
    obtain ⟨x, hx, rfl⟩ := List.mem_map.1 hm
    exact ⟨x, hc.inCollection?_eq_some_iff.2 ⟨hx, hplain⟩, rfl⟩

theorem holds_types : c.Holds c.types := by
  refine ⟨fun _ _ => hc.entry?_metadata_iff, fun _ _ => hc.inCollection?_metadata_iff,
    fun root => ?_, fun root h hh => ?_⟩
  · rw [hierarchy?_eq_none_iff, types, List.forall_mem_map]
  · obtain ⟨x, hx, i, hi, rfl⟩ := exists_member hh
    obtain ⟨h', hh', hroot, hdiscriminator, hsubtype⟩ := hc.hierarchy?_spec hx hi
    obtain rfl := Option.some.inj (hh.symm.trans hh')
    refine ⟨hroot, fun m hm j hj hjroot => ?_, fun value m => ?_⟩
    · exact (discriminator_eq hc.apart hm (mem_types hx) hj hi hjroot).trans hdiscriminator.symm
    · rw [Option.map_eq_some_iff, types, List.mem_map]
      constructor
      · rintro ⟨y, hy, rfl⟩
        obtain ⟨hmem, hvalue⟩ := (hsubtype value y).1 hy
        exact ⟨⟨y, hmem, rfl⟩, hvalue⟩
      · rintro ⟨⟨y, hmem, rfl⟩, hvalue⟩
        exact ⟨y, (hsubtype value y).2 ⟨hmem, hvalue⟩, rfl⟩

end Consistent

/-- Types are accepted exactly if they are well formed, so the order in which they are registered
makes no difference. The catalog then answers for exactly these types, their embedded fields with
the default policy. -/
theorem accepted_iff_wellFormed (settings : Settings) (given : List EntityMetadata) :
    ((∃ c, build settings given = .ok c) ↔ WellFormed settings.embedded given) ∧
    (∀ others, given.Perm others →
      ((∃ c, build settings others = .ok c) ↔ ∃ c, build settings given = .ok c)) ∧
    ∀ c, build settings given = .ok c → c.settings = settings ∧
      c.Holds (given.map (·.withDefaultPolicy settings.embedded)) := by
  refine ⟨exists_build_iff, fun others hp => ?_, fun c hc => ?_⟩
  · rw [exists_build_iff, exists_build_iff]
    exact ⟨fun h => h.perm hp.symm, fun h => h.perm hp⟩
  · obtain ⟨hsettings, htypes, hconsistent⟩ := build_spec hc
    exact ⟨hsettings, htypes ▸ hconsistent.holds_types⟩

def chainType : EntityMetadata :=
  ⟨"chains", "Chain", [FieldDescriptor.plain "name", FieldDescriptor.embedded "next" "Chain"], none⟩

def clampType : EntityMetadata :=
  ⟨"clamps", "Clamp", [FieldDescriptor.embedded "held" "Chain"], none⟩

/-- Whether a type that embeds itself is well formed depends on the default policy alone. Another
type may be registered before it or after it. -/
theorem chain_wellFormed :
    WellFormed .nested [chainType, clampType] ∧ ¬WellFormed .flattened [chainType, clampType] ∧
    ∃ c, build Settings.standard [clampType, chainType] = .ok c ∧
      c.Holds ([clampType, chainType].map (·.withDefaultPolicy .nested)) := by
  have hwell := (accepted_iff_wellFormed Settings.standard [chainType, clampType]).1.1 ⟨_, by cbv⟩
  refine ⟨hwell, fun h => ?_, ?_⟩
  · have hrefused : build ⟨.flattened, false, true⟩ [chainType, clampType] =
      .error (.duplicateField "Chain" "next") := by cbv
    obtain ⟨c, hc⟩ :=
      (accepted_iff_wellFormed ⟨.flattened, false, true⟩ [chainType, clampType]).1.2 h
    rw [hrefused] at hc
    cases hc
  · obtain ⟨c, hc⟩ := ((accepted_iff_wellFormed Settings.standard [chainType, clampType]).2.1
      [clampType, chainType] (List.Perm.swap clampType chainType [])).2 ⟨_, by cbv⟩
    exact ⟨c, hc, ((accepted_iff_wellFormed Settings.standard
      [clampType, chainType]).2.2 c hc).2⟩

end Catalog
end RecordMapping
