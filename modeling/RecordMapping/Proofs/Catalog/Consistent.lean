import RecordMapping.Proofs.Catalog.Layout
import Mathlib.Data.List.Pairwise
/-!
What acceptance says about a catalog: its types are told apart by their names, every target is
registered, and every entry carries the layout of its type.
-/
namespace RecordMapping

namespace EntityMetadata

def Apart (a b : EntityMetadata) : Prop :=
  a.type ≠ b.type ∧
  (∀ i j, a.inheritance = some i → b.inheritance = some j → i.root = j.root →
    i.discriminator = j.discriminator ∧ i.value ≠ j.value) ∧
  (a.inheritance = none → b.inheritance = none → a.collection ≠ b.collection)

/-- The attributes that fields have of their own, flattened fields aside. -/
def ownNames (fields : List FieldDescriptor) : List String :=
  (fields.filter (!·.isFlattened)).map (·.nativeName)

theorem ownNames_cons (f : FieldDescriptor) (rest : List FieldDescriptor) :
    ownNames (f :: rest) = if f.isFlattened then ownNames rest else f.nativeName :: ownNames rest := by
  cases hf : f.isFlattened <;> simp [ownNames, hf]

theorem duplicateField?_go_eq_none_iff {names natives : List String}
    {fields : List FieldDescriptor} : duplicateField?.go names natives fields = none ↔
      ((∀ n ∈ fields.map (·.name), n ∉ names) ∧ (fields.map (·.name)).Nodup) ∧
      (∀ n ∈ ownNames fields, n ∉ natives) ∧ (ownNames fields).Nodup := by
  induction fields generalizing names natives with
  | nil => simp [duplicateField?.go, ownNames]
  | cons f rest ih =>
    rw [duplicateField?.go, ownNames_cons, List.map_cons]
    cases hf : f.isFlattened with
    | true =>
      by_cases hn : f.name ∈ names
      · simp [hn]
      · simp only [hn, false_or, Bool.true_eq_false, false_and, if_false, if_true, ih]
        grind
    | false =>
      by_cases hn : f.name ∈ names
      · simp [hn]
      · by_cases hv : f.nativeName ∈ natives
        · simp [hv]
        · simp only [hn, hv, and_false, or_false, if_false, Bool.false_eq_true, ih]
          grind

theorem duplicateField?_eq_none_iff {m : EntityMetadata} : m.duplicateField? = none ↔
    (m.fields.map (·.name)).Nodup ∧ (ownNames m.fields).Nodup := by
  simp [duplicateField?, duplicateField?_go_eq_none_iff]

theorem mem_siblings {earlier : List EntityMetadata} {root : String} {j : Inheritance} :
    j ∈ (earlier.filter (·.isSubtypeOf root)).filterMap (·.inheritance) ↔
      ∃ a ∈ earlier, a.inheritance = some j ∧ j.root = root := by
  rw [List.mem_filterMap]
  constructor
  · rintro ⟨a, ha, hj⟩
    obtain ⟨ha, hroot⟩ := List.mem_filter.1 ha
    simp only [isSubtypeOf, hj, beq_iff_eq] at hroot
    exact ⟨a, ha, hj, hroot⟩
  · rintro ⟨a, ha, hj, hroot⟩
    refine ⟨a, List.mem_filter.2 ⟨ha, ?_⟩, hj⟩
    simp [isSubtypeOf, hj, hroot]

theorem Apart.symm {a b : EntityMetadata} (h : Apart a b) : Apart b a := by
  refine ⟨Ne.symm h.1, fun i j hi hj hroot => ?_, fun hb ha => Ne.symm (h.2.2 ha hb)⟩
  obtain ⟨hd, hv⟩ := h.2.1 j i hj hi hroot.symm
  exact ⟨hd.symm, Ne.symm hv⟩

instance : Std.Symm Apart := ⟨fun _ _ => Apart.symm⟩

theorem discriminator_eq {ms : List EntityMetadata} (h : ms.Pairwise Apart)
    {a b : EntityMetadata} (ha : a ∈ ms) (hb : b ∈ ms) {i j : Inheritance}
    (hi : a.inheritance = some i) (hj : b.inheritance = some j) (hroot : i.root = j.root) :
    i.discriminator = j.discriminator := by
  by_cases hab : a = b
  · subst hab
    rw [Option.some.inj (hi.symm.trans hj)]
  · exact ((h.forall ha hb hab).2.1 i j hi hj hroot).1

theorem apart_of_conflict?_eq_none {earlier : List EntityMetadata} {m : EntityMetadata}
    (he : earlier.Pairwise Apart) (h : m.conflict? earlier = none) :
    ∀ a ∈ earlier, Apart a m := by
  intro a ha
  rw [conflict?] at h
  split at h
  · cases h
  · next hfresh =>
    have hne : a.type ≠ m.type := by
      intro heq
      exact hfresh (List.any_eq_true.2 ⟨a, ha, beq_iff_eq.2 heq⟩)
    cases hm : m.inheritance with
    | none =>
      simp only [hm, Option.map_eq_none_iff, List.find?_eq_none] at h
      refine ⟨hne, fun i j _ hj => by simp [hm] at hj, fun hn _ hc => ?_⟩
      exact h a ha (by simp [isPlainIn, hn, hc])
    | some j =>
      refine ⟨hne, fun i k hi hk hroot => ?_, fun _ hn => by simp [hm] at hn⟩
      obtain rfl := Option.some.inj (hm.symm.trans hk)
      have hmem := mem_siblings.2 ⟨a, ha, hi, hroot⟩
      simp only [hm] at h
      split at h
      · next hnil => simp [hnil] at hmem
      · next first others hs =>
        have hfirst : first ∈ (earlier.filter (·.isSubtypeOf j.root)).filterMap (·.inheritance) :=
          hs ▸ List.mem_cons_self
        obtain ⟨b, hb, hbi, hbroot⟩ := mem_siblings.1 hfirst
        split at h
        · cases h
        · next hdisc =>
          split at h
          · cases h
          · next hvalue =>
            refine ⟨?_, fun heq => hvalue (List.any_eq_true.2 ⟨i, hmem, beq_iff_eq.2 heq⟩)⟩
            have := discriminator_eq he ha hb hi hbi (hroot.trans hbroot.symm)
            exact this.trans (not_not.1 hdisc)

theorem conflict?_eq_none {earlier : List EntityMetadata} {m : EntityMetadata}
    (h : ∀ a ∈ earlier, Apart a m) : m.conflict? earlier = none := by
  have hfresh : ¬earlier.any (·.type == m.type) = true := by
    intro hany
    obtain ⟨a, ha, heq⟩ := List.any_eq_true.1 hany
    exact (h a ha).1 (beq_iff_eq.1 heq)
  rw [conflict?, if_neg hfresh]
  cases hm : m.inheritance with
  | none =>
    simp only [Option.map_eq_none_iff, List.find?_eq_none]
    intro a ha hplain
    simp only [isPlainIn, Bool.and_eq_true, Option.isNone_iff_eq_none, beq_iff_eq] at hplain
    exact (h a ha).2.2 hplain.1 hm hplain.2
  | some i =>
    have hsiblings : ∀ j ∈ (earlier.filter (·.isSubtypeOf i.root)).filterMap (·.inheritance),
        j.discriminator = i.discriminator ∧ j.value ≠ i.value := by
      intro j hj
      obtain ⟨a, ha, haj, hroot⟩ := mem_siblings.1 hj
      exact (h a ha).2.1 j i haj hm hroot
    simp only
    split
    · rfl
    · next first others hs =>
      have hdisc := (hsiblings first (hs ▸ List.mem_cons_self)).1
      have hvalue : ¬((earlier.filter (·.isSubtypeOf i.root)).filterMap (·.inheritance)).any
          (·.value == i.value) = true := by
        intro hany
        obtain ⟨j, hj, heq⟩ := List.any_eq_true.1 hany
        exact (hsiblings j hj).2 (beq_iff_eq.1 heq)
      rw [if_neg (not_not.2 hdisc), if_neg hvalue]

end EntityMetadata

namespace FieldDescriptor

variable (p : EmbeddedPolicy) (f : FieldDescriptor)

theorem of_withDefaultPolicy {α : Type} (g : FieldDescriptor → α)
    (hg : ∀ policy, g { f with declaredPolicy := policy } = g f) :
    g (f.withDefaultPolicy p) = g f := by
  rw [withDefaultPolicy]
  split
  · exact hg _
  · rfl

theorem withDefaultPolicy_name : (f.withDefaultPolicy p).name = f.name :=
  f.of_withDefaultPolicy p (·.name) fun _ => rfl

theorem withDefaultPolicy_nativeName : (f.withDefaultPolicy p).nativeName = f.nativeName :=
  f.of_withDefaultPolicy p (·.nativeName) fun _ => rfl

theorem withDefaultPolicy_target : (f.withDefaultPolicy p).target = f.target :=
  f.of_withDefaultPolicy p (·.target) fun _ => rfl

end FieldDescriptor

namespace Catalog

open EntityMetadata

def types (c : Catalog) : List EntityMetadata :=
  c.entries.map (·.metadata)

/-- Registration accepts types exactly if no one of them repeats a field and each is apart from all
others. -/
theorem register_eq_ok_iff {policy : EmbeddedPolicy} {earlier given all : List EntityMetadata}
    (he : earlier.Pairwise Apart) : register policy earlier given = .ok all ↔
      all = earlier ++ given.map (·.withDefaultPolicy policy) ∧ all.Pairwise Apart ∧
        ∀ m ∈ given, m.duplicateField? = none := by
  induction given generalizing earlier with
  | nil =>
    rw [register]
    constructor
    · rintro ⟨⟩
      simpa using he
    · rintro ⟨hall, _, _⟩
      simp [hall]
  | cons m rest ih =>
    rw [register]
    cases hdup : m.duplicateField? with
    | some field => simp [hdup]
    | none =>
      simp only
      cases hconf : (m.withDefaultPolicy policy).conflict? earlier with
      | some e =>
        simp only [reduceCtorEq, false_iff]
        rintro ⟨rfl, hp, _⟩
        have happart : ∀ a ∈ earlier, Apart a (m.withDefaultPolicy policy) := fun a ha =>
          (List.pairwise_append.1 hp).2.2 a ha _ List.mem_cons_self
        rw [conflict?_eq_none happart] at hconf
        cases hconf
      | none =>
        have hnext : (earlier ++ [m.withDefaultPolicy policy]).Pairwise Apart := by
          rw [List.pairwise_append]
          refine ⟨he, List.pairwise_singleton _ _, fun a ha b hb => ?_⟩
          rw [List.mem_singleton.1 hb]
          exact apart_of_conflict?_eq_none he hconf a ha
        rw [ih hnext]
        simp [hdup]

/-- The attribute that marks a subtype, by name. -/
def discriminatorNames (m : EntityMetadata) : List String :=
  (m.inheritance.map (·.discriminator)).toList

theorem discriminatorNames_nodup (m : EntityMetadata) : (discriminatorNames m).Nodup := by
  rw [discriminatorNames]
  cases m.inheritance <;> simp

theorem entryOf_spec {types : List EntityMetadata} {m : EntityMetadata} {x : CatalogEntry}
    (h : entryOf types m = .ok x) : x.metadata = m ∧
      LayoutItem.DescribesAll types x.items m.fields ∧
      (discriminatorNames m ++ LayoutItem.allNames x.items).Nodup := by
  simp only [entryOf] at h
  split at h
  · next items hexp =>
    obtain rfl := Except.ok.inj h
    exact ⟨rfl, LayoutItem.expand_spec _ _ _ hexp (discriminatorNames_nodup m)⟩
  · cases h

theorem entriesOf_spec {types given : List EntityMetadata} {entries : List CatalogEntry}
    (h : entriesOf types given = .ok entries) :
    entries.map (·.metadata) = given ∧ ∀ x ∈ entries,
      LayoutItem.DescribesAll types x.items x.metadata.fields ∧
        (discriminatorNames x.metadata ++ LayoutItem.allNames x.items).Nodup := by
  induction given generalizing entries with
  | nil =>
    obtain rfl := Except.ok.inj h
    simp
  | cons m rest ih =>
    rw [entriesOf] at h
    cases hx : entryOf types m with
    | error e => simp [hx, bind, Except.bind] at h
    | ok x =>
      cases hr : entriesOf types rest with
      | error e => simp [hx, hr, bind, Except.bind] at h
      | ok others =>
        simp only [hx, hr, bind, Except.bind, pure, Except.pure] at h
        obtain rfl := Except.ok.inj h
        obtain ⟨hm, ho⟩ := ih hr
        obtain ⟨rfl, hlayout⟩ := entryOf_spec hx
        refine ⟨by simp [hm], ?_⟩
        intro y hy
        rcases List.mem_cons.1 hy with rfl | hy
        · exact hlayout
        · exact ho y hy

theorem rootClash?_eq_none_iff {types : List EntityMetadata} : rootClash? types = none ↔
    ∀ a ∈ types, ∀ b ∈ types, ∀ i, a.inheritance = some i → b.inheritance = none →
      b.collection ≠ i.root := by
  rw [rootClash?, List.findSome?_eq_none_iff]
  refine forall₂_congr fun a _ => ?_
  cases a.inheritance with
  | none => simp
  | some i => simp [isPlainIn]

theorem strayTarget?_eq_none_iff {types : List EntityMetadata} : strayTarget? types = none ↔
    ∀ m ∈ types, ∀ f ∈ m.fields, ∀ t, f.target = some t → ∃ x ∈ types, x.type = t := by
  simp only [strayTarget?, List.findSome?_eq_none_iff, Option.bind_eq_none_iff]
  refine forall₂_congr fun m _ => forall₂_congr fun f _ => forall₂_congr fun t _ => ?_
  rw [ite_eq_left_iff]
  simp

/-- What an accepted catalog promises. -/
structure Consistent (c : Catalog) : Prop where
  apart : c.types.Pairwise Apart
  rootsFree : ∀ a ∈ c.types, ∀ b ∈ c.types, ∀ i, a.inheritance = some i →
    b.inheritance = none → b.collection ≠ i.root
  fieldsDistinct : ∀ m ∈ c.types, (m.fields.map (·.name)).Nodup
  targetsRegistered : ∀ m ∈ c.types, ∀ f ∈ m.fields, ∀ t, f.target = some t →
    ∃ x ∈ c.types, x.type = t
  described : ∀ x ∈ c.entries, LayoutItem.DescribesAll c.types x.items x.metadata.fields
  namesDistinct : ∀ x ∈ c.entries,
    (discriminatorNames x.metadata ++ LayoutItem.allNames x.items).Nodup

theorem build_eq_ok_iff {settings : Settings} {given : List EntityMetadata} {c : Catalog} :
    build settings given = .ok c ↔ ∃ all, register settings.embedded [] given = .ok all ∧
      (rootClash? all = none ∧ strayTarget? all = none) ∧
      entriesOf all all = .ok c.entries ∧ c.settings = settings := by
  rw [build]
  cases hreg : register settings.embedded [] given with
  | error e => simp [bind, Except.bind]
  | ok all =>
    simp only [bind, Except.bind, Except.ok.injEq, exists_eq_left', ← Option.or_eq_none_iff]
    cases hfaults : (rootClash? all).or (strayTarget? all) with
    | some e => simp
    | none =>
      cases hentries : entriesOf all all with
      | error e => simp
      | ok entries =>
        obtain ⟨kept, found⟩ := c
        simp [pure, Except.pure, eq_comm, and_comm]

theorem build_spec {settings : Settings} {given : List EntityMetadata} {c : Catalog}
    (h : build settings given = .ok c) :
    c.settings = settings ∧ c.types = given.map (·.withDefaultPolicy settings.embedded) ∧
      c.Consistent := by
  obtain ⟨all, hreg, ⟨hclash, hstray⟩, hentries, hsettings⟩ := build_eq_ok_iff.1 h
  obtain ⟨hall, hapart, hfields⟩ := (register_eq_ok_iff List.Pairwise.nil).1 hreg
  obtain ⟨hmetas, hitems⟩ := entriesOf_spec hentries
  have htypes : c.types = all := hmetas
  refine ⟨hsettings, htypes.trans (by simpa using hall), ?_⟩
  constructor
  · rwa [htypes]
  · rw [htypes]
    exact rootClash?_eq_none_iff.1 hclash
  · rw [htypes, hall]
    intro m hm
    obtain ⟨m', hm', rfl⟩ := List.mem_map.1 (by simpa using hm)
    simpa [EntityMetadata.withDefaultPolicy, Function.comp_def,
      FieldDescriptor.withDefaultPolicy_name] using
      (duplicateField?_eq_none_iff.1 (hfields m' hm')).1
  · rw [htypes]
    exact strayTarget?_eq_none_iff.1 hstray
  · rw [htypes]
    exact fun x hx => (hitems x hx).1
  · exact fun x hx => (hitems x hx).2

theorem mem_types {c : Catalog} {x : CatalogEntry} (hx : x ∈ c.entries) : x.metadata ∈ c.types :=
  List.mem_map_of_mem hx

theorem find?_types_iff {c : Catalog} {t : String} {m : EntityMetadata} :
    c.types.find? (·.type == t) = some m ↔ ∃ x, c.entry? t = some x ∧ x.metadata = m := by
  rw [types, List.find?_map, Option.map_eq_some_iff]
  rfl

theorem entry?_mem {c : Catalog} {t : String} {x : CatalogEntry} (h : c.entry? t = some x) :
    x ∈ c.entries ∧ x.metadata.type = t :=
  ⟨List.mem_of_find?_eq_some h, by simpa using List.find?_some h⟩

theorem entry?_exists {c : Catalog} {m : EntityMetadata} (hm : m ∈ c.types) :
    ∃ x, c.entry? m.type = some x := by
  obtain ⟨x, hx, rfl⟩ := List.mem_map.1 hm
  exact Option.isSome_iff_exists.1 (List.find?_isSome.2 ⟨x, hx, by simp⟩)

theorem target_of_group {c : Catalog} {f g : FieldDescriptor} {t : EntityMetadata}
    {items : List LayoutItem} (h : (LayoutItem.group g t items).Describes c.types f) :
    t ∈ c.types ∧ f.target = some t.type := by
  obtain ⟨_, _, htarget, _⟩ := h
  obtain ⟨target, ht, hfound⟩ := Option.bind_eq_some_iff.1 htarget
  obtain rfl : t.type = target := by simpa using List.find?_some hfound
  exact ⟨List.mem_of_find?_eq_some hfound, ht⟩

namespace Consistent

variable {c : Catalog} (hc : c.Consistent)
include hc

theorem eq_of_type_eq {x y : CatalogEntry} (hx : x ∈ c.entries) (hy : y ∈ c.entries)
    (h : x.metadata.type = y.metadata.type) : x = y := by
  have hp : c.entries.Pairwise fun a b => Apart a.metadata b.metadata :=
    List.pairwise_map.1 hc.apart
  have : Std.Symm fun a b : CatalogEntry => Apart a.metadata b.metadata := ⟨fun _ _ => Apart.symm⟩
  by_contra hne
  exact (hp.forall hx hy hne).1 h

theorem entry?_type {x : CatalogEntry} (hx : x ∈ c.entries) :
    c.entry? x.metadata.type = some x := by
  obtain ⟨y, hy⟩ := entry?_exists (mem_types hx)
  obtain ⟨hmem, ht⟩ := entry?_mem hy
  rw [hy, hc.eq_of_type_eq hmem hx ht]

theorem target {m : EntityMetadata} (hm : m ∈ c.types) {f : FieldDescriptor} (hf : f ∈ m.fields)
    {t : String} (ht : f.target = some t) : ∃ x, c.entry? t = some x := by
  obtain ⟨m', hm', rfl⟩ := hc.targetsRegistered m hm f hf t ht
  exact entry?_exists hm'

theorem exists_entry_of_group {f g : FieldDescriptor}
    {t : EntityMetadata} {items : List LayoutItem}
    (h : (LayoutItem.group g t items).Describes c.types f) :
    ∃ y ∈ c.entries, y.metadata = t ∧ y.items = items := by
  obtain ⟨_, _, ht, hitems⟩ := h
  obtain ⟨_, _, hfind⟩ := Option.bind_eq_some_iff.1 ht
  obtain ⟨y, hy, rfl⟩ := find?_types_iff.1 hfind
  have hmem := (entry?_mem hy).1
  exact ⟨y, hmem, rfl, LayoutItem.DescribesAll.unique items hitems (hc.described y hmem)⟩

theorem inCollection?_eq_some_iff {collection : String} {x : CatalogEntry} :
    c.inCollection? collection = some x ↔
      x ∈ c.entries ∧ x.metadata.inheritance = none ∧ x.metadata.collection = collection := by
  have hplain : ∀ y, c.inCollection? collection = some y →
      y ∈ c.entries ∧ y.metadata.inheritance = none ∧ y.metadata.collection = collection := by
    intro y hy
    have hin := List.find?_some hy
    simp only [isPlainIn, Bool.and_eq_true, Option.isNone_iff_eq_none, beq_iff_eq] at hin
    exact ⟨List.mem_of_find?_eq_some hy, hin⟩
  refine ⟨hplain x, ?_⟩
  rintro ⟨hx, hi, rfl⟩
  have hsome : (c.inCollection? x.metadata.collection).isSome :=
    List.find?_isSome.2 ⟨x, hx, by simp [isPlainIn, hi]⟩
  obtain ⟨y, hy⟩ := Option.isSome_iff_exists.1 hsome
  obtain ⟨hmem, hyi, hcollection⟩ := hplain y hy
  have hmeta : y.metadata = x.metadata := by
    by_contra hne
    exact (hc.apart.forall (mem_types hmem) (mem_types hx) hne).2.2 hyi hi hcollection
  rw [hy, hc.eq_of_type_eq hmem hx (congrArg EntityMetadata.type hmeta)]

end Consistent

end Catalog
end RecordMapping
