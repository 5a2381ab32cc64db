import RecordMapping.Catalog.Basic
import Mathlib.Data.List.Nodup
import Mathlib.Tactic.Cases
/-!
What a layout says about the fields that it was expanded from: an item for every field, in order,
and no name twice. There is only one such layout, and it stays the same among other types as long as
the fields lead to the same ones.
-/
namespace RecordMapping

namespace LayoutItem

mutual

/-- Whether an item is what a field expands to among the registered types. -/
def Describes (types : List EntityMetadata) : LayoutItem → FieldDescriptor → Prop
  | .stored g, f => g = f ∧ f.isFlattened = false
  | .group g m items, f =>
    g = f ∧ f.isFlattened = true ∧ (f.target.bind fun t => types.find? (·.type == t)) = some m ∧
      DescribesAll types items m.fields
  | .detached g, f =>
    g = f ∧ f.isFlattened = true ∧ (f.target.bind fun t => types.find? (·.type == t)) = none

def DescribesAll (types : List EntityMetadata) : List LayoutItem → List FieldDescriptor → Prop
  | [], [] => True
  | item :: items, f :: fields => Describes types item f ∧ DescribesAll types items fields
  | _, _ => False

end

variable {types : List EntityMetadata}

theorem expand_nil (free seen : List String) : expand types free seen [] = .ok [] := by
  rw [expand]

theorem expand_stored {free seen : List String} {f : FieldDescriptor}
    {rest : List FieldDescriptor} {items : List LayoutItem} (hf : f.isFlattened = false)
    (h : expand types free seen (f :: rest) = .ok items) :
    f.nativeName ∉ seen ∧ ∃ others, items = .stored f :: others ∧
      expand types free (seen ++ [f.nativeName]) rest = .ok others := by
  rw [expand] at h
  simp only [hf, Bool.false_eq_true, if_false] at h
  split at h
  · cases h
  · next hfresh =>
    cases ho : expand types free (seen ++ [f.nativeName]) rest with
    | error e => simp [ho, Except.map] at h
    | ok others =>
      rw [ho] at h
      exact ⟨hfresh, others, (Except.ok.inj h).symm, rfl⟩

theorem expand_flattened {free seen : List String} {f : FieldDescriptor}
    {rest : List FieldDescriptor} {items : List LayoutItem} (hf : f.isFlattened = true)
    (h : expand types free seen (f :: rest) = .ok items) :
    ((f.target.bind fun t => types.find? (·.type == t)) = none ∧
      ∃ others, items = .detached f :: others ∧ expand types free seen rest = .ok others) ∨
    ∃ m own others, (f.target.bind fun t => types.find? (·.type == t)) = some m ∧
      m.type ∈ free ∧ items = .group f m own :: others ∧
      expand types (free.erase m.type) seen m.fields = .ok own ∧
      expand types free (seen ++ allNames own) rest = .ok others := by
  rw [expand] at h
  simp only [hf, if_true] at h
  split at h
  · next ht =>
    cases ho : expand types free seen rest with
    | error e => simp [ho, Except.map] at h
    | ok others =>
      rw [ho] at h
      exact .inl ⟨ht, others, (Except.ok.inj h).symm, rfl⟩
  · next m ht =>
    split at h
    · next hfree =>
      split at h
      · cases h
      · next own hown =>
        cases ho : expand types free (seen ++ allNames own) rest with
        | error e => simp [ho, Except.map] at h
        | ok others =>
          rw [ho] at h
          exact .inr ⟨m, own, others, ht, hfree, (Except.ok.inj h).symm, hown, ho⟩
    · cases h

/-- An expansion has an item for every field, and takes only names that are neither seen nor
repeated. -/
theorem expand_spec (free seen : List String) (fields : List FieldDescriptor)
    {items : List LayoutItem} (h : expand types free seen fields = .ok items)
    (hs : seen.Nodup) : DescribesAll types items fields ∧ (seen ++ allNames items).Nodup := by
  match fields with
  | [] =>
    rw [expand_nil] at h
    obtain rfl := Except.ok.inj h
    simpa [DescribesAll, allNames] using hs
  | f :: rest =>
    cases hf : f.isFlattened with
    | false =>
      obtain ⟨hfresh, others, rfl, ho⟩ := expand_stored hf h
      have hseen : (seen ++ [f.nativeName]).Nodup := by
        rw [List.nodup_append]
        refine ⟨hs, List.nodup_singleton _, ?_⟩
        rintro a ha b hb rfl
        exact hfresh (List.mem_singleton.1 hb ▸ ha)
      obtain ⟨hd, hn⟩ := expand_spec free _ rest ho hseen
      refine ⟨⟨⟨rfl, hf⟩, hd⟩, ?_⟩
      simpa [allNames, names] using hn
    | true =>
      rcases expand_flattened hf h with
        ⟨ht, others, rfl, ho⟩ | ⟨m, own, others, ht, hfree, rfl, hown, ho⟩
      · obtain ⟨hd, hn⟩ := expand_spec free seen rest ho hs
        refine ⟨⟨⟨rfl, hf, ht⟩, hd⟩, ?_⟩
        simpa [allNames, names] using hn
      · have : (free.erase m.type).length < free.length := by
          rw [List.length_erase_of_mem hfree]
          have := List.length_pos_of_mem hfree
          omega
        obtain ⟨hdown, hnown⟩ := expand_spec (free.erase m.type) seen m.fields hown hs
        obtain ⟨hd, hn⟩ := expand_spec free _ rest ho hnown
        refine ⟨⟨⟨rfl, hf, ht, hdown⟩, hd⟩, ?_⟩
        simpa [allNames, names] using hn
termination_by (free.length, fields.length)

section Others

variable {others : List EntityMetadata} {visited : EntityMetadata → Prop}

structure Carried (types others : List EntityMetadata) (visited : EntityMetadata → Prop) :
    Prop where
  same : ∀ m, visited m → ∀ f ∈ m.fields, ∀ t, f.target = some t →
    others.find? (·.type == t) = types.find? (·.type == t)
  closed : ∀ m, visited m → ∀ f ∈ m.fields, ∀ t, f.target = some t → ∀ n,
    types.find? (·.type == t) = some n → visited n

mutual

theorem Describes.carry (h : Carried types others visited) (item : LayoutItem)
    {m : EntityMetadata} (hm : visited m) {f : FieldDescriptor} (hf : f ∈ m.fields)
    (hd : item.Describes types f) : item.Describes others f := by
  have hfind : (f.target.bind fun t => others.find? (·.type == t)) =
      f.target.bind fun t => types.find? (·.type == t) := by
    cases ht : f.target with
    | none => rfl
    | some t => exact h.same m hm f hf t ht
  match item with
  | .stored g => exact hd
  | .detached g => exact ⟨hd.1, hd.2.1, hfind.trans hd.2.2⟩
  | .group g target items =>
    obtain ⟨hg, hflat, htarget, hitems⟩ := hd
    obtain ⟨t, ht, hfound⟩ := Option.bind_eq_some_iff.1 htarget
    have hvisited := h.closed m hm f hf t ht target hfound
    exact ⟨hg, hflat, hfind.trans htarget,
      DescribesAll.carry h items hvisited (fun f hf => hf) hitems⟩

theorem DescribesAll.carry (h : Carried types others visited) (items : List LayoutItem)
    {m : EntityMetadata} (hm : visited m) {fields : List FieldDescriptor}
    (hf : ∀ f ∈ fields, f ∈ m.fields) (hd : DescribesAll types items fields) :
    DescribesAll others items fields := by
  match items, fields with
  | [], [] => trivial
  | [], _ :: _ => exact hd.elim
  | _ :: _, [] => exact hd.elim
  | item :: rest, f :: fields =>
    exact ⟨Describes.carry h item hm (hf f List.mem_cons_self) hd.1,
      DescribesAll.carry h rest hm (fun g hg => hf g (List.mem_cons_of_mem f hg)) hd.2⟩

end

end Others

theorem Describes.eq_stored {item : LayoutItem} {f : FieldDescriptor} (h : item.Describes types f)
    (hf : f.isFlattened = false) : item = .stored f := by
  cases item with
  | stored g => rw [h.1]
  | group g m items => exact absurd h.2.1 (by simp [hf])
  | detached g => exact absurd h.2.1 (by simp [hf])

theorem Describes.eq_detached {item : LayoutItem} {f : FieldDescriptor}
    (h : item.Describes types f) (hf : f.isFlattened = true)
    (ht : (f.target.bind fun t => types.find? (·.type == t)) = none) : item = .detached f := by
  cases item with
  | stored g => exact absurd h.2 (by simp [hf])
  | group g m items => exact absurd h.2.2.1 (by simp [ht])
  | detached g => rw [h.1]

theorem Describes.eq_group {item : LayoutItem} {f : FieldDescriptor} {m : EntityMetadata}
    (h : item.Describes types f) (hf : f.isFlattened = true)
    (ht : (f.target.bind fun t => types.find? (·.type == t)) = some m) :
    ∃ items, item = .group f m items ∧ DescribesAll types items m.fields := by
  cases item with
  | stored g => exact absurd h.2 (by simp [hf])
  | detached g => exact absurd h.2.2 (by simp [ht])
  | group g n items =>
    obtain ⟨rfl, _, hn, hitems⟩ := h
    obtain rfl := Option.some.inj (hn.symm.trans ht)
    exact ⟨items, rfl, hitems⟩

mutual

theorem Describes.unique (item : LayoutItem) {other : LayoutItem} {f : FieldDescriptor}
    (h : item.Describes types f) (h' : other.Describes types f) : other = item := by
  match item with
  | .stored g =>
    obtain ⟨rfl, hflat⟩ := h
    exact h'.eq_stored hflat
  | .detached g =>
    obtain ⟨rfl, hflat, hnone⟩ := h
    exact h'.eq_detached hflat hnone
  | .group g m items =>
    obtain ⟨rfl, hflat, hm, hitems⟩ := h
    obtain ⟨others, rfl, hothers⟩ := h'.eq_group hflat hm
    rw [DescribesAll.unique items hitems hothers]

theorem DescribesAll.unique (items : List LayoutItem) {others : List LayoutItem}
    {fields : List FieldDescriptor} (h : DescribesAll types items fields)
    (h' : DescribesAll types others fields) : others = items := by
  match items, others, fields with
  | [], [], [] => rfl
  | [], [], _ :: _ | [], _ :: _, _ :: _ | _ :: _, _, [] => exact h.elim
  | _, _ :: _, [] | _, [], _ :: _ => exact h'.elim
  | item :: rest, other :: others, f :: fields =>
    rw [Describes.unique item h.1 h'.1, DescribesAll.unique rest h.2 h'.2]

end

end LayoutItem
end RecordMapping
