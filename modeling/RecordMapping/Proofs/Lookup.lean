import RecordMapping.Named
import Mathlib.Data.List.Forall2
import Mathlib.Data.List.Nodup
/-!
Look-ups in lists put together from parts: which part answers for a name, and when the first entry
of a name is the only one. Also lists all of whose entries are looked up.
-/
namespace RecordMapping

theorem mapM_eq_some_iff {α β : Type} {f : α → Option β} {xs : List α} {ys : List β} :
    xs.mapM f = some ys ↔ List.Forall₂ (fun x y => f x = some y) xs ys := by
  induction xs generalizing ys with
  | nil => simp [eq_comm]
  | cons x rest ih =>
    rw [List.mapM_cons, List.forall₂_cons_left_iff]
    constructor
    · intro h
      obtain ⟨y, hy, h⟩ := Option.bind_eq_some_iff.1 h
      obtain ⟨others, ho, h⟩ := Option.bind_eq_some_iff.1 h
      exact ⟨y, others, hy, ih.1 ho, (Option.some.inj h).symm⟩
    · rintro ⟨y, others, hy, ho, rfl⟩
      simp [hy, ih.2 ho]

theorem exists_of_forall₂ {α β : Type} {R : α → β → Prop} {xs : List α} {ys : List β}
    (h : List.Forall₂ R xs ys) {x : α} (hx : x ∈ xs) : ∃ y ∈ ys, R x y := by
  induction h with
  | nil => cases hx
  | cons hfirst _ ih =>
    rcases List.mem_cons.1 hx with rfl | hx
    · exact ⟨_, List.mem_cons_self, hfirst⟩
    · obtain ⟨y, hy, hr⟩ := ih hx
      exact ⟨y, List.mem_cons_of_mem _ hy, hr⟩

theorem forall₂_iff_of_imp {α β : Type} {R S : α → β → Prop} {P : α → Prop}
    (h : ∀ x y, R x y → (S x y ↔ P x)) {xs : List α} {ys : List β} (hall : List.Forall₂ R xs ys) :
    List.Forall₂ S xs ys ↔ ∀ x ∈ xs, P x := by
  induction hall with
  | nil => simp
  | cons hfirst _ ih => simp [h _ _ hfirst, ih]

theorem find?_key_iff {α : Type} {key : α → String} {xs : List α} (hn : (xs.map key).Nodup)
    {k : String} {x : α} : xs.find? (key · == k) = some x ↔ x ∈ xs ∧ key x = k := by
  constructor
  · exact fun h => ⟨List.mem_of_find?_eq_some h, by simpa using List.find?_some h⟩
  · rintro ⟨hx, rfl⟩
    have hsome : (xs.find? (key · == key x)).isSome := List.find?_isSome.2 ⟨x, hx, by simp⟩
    obtain ⟨y, hy⟩ := Option.isSome_iff_exists.1 hsome
    have hkey : key y = key x := by simpa using List.find?_some hy
    rw [hy, List.inj_on_of_nodup_map hn (List.mem_of_find?_eq_some hy) hx hkey]

namespace Named

variable {α : Type}

def names (entries : List (Named α)) : List String :=
  entries.map (·.name)

@[simp] theorem names_nil : names ([] : List (Named α)) = [] := rfl

@[simp] theorem names_cons (entry : Named α) (rest : List (Named α)) :
    names (entry :: rest) = entry.name :: names rest := rfl

@[simp] theorem names_append (xs ys : List (Named α)) :
    names (xs ++ ys) = names xs ++ names ys := by
  simp [names]

theorem lookup_eq_none_iff {name : String} {entries : List (Named α)} :
    lookup name entries = none ↔ name ∉ names entries := by
  induction entries with
  | nil => simp [lookup]
  | cons entry rest ih =>
    rw [lookup]
    by_cases h : entry.name = name
    · simp [h]
    · simp [h, ih, Ne.symm h]

theorem lookup_append (name : String) (xs ys : List (Named α)) :
    lookup name (xs ++ ys) = (lookup name xs).or (lookup name ys) := by
  induction xs with
  | nil => simp [lookup]
  | cons entry rest ih =>
    rw [List.cons_append, lookup, lookup]
    by_cases h : entry.name = name
    · simp [h]
    · simp [h, ih]

theorem lookup_append_left {name : String} {ys : List (Named α)} (h : name ∉ names ys)
    (xs : List (Named α)) : lookup name (xs ++ ys) = lookup name xs := by
  rw [lookup_append, lookup_eq_none_iff.2 h, Option.or_none]

theorem lookup_append_right {name : String} {xs : List (Named α)} (h : name ∉ names xs)
    (ys : List (Named α)) : lookup name (xs ++ ys) = lookup name ys := by
  rw [lookup_append, lookup_eq_none_iff.2 h, Option.none_or]

theorem lookup_of_mem {name : String} {v : α} {entries : List (Named α)}
    (hn : (names entries).Nodup) (h : ⟨name, v⟩ ∈ entries) : lookup name entries = some v := by
  induction entries with
  | nil => simp at h
  | cons entry rest ih =>
    obtain ⟨hfresh, hrest⟩ := List.nodup_cons.1 hn
    rcases List.mem_cons.1 h with rfl | h
    · simp [lookup]
    · have hmem : name ∈ names rest := List.mem_map_of_mem h
      have hne : entry.name ≠ name := by
        rintro rfl
        exact hfresh hmem
      rw [lookup, if_neg hne, ih hrest h]

section Keyed

variable {β : Type} {key : β → String} {part : β → Option α} {xs : List β}

theorem lookup_filterMap_eq_none {name : String} (h : name ∉ xs.map key) :
    lookup name (xs.filterMap fun x => (part x).map (⟨key x, ·⟩)) = none := by
  refine lookup_eq_none_iff.2 fun hname => h ?_
  obtain ⟨entry, hentry, rfl⟩ := List.mem_map.1 hname
  obtain ⟨x, hx, hmade⟩ := List.mem_filterMap.1 hentry
  obtain ⟨v, _, rfl⟩ := Option.map_eq_some_iff.1 hmade
  exact List.mem_map_of_mem hx

theorem lookup_filterMap (hn : (xs.map key).Nodup) {x : β} (hx : x ∈ xs) :
    lookup (key x) (xs.filterMap fun x => (part x).map (⟨key x, ·⟩)) = part x := by
  induction xs with
  | nil => cases hx
  | cons y rest ih =>
    obtain ⟨hfresh, hrest⟩ := List.nodup_cons.1 hn
    rcases List.mem_cons.1 hx with rfl | hx
    · cases hpart : part x with
      | none =>
        rw [List.filterMap_cons_none (by rw [hpart]; rfl)]
        exact lookup_filterMap_eq_none hfresh
      | some v =>
        rw [List.filterMap_cons_some (by rw [hpart]; rfl), lookup, if_pos rfl]
    · have hne : key y ≠ key x := fun h => hfresh (h ▸ List.mem_map_of_mem hx)
      cases hpart : part y with
      | none =>
        rw [List.filterMap_cons_none (by rw [hpart]; rfl)]
        exact ih hrest hx
      | some v =>
        rw [List.filterMap_cons_some (by rw [hpart]; rfl), lookup, if_neg hne]
        exact ih hrest hx

end Keyed

theorem assign_append {name : String} {xs : List (Named α)} (h : name ∉ names xs) (v w : α)
    (ys : List (Named α)) : assign name v (xs ++ ⟨name, w⟩ :: ys) = xs ++ ⟨name, v⟩ :: ys := by
  induction xs with
  | nil => simp [assign]
  | cons entry rest ih =>
    rw [names_cons, List.mem_cons, not_or] at h
    rw [List.cons_append, assign, if_neg (Ne.symm h.1), ih h.2, List.cons_append]

theorem lookup_of_perm {name : String} {xs ys : List (Named α)} (hn : (names xs).Nodup) (h : xs.Perm ys) :
    lookup name xs = lookup name ys := by
  cases hx : lookup name xs with
  | some v => exact (lookup_of_mem ((h.map _).nodup hn) (h.mem_iff.1 (mem_of_lookup hx))).symm
  | none =>
    have hfresh : name ∉ names ys := fun hmem =>
      lookup_eq_none_iff.1 hx ((h.map (·.name)).mem_iff.2 hmem)
    exact (lookup_eq_none_iff.2 hfresh).symm

theorem lookup_insert_of_ne {name : String} {entry : Named α} (h : entry.name ≠ name)
    (before after : List (Named α)) :
    lookup name (before ++ entry :: after) = lookup name (before ++ after) := by
  rw [lookup_append, lookup_append, lookup, if_neg h]

theorem lookup_insert_of_mem {name : String} {entry : Named α} {before : List (Named α)}
    (h : entry.name ∈ names before) (after : List (Named α)) :
    lookup name (before ++ entry :: after) = lookup name (before ++ after) := by
  by_cases hname : entry.name = name
  · rw [lookup_append, lookup_append]
    cases hv : lookup name before with
    | some v => rfl
    | none => exact absurd (hname ▸ h) (lookup_eq_none_iff.1 hv)
  · exact lookup_insert_of_ne hname before after

@[simp] theorem names_assign (name : String) (v : α) (entries : List (Named α)) :
    names (assign name v entries) = names entries := by
  induction entries with
  | nil => rfl
  | cons entry rest ih =>
    rw [assign]
    split
    · next h => simp [h]
    · simp [ih]

theorem assign_assign (name : String) (v w : α) (entries : List (Named α)) :
    assign name v (assign name w entries) = assign name v entries := by
  induction entries with
  | nil => rfl
  | cons entry rest ih =>
    by_cases h : entry.name = name
    · simp [assign, h]
    · simp [assign, h, ih]

end Named
end RecordMapping
