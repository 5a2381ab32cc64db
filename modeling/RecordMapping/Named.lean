/-!
Lists of named things, in order and with repetitions. A name stands for the first entry that
carries it.
-/
namespace RecordMapping

structure Named (α : Type) where
  name : String
  value : α
deriving DecidableEq

namespace Named

variable {α : Type}

/-- What the first entry of that name holds. -/
def lookup (name : String) : List (Named α) → Option α
  | [] => none
  | entry :: rest => if entry.name = name then some entry.value else lookup name rest

def assign (name : String) (value : α) : List (Named α) → List (Named α)
  | [] => []
  | entry :: rest =>
    if entry.name = name then ⟨name, value⟩ :: rest else entry :: assign name value rest

theorem mem_of_lookup {name : String} {v : α} {entries : List (Named α)}
    (h : lookup name entries = some v) : ⟨name, v⟩ ∈ entries := by
  induction entries with
  | nil => simp [lookup] at h
  | cons entry rest ih =>
    rw [lookup] at h
    split at h
    · next hn =>
      obtain rfl := hn
      obtain rfl := Option.some.inj h
      exact List.mem_cons_self
    · exact List.mem_cons_of_mem entry (ih h)

theorem lookup_assign_self {name : String} {v w : α} {entries : List (Named α)}
    (h : lookup name entries = some w) : lookup name (assign name v entries) = some v := by
  induction entries with
  | nil => simp [lookup] at h
  | cons entry rest ih =>
    rw [lookup] at h
    rw [assign]
    split at h
    · next hn => simp [hn, lookup]
    · next hn => simp [hn, lookup, ih h]

theorem lookup_assign_of_ne {name other : String} {v : α} {entries : List (Named α)}
    (hne : other ≠ name) : lookup other (assign name v entries) = lookup other entries := by
  induction entries with
  | nil => rfl
  | cons entry rest ih =>
    rw [assign]
    split
    · next hn => simp [lookup, hn, hne.symm]
    · simp [lookup, ih]

end Named
end RecordMapping
