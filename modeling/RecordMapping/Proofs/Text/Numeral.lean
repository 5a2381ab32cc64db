import Mathlib.Tactic.Cases
import RecordMapping.Text.Numeral
/-!
The texts that are integers: digits after an optional sign. What is read from a text is what its
numeral denotes.
-/
namespace RecordMapping.Text

def AreDigits (cs : List Char) : Prop :=
  cs ≠ [] ∧ ∀ c ∈ cs, isDigit c = true

/-- Whether characters are a decimal numeral of an integer. -/
inductive Numeral : List Char → Int → Prop
  | plain {ds : List Char} : AreDigits ds → Numeral ds (valueOf ds)
  | plus {ds : List Char} : AreDigits ds → Numeral ('+' :: ds) (valueOf ds)
  | minus {ds : List Char} : AreDigits ds → Numeral ('-' :: ds) (-valueOf ds)

variable {cs ds : List Char}

theorem natural?_eq_some_iff {n : Nat} : natural? cs = some n ↔ AreDigits cs ∧ valueOf cs = n := by
  simp [natural?, AreDigits]

theorem natural?_of_areDigits (h : AreDigits ds) : natural? ds = some (valueOf ds) :=
  natural?_eq_some_iff.2 ⟨h, rfl⟩

theorem AreDigits.head?_ne (h : AreDigits ds) {c : Char} (hc : isDigit c = false) :
    ds.head? ≠ some c := by
  intro hhead
  rw [h.2 c (List.mem_of_head? hhead)] at hc
  cases hc

theorem integer?_eq_some_iff {n : Int} : integer? cs = some n ↔ Numeral cs n := by
  constructor
  · intro h
    rw [integer?.eq_def] at h
    split at h
    · obtain ⟨_, hk, rfl⟩ := Option.map_eq_some_iff.1 h
      obtain ⟨k, hnatural, hcast⟩ := Option.bind_eq_some_iff.1 hk
      obtain rfl := Option.some.inj hcast
      obtain ⟨hds, rfl⟩ := natural?_eq_some_iff.1 hnatural
      exact .minus hds
    · obtain ⟨k, hk, rfl⟩ := Option.map_eq_some_iff.1 h
      obtain ⟨hds, rfl⟩ := natural?_eq_some_iff.1 hk
      exact .plus hds
    · obtain ⟨k, hk, rfl⟩ := Option.map_eq_some_iff.1 h
      obtain ⟨hds, rfl⟩ := natural?_eq_some_iff.1 hk
      exact .plain hds
  · rintro (hds | hds | hds)
    · rw [integer?, natural?_of_areDigits hds]
      · rfl
      · rintro _ rfl
        exact hds.head?_ne (c := '-') rfl rfl
      · rintro _ rfl
        exact hds.head?_ne (c := '+') rfl rfl
    · rw [integer?, natural?_of_areDigits hds]
      rfl
    · rw [integer?, natural?_of_areDigits hds]
      rfl

theorem unsigned?_eq_some_iff {n : Nat} :
    unsigned? cs = some n ↔ Numeral cs n ∧ cs.head? ≠ some '-' := by
  constructor
  · intro h
    rw [unsigned?.eq_def] at h
    split at h
    · obtain ⟨hds, rfl⟩ := natural?_eq_some_iff.1 h
      exact ⟨.plus hds, by simp⟩
    · obtain ⟨hds, rfl⟩ := natural?_eq_some_iff.1 h
      exact ⟨.plain hds, hds.head?_ne rfl⟩
  · rintro ⟨h, hhead⟩
    generalize hk : (n : Int) = k at h
    rcases h with hds | hds | hds
    · obtain rfl := Int.ofNat.inj hk
      rw [unsigned?, natural?_of_areDigits hds]
      rintro _ rfl
      exact hds.head?_ne (c := '+') rfl rfl
    · obtain rfl := Int.ofNat.inj hk
      exact natural?_of_areDigits hds
    · exact absurd rfl hhead

end RecordMapping.Text
