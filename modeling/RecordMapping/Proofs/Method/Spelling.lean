import RecordMapping.Proofs.Method.Sorts
/-!
Spellings: which identifiers may mean a field of some name. There is a choice of case only, so that
of the runs of words from one place on no two mean fields of the same name.
-/
namespace RecordMapping

namespace Text

def Spells (name identifier : List Char) : Prop :=
  name = identifier ∨ name = decapitalize identifier ∨
    name.map asciiLower = identifier.map asciiLower

theorem lower_cases (c : Char) :
    (lower c).length = 1 ∨ c.toNat = 0x130 ∧ lower c = ['i', Char.ofNat 0x307] := by
  unfold lower
  dsimp only
  split
  · split <;> exact .inl rfl
  · split
    · next h => exact .inr ⟨h, rfl⟩
    · split <;> exact .inl rfl

theorem length_of_spells {c : Char} {name rest : List Char} (h : Spells name (c :: rest)) :
    name.length = rest.length + 1 ∨ name = lower c ++ rest := by
  rcases h with rfl | rfl | h
  · exact .inl rfl
  · exact .inr rfl
  · exact .inl (by simpa using congrArg List.length h)

theorem eq_nil_of_spells {name identifier more : List Char} (hne : identifier ≠ [])
    (h : Spells name identifier) (hmore : Spells name (identifier ++ more)) : more = [] := by
  cases identifier with
  | nil => exact absurd rfl hne
  | cons c rest =>
    rw [List.cons_append] at hmore
    rw [← List.length_eq_zero_iff]
    have hshort := length_of_spells h
    have hlong := length_of_spells hmore
    rcases lower_cases c with hlower | ⟨hc, hlower⟩
    · grind
    · -- a name as long as that of one more character would start with `i`, not with the capital
      have hdotted : name = lower c ++ rest → name = lower c ++ (rest ++ more) := by
        rintro rfl
        obtain rfl : Char.ofNat 0x130 = c := by rw [← hc, Char.ofNat_toNat]
        rw [hlower] at hmore
        rcases hmore with hmore | hmore | hmore
        · exact absurd (List.cons.inj hmore).1 (by decide)
        · exact hmore.trans (hlower ▸ rfl)
        · exact absurd (List.cons.inj hmore).1 (by decide)
      grind

end Text

namespace EntityMetadata

variable {m : EntityMetadata} {strict : Bool} {identifier : String} {f : FieldDescriptor}

theorem resolve?_of_strict (h : m.resolve? true identifier = some f) :
    m.resolve? strict identifier = some f := by
  cases strict with
  | true => exact h
  | false =>
    rw [resolve?] at h ⊢
    split at h
    · cases h
    · next hne =>
      rw [if_neg hne]
      rw [if_pos rfl, Option.or_none] at h
      rw [← Option.or_assoc, h, Option.some_or]

theorem spells_of_resolve? (h : m.resolve? strict identifier = some f) :
    identifier ≠ "" ∧ Text.Spells f.name.toList identifier.toList := by
  have hfield : ∀ {name : String}, m.field? name = some f → f.name = name := fun hf => by
    simpa using List.find?_some hf
  rw [resolve?] at h
  split at h
  · cases h
  · next hne =>
    refine ⟨hne, ?_⟩
    rcases Option.or_eq_some_iff.1 h with h | ⟨_, h⟩
    · exact .inl (congrArg String.toList (hfield h))
    · rcases Option.or_eq_some_iff.1 h with h | ⟨_, h⟩
      · exact .inr (.inl (by rw [hfield h, String.toList_ofList]))
      · split at h
        · cases h
        · have hsame := List.find?_some h
          exact .inr (.inr (by simpa [Text.sameIgnoringCase] using hsame))

end EntityMetadata

namespace Method

theorem toList_joined (words : List String) :
    (joined words).toList = words.flatMap String.toList :=
  String.toList_ofList

namespace Scope

variable {s t : Scope} {words : List String}

section Names

variable {f g : FieldDescriptor} {run other : List String}

theorem eq_nil_of_same_name {more : List String} (hf : s.resolve? (joined run) = some f)
    (hg : t.resolve? (joined (run ++ more)) = some g) (hname : f.name = g.name)
    (hmore : ∀ word ∈ more, word ≠ "") : more = [] := by
  obtain ⟨hne, hspells⟩ := EntityMetadata.spells_of_resolve? hf
  have hlonger := (EntityMetadata.spells_of_resolve? hg).2
  rw [← hname, toList_joined, List.flatMap_append, ← toList_joined] at hlonger
  have hnil := Text.eq_nil_of_spells (by simpa using hne) hspells hlonger
  cases more with
  | nil => rfl
  | cons word more =>
    rw [List.flatMap_cons, List.append_eq_nil_iff] at hnil
    exact absurd (by simpa using hnil.1) (hmore word List.mem_cons_self)

theorem run_eq_of_same_name (hwords : ∀ word ∈ words, word ≠ "") (hrun : run <+: words)
    (hother : other <+: words) (hf : s.resolve? (joined run) = some f)
    (hg : t.resolve? (joined other) = some g) (hname : f.name = g.name) : run = other := by
  rcases List.prefix_or_prefix_of_prefix hrun hother with ⟨more, rfl⟩ | ⟨more, rfl⟩
  · have hmore : ∀ word ∈ more, word ≠ "" := fun word hword =>
      hwords word (hother.subset (List.mem_append_right _ hword))
    rw [eq_nil_of_same_name hf hg hname hmore, List.append_nil]
  · have hmore : ∀ word ∈ more, word ≠ "" := fun word hword =>
      hwords word (hrun.subset (List.mem_append_right _ hword))
    rw [eq_nil_of_same_name hg hf hname.symm hmore, List.append_nil]

end Names

end Scope
end Method
end RecordMapping
