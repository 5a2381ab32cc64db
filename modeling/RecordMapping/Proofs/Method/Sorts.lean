import RecordMapping.Proofs.Method.Parsing
/-!
Orderings are read by taking as much as possible: at each word the longest run of words that is a
field, and the direction after it if there is one. Nothing is skipped or read twice. A round takes
at least one word, so that it comes to an end, and the words of the first round that finds no field
are the error.
-/
namespace RecordMapping.Method

def direction? (word : String) : Option Direction :=
  if word = "Desc" then some .descending else if word = "Asc" then some .ascending else none

/-- What one round takes: the words of a field, and the direction after them if there is one. -/
structure Munch where
  run : List String
  field : FieldDescriptor
  mark : Option Direction

namespace Munch

def words (t : Munch) : List String :=
  t.run ++ (t.mark.map Wording.direction).toList

def sort (t : Munch) : FieldSort :=
  ⟨t.field.name, t.field.nativeName, t.mark.getD .ascending⟩

end Munch

namespace Scope

variable {s : Scope}

/-- Whether no run of words at the beginning is a field. -/
def Stuck (s : Scope) (words : List String) : Prop :=
  ∀ run, run <+: words → s.resolve? (joined run) = none

/-- Whether one round takes the longest run at the beginning that is a field, and a direction if the
next word is one. -/
structure Takes (s : Scope) (words : List String) (t : Munch) (rest : List String) : Prop where
  split : words = t.words ++ rest
  field : s.resolve? (joined t.run) = some t.field
  longest : ∀ run, run <+: words → t.run.length < run.length → s.resolve? (joined run) = none
  mark : t.mark = none → ∀ word ∈ rest.head?, direction? word = none

/-- Any number of rounds, what they take, and the words that they leave. -/
inductive Munches (s : Scope) : List String → List Munch → List String → Prop
  | done {words : List String} : Munches s words [] words
  | round {words rest left : List String} {t : Munch} {later : List Munch} :
    s.Takes words t rest → Munches s rest later left → Munches s words (t :: later) left

theorem resolve?_empty : s.resolve? (joined []) = none := by
  rw [resolve?, EntityMetadata.resolve?]
  exact if_pos rfl

theorem ne_nil_of_resolve? {run : List String} {f : FieldDescriptor}
    (h : s.resolve? (joined run) = some f) : run ≠ [] := by
  rintro rfl
  rw [resolve?_empty] at h
  cases h

section Rounds

variable {words rest left : List String} {t : Munch} {taken : List Munch}

theorem Takes.length_lt (h : s.Takes words t rest) : rest.length < words.length := by
  have hrun := List.length_pos_iff.2 (ne_nil_of_resolve? h.field)
  rw [h.split, Munch.words, List.length_append, List.length_append]
  omega

theorem Munches.words_eq (h : s.Munches words taken left) :
    taken.flatMap Munch.words ++ left = words := by
  induction h with
  | done => rfl
  | round htakes _ ih => rw [List.flatMap_cons, List.append_assoc, ih, htakes.split]

theorem Munches.length_add_le (h : s.Munches words taken left) :
    taken.length + left.length ≤ words.length := by
  induction h with
  | done => simp
  | round htakes _ ih =>
    have hless := htakes.length_lt
    rw [List.length_cons]
    omega

theorem direction_injective : Function.Injective Wording.direction := by
  intro d d' h
  cases d <;> cases d' <;> simp_all [Wording.direction]

theorem direction_of_mark (h : t.mark = none → ∀ word ∈ rest.head?, direction? word = none) :
    direction ((t.mark.map Wording.direction).toList ++ rest) =
      (t.mark.getD .ascending, rest) := by
  cases hmark : t.mark with
  | some d => exact direction_words d rest
  | none =>
    have hnone := h hmark
    rw [Option.map_none, Option.toList_none, List.nil_append]
    unfold direction
    split
    · exact absurd (hnone "Desc" rfl) (by decide)
    · exact absurd (hnone "Asc" rfl) (by decide)
    · rfl

theorem exists_mark (after : List String) : ∃ (mark : Option Direction) (rest : List String),
    after = (mark.map Wording.direction).toList ++ rest ∧
      (mark = none → ∀ word ∈ rest.head?, direction? word = none) := by
  cases after with
  | nil => exact ⟨none, [], rfl, by simp⟩
  | cons word rest =>
    by_cases hdesc : word = "Desc"
    · exact ⟨some .descending, rest, by simp [Wording.direction, hdesc], by simp⟩
    · by_cases hasc : word = "Asc"
      · exact ⟨some .ascending, rest, by simp [Wording.direction, hasc], by simp⟩
      · exact ⟨none, word :: rest, rfl, by simp [direction?, hdesc, hasc]⟩

theorem longestField?_eq_none_iff {taken : List String} : s.longestField? taken words = none ↔
    ∀ run, run <+: words → run ≠ [] → s.resolve? (joined (taken ++ run)) = none := by
  refine ⟨fun h => ?_, longestField?_eq_none⟩
  induction words generalizing taken with
  | nil => exact fun run hrun hne => absurd (List.prefix_nil.1 hrun) hne
  | cons word words ih =>
    rw [longestField?, Option.or_eq_none_iff, Option.map_eq_none_iff] at h
    intro run hrun hne
    cases run with
    | nil => exact absurd rfl hne
    | cons first run =>
      obtain ⟨rfl, hshort⟩ := List.cons_prefix_cons.1 hrun
      by_cases hmore : run = []
      · rw [hmore]
        exact h.2
      · rw [List.append_cons]
        exact ih h.1 run hshort hmore

theorem stuck_iff : s.Stuck words ↔ s.longestField? [] words = none := by
  rw [longestField?_eq_none_iff]
  refine ⟨fun h run hrun _ => h run hrun, fun h run hrun => ?_⟩
  by_cases hne : run = []
  · rw [hne]
    exact resolve?_empty
  · exact h run hrun hne

theorem exists_of_longestField? {taken : List String} {f : FieldDescriptor}
    (h : s.longestField? taken words = some (f, rest)) : ∃ run, words = run ++ rest ∧
      s.resolve? (joined (taken ++ run)) = some f ∧
      ∀ more, more <+: words → run.length < more.length →
        s.resolve? (joined (taken ++ more)) = none := by
  induction words generalizing taken with
  | nil => cases h
  | cons word words ih =>
    rw [longestField?, Option.or_eq_some_iff] at h
    rcases h with h | ⟨hnone, h⟩
    · obtain ⟨run, rfl, hfield, hlongest⟩ := ih h
      refine ⟨word :: run, rfl, by rwa [List.append_cons], fun more hmore hlength => ?_⟩
      cases more with
      | nil => simp at hlength
      | cons first more =>
        obtain ⟨rfl, hshort⟩ := List.cons_prefix_cons.1 hmore
        rw [List.append_cons]
        exact hlongest more hshort (Nat.lt_of_succ_lt_succ hlength)
    · obtain ⟨g, hfield, heq⟩ := Option.map_eq_some_iff.1 h
      obtain ⟨rfl, rfl⟩ := Prod.mk.inj heq
      refine ⟨[word], rfl, hfield, fun more hmore hlength => ?_⟩
      cases more with
      | nil => simp at hlength
      | cons first more =>
        obtain ⟨rfl, hshort⟩ := List.cons_prefix_cons.1 hmore
        have hne : more ≠ [] := List.length_pos_iff.1 (Nat.lt_of_succ_lt_succ hlength)
        rw [List.append_cons]
        exact longestField?_eq_none_iff.1 hnone more hshort hne

theorem Takes.run_prefix (h : s.Takes words t rest) : t.run <+: words := by
  rw [h.split, Munch.words, List.append_assoc]
  exact List.prefix_append _ _

theorem Takes.unique {t' : Munch} {rest' : List String} (h : s.Takes words t rest)
    (h' : s.Takes words t' rest') : t = t' ∧ rest = rest' := by
  -- Both runs are at the beginning, and neither is longer than the other.
  have hle : ∀ {u u' : Munch} {r r' : List String}, s.Takes words u r → s.Takes words u' r' →
      u.run.length ≤ u'.run.length := by
    intro u u' r r' hu hu'
    by_contra hless
    have hnone := hu'.longest u.run hu.run_prefix (Nat.lt_of_not_le hless)
    rw [hu.field] at hnone
    cases hnone
  have hrun : t.run = t'.run :=
    (List.prefix_of_prefix_length_le h.run_prefix h'.run_prefix (hle h h')).eq_of_length
      (Nat.le_antisymm (hle h h') (hle h' h))
  have hfield : t.field = t'.field := by
    have hsame := h.field
    rw [hrun, h'.field] at hsame
    exact (Option.some.inj hsame).symm
  have hafter : (t.mark.map Wording.direction).toList ++ rest =
      (t'.mark.map Wording.direction).toList ++ rest' := by
    have hsplit := h.split.symm.trans h'.split
    rw [Munch.words, Munch.words, hrun, List.append_assoc, List.append_assoc] at hsplit
    exact List.append_cancel_left hsplit
  have hdirection := congrArg direction hafter
  rw [direction_of_mark h.mark, direction_of_mark h'.mark] at hdirection
  obtain rfl : rest = rest' := (Prod.mk.inj hdirection).2
  have hmark : t.mark = t'.mark := by
    have hwords := List.append_cancel_right hafter
    cases ht : t.mark <;> cases ht' : t'.mark <;> simp_all [direction_injective.eq_iff]
  obtain ⟨run, field, mark⟩ := t
  obtain ⟨run', field', mark'⟩ := t'
  exact ⟨by simp_all, rfl⟩

theorem exists_takes (h : ¬s.Stuck words) : ∃ t rest, s.Takes words t rest := by
  cases hfound : s.longestField? [] words with
  | none => exact absurd (stuck_iff.2 hfound) h
  | some found =>
    obtain ⟨f, after⟩ := found
    obtain ⟨run, rfl, hfield, hlongest⟩ := exists_of_longestField? hfound
    obtain ⟨mark, rest, rfl, hmark⟩ := exists_mark after
    exact ⟨⟨run, f, mark⟩, rest, (List.append_assoc _ _ _).symm, hfield, hlongest, hmark⟩

theorem exists_munches (s : Scope) (words : List String) :
    ∃ taken left, s.Munches words taken left ∧ s.Stuck left := by
  by_cases h : s.Stuck words
  · exact ⟨[], words, .done, h⟩
  · obtain ⟨t, rest, htakes⟩ := exists_takes h
    have := htakes.length_lt
    obtain ⟨taken, left, hmunches, hstuck⟩ := exists_munches s rest
    exact ⟨t :: taken, left, .round htakes hmunches, hstuck⟩
termination_by words.length

theorem Takes.longestField?_eq (h : s.Takes words t rest) : s.longestField? [] words =
    some (t.field, (t.mark.map Wording.direction).toList ++ rest) := by
  have hwords := h.split
  rw [Munch.words, List.append_assoc] at hwords
  rw [hwords]
  refine longestField?_append (ne_nil_of_resolve? h.field) h.field fun more hmore hne => ?_
  refine h.longest _ ?_ ?_
  · rw [hwords, List.nil_append]
    exact (List.prefix_append_right_inj _).2 hmore
  · rw [List.nil_append, List.length_append]
    exact Nat.lt_add_of_pos_right (List.length_pos_iff.2 hne)

/-- What rounds take comes first in the result, and what they leave decides the rest. -/
theorem Munches.fieldSorts_eq (h : s.Munches words taken left) :
    s.fieldSorts words = (s.fieldSorts left).map (taken.map Munch.sort ++ ·) := by
  induction h with
  | @done words => cases s.fieldSorts words <;> rfl
  | @round words rest left t later htakes _ ih =>
    rw [fieldSorts_of_longestField? htakes.longestField?_eq, direction_of_mark htakes.mark, ih]
    cases s.fieldSorts left <;> rfl

theorem Stuck.fieldSorts_eq (h : s.Stuck words) (hne : words ≠ []) :
    s.fieldSorts words = .error (s.unknownField (joined words)) := by
  cases words with
  | nil => exact absurd rfl hne
  | cons word rest =>
    rw [fieldSorts]
    split
    · rfl
    · next f after hsome => exact absurd ((stuck_iff.1 h).symm.trans hsome) (by simp)

theorem Munches.fieldSorts_eq_ok (h : s.Munches words taken []) :
    s.fieldSorts words = .ok (taken.map Munch.sort) := by
  rw [h.fieldSorts_eq, fieldSorts, Except.map, List.append_nil]

theorem Munches.fieldSorts_eq_error (h : s.Munches words taken left) (hstuck : s.Stuck left)
    (hne : left ≠ []) : s.fieldSorts words = .error (s.unknownField (joined left)) := by
  rw [h.fieldSorts_eq, hstuck.fieldSorts_eq hne, Except.map]

theorem fieldSorts_eq_ok_iff {sorts : List FieldSort} : s.fieldSorts words = .ok sorts ↔
    ∃ taken, s.Munches words taken [] ∧ taken.map Munch.sort = sorts := by
  constructor
  · intro h
    obtain ⟨taken, left, hmunches, hstuck⟩ := s.exists_munches words
    by_cases hleft : left = []
    · subst hleft
      exact ⟨taken, hmunches, Except.ok.inj (hmunches.fieldSorts_eq_ok.symm.trans h)⟩
    · rw [hmunches.fieldSorts_eq_error hstuck hleft] at h
      cases h
  · rintro ⟨taken, hmunches, rfl⟩
    exact hmunches.fieldSorts_eq_ok

theorem fieldSorts_eq_error_iff {e : QueryError} : s.fieldSorts words = .error e ↔
    ∃ taken left, s.Munches words taken left ∧ s.Stuck left ∧ left ≠ [] ∧
      e = s.unknownField (joined left) := by
  constructor
  · intro h
    obtain ⟨taken, left, hmunches, hstuck⟩ := s.exists_munches words
    by_cases hleft : left = []
    · subst hleft
      rw [hmunches.fieldSorts_eq_ok] at h
      cases h
    · rw [hmunches.fieldSorts_eq_error hstuck hleft] at h
      exact ⟨taken, left, hmunches, hstuck, hleft, (Except.error.inj h).symm⟩
  · rintro ⟨taken, left, hmunches, hstuck, hne, rfl⟩
    exact hmunches.fieldSorts_eq_error hstuck hne

end Rounds

/-- Rounds of taking the longest run that is a field end after at most as many as there are words.
They lose nothing. An ordering is read exactly if they take all words, each round giving one sort,
and otherwise all words that the last of them leaves are said to be no field. -/
theorem fieldSorts_maximal_munch (s : Scope) (words : List String) :
    (∃ taken left, s.Munches words taken left ∧ s.Stuck left) ∧
    (∀ taken left, s.Munches words taken left →
      taken.flatMap Munch.words ++ left = words ∧ taken.length + left.length ≤ words.length) ∧
    (∀ sorts, s.fieldSorts words = .ok sorts ↔
      ∃ taken, s.Munches words taken [] ∧ taken.map Munch.sort = sorts) ∧
    ∀ e, s.fieldSorts words = .error e ↔ ∃ taken left, s.Munches words taken left ∧
      s.Stuck left ∧ left ≠ [] ∧ e = s.unknownField (joined left) :=
  ⟨s.exists_munches words, fun _ _ h => ⟨h.words_eq, h.length_add_le⟩,
    fun _ => fieldSorts_eq_ok_iff, fun _ => fieldSorts_eq_error_iff⟩

/-- A longer field is found before a shorter one, and the words after it are left as they are. -/
example :
    let metadata : EntityMetadata :=
      ⟨"members", "Member", [.plain "name", .plain "nameAge", .plain "age"], none⟩
    Scope.longestField? ⟨"findAllOrderByNameAgeAgeDesc", metadata, false⟩ []
      ["Name", "Age", "Age", "Desc"] = some (.plain "nameAge", ["Age", "Desc"]) := by
  decide

end Scope
end RecordMapping.Method
