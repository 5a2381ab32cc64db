import Mathlib.Data.List.Infix
import RecordMapping.Store.Memory
/-!
What a pattern matches: the texts that it becomes when each percent sign is replaced. The matcher
takes the first place for every part of the pattern, and no match is lost by that: what is left of
the text is then as long as it can be.
-/
namespace RecordMapping

namespace Pattern

/-- Whether a text is a pattern with some run of characters, perhaps none, in place of each of its
percent signs. -/
inductive Expands : List Char → List Char → Prop
  | done : Expands [] []
  | char {c : Char} {pattern text : List Char} : c ≠ '%' → Expands pattern text →
    Expands (c :: pattern) (c :: text)
  | run {pattern text : List Char} (run : List Char) : Expands pattern text →
    Expands ('%' :: pattern) (run ++ text)

/-- Whether a text consists of some parts in order, with anything before each of them. -/
def Follows : List (List Char) → List Char → Prop
  | [], text => text = []
  | part :: others, text => ∃ run left, text = run ++ part ++ left ∧ Follows others left

variable {part text left more : List Char}

theorem expands_nil_iff : Expands [] text ↔ text = [] := by
  constructor
  · rintro ⟨⟩
    rfl
  · rintro rfl
    exact .done

theorem expands_percent_iff {pattern : List Char} :
    Expands ('%' :: pattern) text ↔ ∃ run left, text = run ++ left ∧ Expands pattern left := by
  constructor
  · intro h
    cases h with
    | char hc _ => exact absurd rfl hc
    | run run h => exact ⟨run, _, rfl, h⟩
  · rintro ⟨run, left, rfl, hleft⟩
    exact .run run hleft

theorem expands_char_iff {c : Char} (hc : c ≠ '%') {pattern : List Char} :
    Expands (c :: pattern) text ↔ ∃ left, text = c :: left ∧ Expands pattern left := by
  constructor
  · intro h
    cases h with
    | char _ h => exact ⟨_, rfl, h⟩
    | run _ _ => exact absurd rfl hc
  · rintro ⟨left, rfl, hleft⟩
    exact .char hc hleft

theorem parts_percent (pattern : List Char) : parts ('%' :: pattern) = [] :: parts pattern := by
  rw [parts, if_pos rfl]

theorem parts_char {c : Char} (hc : c ≠ '%') {pattern first : List Char} {others : List (List Char)}
    (h : parts pattern = first :: others) : parts (c :: pattern) = (c :: first) :: others := by
  rw [parts, if_neg hc, h]

theorem exists_parts (pattern : List Char) : ∃ first others, parts pattern = first :: others := by
  induction pattern with
  | nil => exact ⟨[], [], rfl⟩
  | cons c pattern ih =>
    obtain ⟨first, others, h⟩ := ih
    by_cases hc : c = '%'
    · subst hc
      exact ⟨[], parts pattern, parts_percent pattern⟩
    · exact ⟨c :: first, others, parts_char hc h⟩

theorem expands_iff {pattern first : List Char} {others : List (List Char)}
    (h : parts pattern = first :: others) :
    Expands pattern text ↔ ∃ left, text = first ++ left ∧ Follows others left := by
  induction pattern generalizing first others text with
  | nil =>
    obtain ⟨rfl, rfl⟩ := List.cons.inj h
    simp [expands_nil_iff, Follows]
  | cons c pattern ih =>
    obtain ⟨part, rest, hparts⟩ := exists_parts pattern
    by_cases hc : c = '%'
    · subst hc
      rw [parts_percent, hparts] at h
      obtain ⟨rfl, rfl⟩ := List.cons.inj h
      simp only [expands_percent_iff, ih hparts, List.nil_append, Follows]
      constructor
      · rintro ⟨run, _, rfl, left, rfl, hleft⟩
        exact ⟨_, rfl, run, left, (List.append_assoc ..).symm, hleft⟩
      · rintro ⟨_, rfl, run, left, rfl, hleft⟩
        exact ⟨run, part ++ left, List.append_assoc .., left, rfl, hleft⟩
    · rw [parts_char hc hparts] at h
      obtain ⟨rfl, rfl⟩ := List.cons.inj h
      simp only [expands_char_iff hc, ih hparts]
      constructor
      · rintro ⟨_, rfl, left, rfl, hleft⟩
        exact ⟨left, rfl, hleft⟩
      · rintro ⟨left, rfl, hleft⟩
        exact ⟨part ++ left, rfl, left, rfl, hleft⟩

theorem exists_of_after? (h : after? part text = some left) : ∃ run, text = run ++ part ++ left := by
  induction text with
  | nil =>
    rw [after?] at h
    split at h
    · next hpart =>
      obtain rfl := Option.some.inj h
      exact ⟨[], by simpa using hpart⟩
    · cases h
  | cons c rest ih =>
    rw [after?] at h
    split at h
    · next found hfound =>
      obtain rfl := Option.some.inj h
      exact ⟨[], (List.isPrefixOf?_eq_some_iff_append_eq.1 hfound).symm⟩
    · obtain ⟨run, rfl⟩ := ih h
      exact ⟨c :: run, rfl⟩

theorem after?_leftmost {run : List Char} (h : text = run ++ part ++ more) :
    ∃ left, after? part text = some left ∧ more <:+ left := by
  induction text generalizing run with
  | nil =>
    simp only [List.nil_eq, List.append_eq_nil_iff] at h
    obtain ⟨⟨rfl, rfl⟩, rfl⟩ := h
    exact ⟨[], rfl, List.suffix_rfl⟩
  | cons c rest ih =>
    rw [after?]
    split
    · next left hleft =>
      have hsplit := List.isPrefixOf?_eq_some_iff_append_eq.1 hleft
      refine ⟨left, rfl, List.suffix_of_suffix_length_le ⟨_, h.symm⟩ ⟨_, hsplit⟩ ?_⟩
      have hlength := congrArg List.length (hsplit.trans h)
      simp only [List.length_append] at hlength
      omega
    · next hnone =>
      cases run with
      | nil =>
        rw [List.nil_append] at h
        cases hnone.symm.trans (List.isPrefixOf?_eq_some_iff_append_eq.2 h.symm)
      | cons d run =>
        obtain ⟨_, rfl⟩ := List.cons.inj h
        exact ih rfl

theorem Follows.of_suffix {others : List (List Char)} (h : Follows (part :: others) more)
    (hsuffix : more <:+ left) : Follows (part :: others) left := by
  obtain ⟨before, rfl⟩ := hsuffix
  obtain ⟨run, rest, rfl, hrest⟩ := h
  exact ⟨before ++ run, rest, by simp, hrest⟩

theorem matchesRest_cons_cons (part next : List Char) (others : List (List Char))
    (text : List Char) : matchesRest (part :: next :: others) text =
      (after? part text).any (matchesRest (next :: others)) := by
  simp only [matchesRest]
  cases after? part text <;> rfl

/-- Taking the first place for every part loses no match. -/
theorem matchesRest_iff {others : List (List Char)} :
    matchesRest others text = true ↔ Follows others text := by
  induction others generalizing text with
  | nil => simp [matchesRest, Follows]
  | cons part others ih =>
    cases others with
    | nil =>
      rw [matchesRest, List.isSuffixOf_iff_suffix, Follows]
      constructor
      · rintro ⟨run, rfl⟩
        exact ⟨run, [], by simp, rfl⟩
      · rintro ⟨run, _, rfl, rfl⟩
        exact ⟨run, by simp⟩
    | cons next others =>
      rw [matchesRest_cons_cons]
      constructor
      · intro h
        obtain ⟨left, hleft, hrest⟩ := (Option.any_eq_true ..).1 h
        obtain ⟨run, rfl⟩ := exists_of_after? hleft
        exact ⟨run, left, rfl, ih.1 hrest⟩
      · rintro ⟨run, more, htext, hmore⟩
        obtain ⟨left, hleft, hsuffix⟩ := after?_leftmost htext
        rw [hleft]
        exact ih.2 (hmore.of_suffix hsuffix)

theorem expands_append_iff {first rest : List Char} (hfirst : '%' ∉ first) :
    Expands (first ++ rest) text ↔ ∃ left, text = first ++ left ∧ Expands rest left := by
  induction first generalizing text with
  | nil => simp
  | cons c first ih =>
    obtain ⟨hc, hfirst⟩ := not_or.1 (mt List.mem_cons.2 hfirst)
    simp only [List.cons_append, expands_char_iff (Ne.symm hc), ih hfirst]
    constructor
    · rintro ⟨_, rfl, left, rfl, hleft⟩
      exact ⟨left, rfl, hleft⟩
    · rintro ⟨left, rfl, hleft⟩
      exact ⟨first ++ left, rfl, left, rfl, hleft⟩

theorem expands_self_iff {pattern : List Char} (h : '%' ∉ pattern) :
    Expands pattern text ↔ text = pattern := by
  have hpattern : Expands (pattern ++ []) text ↔ _ := expands_append_iff h
  rw [List.append_nil] at hpattern
  simp [hpattern, expands_nil_iff]

theorem expands_ends_iff {first last : List Char} (hfirst : '%' ∉ first) (hlast : '%' ∉ last) :
    Expands (first ++ '%' :: last) text ↔
      first <+: text ∧ last <:+ text ∧ first.length + last.length ≤ text.length := by
  simp only [expands_append_iff hfirst, expands_percent_iff, expands_self_iff hlast]
  constructor
  · rintro ⟨_, rfl, run, _, rfl, rfl⟩
    refine ⟨⟨_, rfl⟩, ⟨first ++ run, by simp⟩, ?_⟩
    simp only [List.length_append]
    omega
  · rintro ⟨⟨left, rfl⟩, hsuffix, hlength⟩
    have hleft : last <:+ left := by
      refine List.suffix_of_suffix_length_le hsuffix (List.suffix_append first left) ?_
      rw [List.length_append] at hlength
      omega
    obtain ⟨run, rfl⟩ := hleft
    exact ⟨_, rfl, run, last, rfl, rfl⟩

end Pattern

open Pattern

theorem matchesPattern_of_parts {pattern : String} {first part : List Char}
    {others : List (List Char)} (h : parts pattern.toList = first :: part :: others)
    (text : String) : matchesPattern text pattern =
      (first.isPrefixOf? text.toList).any (matchesRest (part :: others)) := by
  rw [matchesPattern, h]
  dsimp only
  cases first.isPrefixOf? text.toList <;> rfl

theorem matchesPattern_iff_expands (text pattern : String) :
    matchesPattern text pattern = true ↔ Expands pattern.toList text.toList := by
  obtain ⟨first, others, hparts⟩ := exists_parts pattern.toList
  rw [expands_iff hparts]
  cases others with
  | nil => simp [matchesPattern, hparts, Follows]
  | cons part others =>
    rw [matchesPattern_of_parts hparts, Option.any_eq_true]
    refine exists_congr fun left => and_congr ?_ matchesRest_iff
    rw [List.isPrefixOf?_eq_some_iff_append_eq, eq_comm]

theorem Memory.holds_like_iff {value : Option Value} {operand : Value} :
    holds value operand .like = true ↔ ∃ text pattern, value = some (.text text) ∧
      operand = .text pattern ∧ matchesPattern text pattern = true := by
  rw [holds.eq_def]
  constructor
  · intro h
    dsimp only at h
    split at h
    · exact ⟨_, _, rfl, rfl, h⟩
    · cases h
  · rintro ⟨text, pattern, rfl, rfl, h⟩
    exact h

/-- A pattern matches just the texts that it becomes when every percent sign is replaced by some
run of characters, and nothing that is no text. Without a percent sign that is only the pattern
itself, and with one between two ends neither end may use characters of the other. -/
theorem like_matches_expansions :
    (∀ text pattern, matchesPattern text pattern = true ↔
      Expands pattern.toList text.toList) ∧
    (∀ value operand, Memory.holds value operand .like = true ↔
      ∃ text pattern, value = some (.text text) ∧ operand = .text pattern ∧
        Expands pattern.toList text.toList) ∧
    (∀ text pattern : String, '%' ∉ pattern.toList →
      (matchesPattern text pattern = true ↔ text = pattern)) ∧
    ∀ text first last : String, '%' ∉ first.toList → '%' ∉ last.toList →
      (matchesPattern text (first ++ "%" ++ last) = true ↔ first.toList <+: text.toList ∧
        last.toList <:+ text.toList ∧ first.length + last.length ≤ text.length) := by
  refine ⟨matchesPattern_iff_expands, fun value operand => ?_, fun text pattern h => ?_,
    fun text first last hfirst hlast => ?_⟩
  · simp only [Memory.holds_like_iff, matchesPattern_iff_expands]
  · rw [matchesPattern_iff_expands, expands_self_iff h, String.toList_inj]
  · have hpattern : (first ++ "%" ++ last).toList = first.toList ++ '%' :: last.toList := by simp
    rw [matchesPattern_iff_expands, hpattern, expands_ends_iff hfirst hlast]
    simp only [String.length_toList]

/-- Two ends that would need the same characters find no place, and the middle of a pattern is
found though its first place is not the last one. -/
theorem ends_stand_apart :
    matchesPattern "aba" ("ab" ++ "%" ++ "ba") = false ∧
    matchesPattern "abba" ("ab" ++ "%" ++ "ba") = true ∧
    matchesPattern "abab" "ab" = false ∧
    matchesPattern "xabcab!" "%ab%b!" = true := by
  obtain ⟨hexpands, _, hself, hends⟩ := like_matches_expansions
  have hab : '%' ∉ "ab".toList := by decide
  have hba : '%' ∉ "ba".toList := by decide
  refine ⟨Bool.eq_false_iff.2 fun h => ?_, (hends "abba" "ab" "ba" hab hba).2 (by decide),
    Bool.eq_false_iff.2 fun h => ?_, (hexpands "xabcab!" "%ab%b!").2 ?_⟩
  · exact absurd ((hends "aba" "ab" "ba" hab hba).1 h) (by decide)
  · exact absurd ((hself "abab" "ab" hab).1 h) (by decide)
  · exact .run ['x'] (.char (by decide) (.char (by decide) (.run ['c', 'a']
      (.char (by decide) (.char (by decide) .done)))))

end RecordMapping
