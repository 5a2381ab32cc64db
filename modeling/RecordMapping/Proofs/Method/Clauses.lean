import RecordMapping.Proofs.Method.Sorts
/-!
How one clause is read: as a field with the words of an operator after it, or else as a field that
is compared for equality. The words of no operator end those of another one, so that there is only
one of them to be tried.
-/
namespace RecordMapping.Method.Scope

variable {s : Scope} {words : List String} {k : Connector} {c : Clause} {f : FieldDescriptor}
  {op : Operator}

/-- Whether words are a field and the words of an operator. They are a field alone, which is
compared for equality, only if the words of an operator follow no other field. -/
structure ReadsAs (s : Scope) (words : List String) (f : FieldDescriptor) (op : Operator) :
    Prop where
  field : ∃ stem, words = stem ++ Wording.suffixWords op ∧ s.resolve? (joined stem) = some f
  alone : op = .equals → ∀ other stem, other ≠ .equals →
    words = stem ++ Wording.suffixWords other → s.resolve? (joined stem) = none

theorem stem?_eq_some_iff {suffix stem : List String} :
    stem? words suffix = some stem ↔ stem ≠ [] ∧ words = stem ++ suffix := by
  refine ⟨fun h => ?_, fun ⟨hne, hwords⟩ => hwords ▸ stem?_append hne suffix⟩
  rw [stem?] at h
  split at h
  · next hlength =>
    obtain ⟨rest, hrest, rfl⟩ := Option.map_eq_some_iff.1 h
    rw [List.isPrefixOf?_eq_some_iff_append_eq] at hrest
    have hwords : words = rest.reverse ++ suffix := by
      rw [← List.reverse_reverse words, ← hrest, List.reverse_append, List.reverse_reverse]
    refine ⟨?_, hwords⟩
    rintro hnil
    rw [hwords, hnil, List.nil_append] at hlength
    exact lt_irrefl _ hlength
  · cases h

def ReadsAmong (s : Scope) (words : List String) (entries : List (List String × Operator))
    (f : FieldDescriptor) (op : Operator) : Prop :=
  (∃ e ∈ entries, e.2 = op ∧ ∃ stem, words = stem ++ e.1 ∧ s.resolve? (joined stem) = some f) ∨
  op = .equals ∧ s.resolve? (joined words) = some f ∧
    ∀ e ∈ entries, ∀ stem, words = stem ++ e.1 → s.resolve? (joined stem) = none

section Entries

variable {suffix : List String} {other : Operator} {entries : List (List String × Operator)}

theorem readsAmong_cons_of_none
    (h : ∀ stem, words = stem ++ suffix → s.resolve? (joined stem) = none) :
    s.ReadsAmong words ((suffix, other) :: entries) f op ↔ s.ReadsAmong words entries f op := by
  have hfound : (∃ e ∈ (suffix, other) :: entries, e.2 = op ∧ ∃ stem, words = stem ++ e.1 ∧
        s.resolve? (joined stem) = some f) ↔
      ∃ e ∈ entries, e.2 = op ∧ ∃ stem, words = stem ++ e.1 ∧
        s.resolve? (joined stem) = some f := by
    constructor
    · rintro ⟨e, he, hop, stem, hwords, hf⟩
      rcases List.mem_cons.1 he with rfl | he
      · rw [h stem hwords] at hf
        cases hf
      · exact ⟨e, he, hop, stem, hwords, hf⟩
    · rintro ⟨e, he, hread⟩
      exact ⟨e, List.mem_cons_of_mem _ he, hread⟩
  rw [ReadsAmong, ReadsAmong, hfound, List.forall_mem_cons, and_iff_right h]

theorem readsAmong_cons_of_some {stem : List String} {g : FieldDescriptor}
    (hapart : ∀ e ∈ entries, Apart (suffix, other) e) (hwords : words = stem ++ suffix)
    (hg : s.resolve? (joined stem) = some g) :
    s.ReadsAmong words ((suffix, other) :: entries) f op ↔ g = f ∧ other = op := by
  constructor
  · rintro (⟨e, he, rfl, stem', hwords', hf⟩ | ⟨_, _, hnone⟩)
    · rcases List.mem_cons.1 he with rfl | he
      · obtain rfl := List.append_cancel_right (hwords.symm.trans hwords')
        exact ⟨Option.some.inj (hg.symm.trans hf), rfl⟩
      · have hends := List.suffix_or_suffix_of_suffix ⟨stem, hwords.symm⟩ ⟨stem', hwords'.symm⟩
        exact (hends.elim (hapart e he).1 (hapart e he).2).elim
    · rw [hnone _ List.mem_cons_self stem hwords] at hg
      cases hg
  · rintro ⟨rfl, rfl⟩
    exact .inl ⟨_, List.mem_cons_self, rfl, stem, hwords, hg⟩

theorem suffixed_eq_ok_iff (hapart : entries.Pairwise Apart) (unknown : Option String) :
    s.suffixed words entries unknown = .ok (f, op) ↔ s.ReadsAmong words entries f op := by
  induction entries generalizing unknown with
  | nil =>
    rw [suffixed]
    cases hf : s.resolve? (joined words) with
    | none => simp [ReadsAmong, hf]
    | some g => simp [ReadsAmong, hf, eq_comm, and_comm]
  | cons e entries ih =>
    obtain ⟨suffix, other⟩ := e
    obtain ⟨hfirst, hentries⟩ := List.pairwise_cons.1 hapart
    rw [suffixed]
    cases hstem : stem? words suffix with
    | none =>
      rw [readsAmong_cons_of_none, ih hentries]
      intro stem hwords
      by_cases hne : stem = []
      · rw [hne]
        exact resolve?_empty
      · rw [stem?_eq_some_iff.2 ⟨hne, hwords⟩] at hstem
        cases hstem
    | some stem =>
      obtain ⟨_, hwords⟩ := stem?_eq_some_iff.1 hstem
      cases hg : s.resolve? (joined stem) with
      | none =>
        simp only [hg]
        rw [readsAmong_cons_of_none, ih hentries]
        intro stem' hwords'
        rwa [← List.append_cancel_right (hwords.symm.trans hwords')]
      | some g =>
        simp only [hg, Except.ok.injEq, Prod.mk.injEq]
        exact (readsAmong_cons_of_some hfirst hwords hg).symm

end Entries

theorem mem_suffixes_iff {e : List String × Operator} :
    e ∈ suffixes ↔ e.2 ≠ .equals ∧ e.1 = Wording.suffixWords e.2 := by
  constructor
  · revert e
    decide
  · rintro ⟨hne, hwords⟩
    obtain ⟨suffix, op⟩ := e
    obtain rfl : suffix = Wording.suffixWords op := hwords
    cases op with
    | equals => exact absurd rfl hne
    | _ => decide

theorem readsAmong_suffixes_iff : s.ReadsAmong words suffixes f op ↔ s.ReadsAs words f op := by
  constructor
  · rintro (⟨e, he, rfl, stem, hwords, hf⟩ | ⟨rfl, hf, hnone⟩)
    · obtain ⟨hne, hsuffix⟩ := mem_suffixes_iff.1 he
      exact ⟨⟨stem, hsuffix ▸ hwords, hf⟩, fun heq => absurd heq hne⟩
    · refine ⟨⟨words, (List.append_nil words).symm, hf⟩, fun _ other stem hne hwords => ?_⟩
      exact hnone (Wording.suffixWords other, other) (mem_suffixes_iff.2 ⟨hne, rfl⟩) stem hwords
  · rintro ⟨⟨stem, hwords, hf⟩, halone⟩
    by_cases hop : op = .equals
    · subst hop
      rw [Wording.suffixWords, List.append_nil] at hwords
      subst hwords
      refine .inr ⟨rfl, hf, fun e he stem' hwords' => ?_⟩
      obtain ⟨hne, hsuffix⟩ := mem_suffixes_iff.1 he
      exact halone rfl e.2 stem' hne (hsuffix ▸ hwords')
    · have hmem : (Wording.suffixWords op, op) ∈ suffixes := mem_suffixes_iff.2 ⟨hop, rfl⟩
      exact .inl ⟨(Wording.suffixWords op, op), hmem, rfl, stem, hwords, hf⟩

theorem op_eq_of_ends {stem stem' : List String} {other : Operator} (hop : op ≠ .equals)
    (hother : other ≠ .equals) (h : words = stem ++ Wording.suffixWords op)
    (h' : words = stem' ++ Wording.suffixWords other) : op = other := by
  have hapart : ∀ e ∈ suffixes, ∀ e' ∈ suffixes, e.2 ≠ e'.2 → Apart e e' := by decide
  by_contra hne
  have hends := hapart (Wording.suffixWords op, op) (mem_suffixes_iff.2 ⟨hop, rfl⟩)
    (Wording.suffixWords other, other) (mem_suffixes_iff.2 ⟨hother, rfl⟩) hne
  exact (List.suffix_or_suffix_of_suffix ⟨stem, h.symm⟩ ⟨stem', h'.symm⟩).elim hends.1 hends.2

theorem clause_eq_ok_iff : s.clause k words = .ok c ↔
    ∃ f op, s.ReadsAs words f op ∧ c = ⟨k, f.name, f.nativeName, op, f.valueKind⟩ := by
  have hapart : suffixes.Pairwise Apart := by decide
  simp only [← readsAmong_suffixes_iff, ← suffixed_eq_ok_iff hapart none]
  rw [clause]
  cases s.suffixed words suffixes none with
  | error identifier => simp
  | ok found => simp [Prod.ext_iff, eq_comm]

end RecordMapping.Method.Scope
