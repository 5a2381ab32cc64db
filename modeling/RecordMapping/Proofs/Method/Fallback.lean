import RecordMapping.Proofs.Method.Clauses
import RecordMapping.Proofs.Method.Parting
import RecordMapping.Proofs.Method.Spelling
/-!
What resolving names without regard to case makes of a method name that needs no such help. A
field that is found without it is found with it, but more identifiers are fields, and one of these
may come earlier in a search: in a shorter clause, before the words of an operator, or in a longer
run of an ordering. The name is read in the same way exactly if none of them does.
-/
namespace RecordMapping.Method

namespace Scope

variable {s t : Scope} {words : List String}

def Covers (t s : Scope) : Prop :=
  ∀ ⦃identifier f⦄, s.resolve? identifier = some f → t.resolve? identifier = some f

section Clauses

variable {k k' : Connector} {c : Clause}

def KeepsOperator (s t : Scope) (words : List String) : Prop :=
  ∀ op stem, op ≠ .equals → words = stem ++ Wording.suffixWords op →
    (t.resolve? (joined stem)).isSome = true → (s.resolve? (joined stem)).isSome = true

theorem clause_iff_of_covers (hcov : t.Covers s) (h : s.clause k words = .ok c) :
    t.clause k words = .ok c ↔ s.KeepsOperator t words := by
  obtain ⟨f, op, ⟨⟨stem, hwords, hf⟩, halone⟩, rfl⟩ := clause_eq_ok_iff.1 h
  constructor
  · intro ht other stem' hother hwords' hsome
    by_cases hop : op = .equals
    · obtain ⟨g, op', ⟨_, halone'⟩, heq⟩ := clause_eq_ok_iff.1 ht
      have hop' : op' = .equals := (Clause.mk.inj heq).2.2.2.1.symm.trans hop
      rw [halone' hop' other stem' hother hwords'] at hsome
      cases hsome
    · obtain rfl := op_eq_of_ends hop hother hwords hwords'
      obtain rfl := List.append_cancel_right (hwords.symm.trans hwords')
      rw [hf]
      rfl
  · intro hcond
    refine clause_eq_ok_iff.2 ⟨f, op, ⟨⟨stem, hwords, hcov hf⟩, ?_⟩, rfl⟩
    intro hop other stem' hne hwords'
    by_contra hnone
    have hsome := hcond other stem' hne hwords' (Option.isSome_iff_ne_none.2 hnone)
    rw [halone hop other stem' hne hwords'] at hsome
    cases hsome

theorem exists_clause_of_covers (hcov : t.Covers s) (h : s.clause k words = .ok c) :
    ∃ c', t.clause k words = .ok c' := by
  by_cases hsame : t.clause k words = .ok c
  · exact ⟨c, hsame⟩
  · rw [clause_iff_of_covers hcov h] at hsame
    rw [KeepsOperator] at hsame
    push Not at hsame
    obtain ⟨op, stem, hop, hwords, hsome, _⟩ := hsame
    obtain ⟨g, hg⟩ := Option.isSome_iff_exists.1 hsome
    exact ⟨_, clause_eq_ok_iff.2 ⟨g, op, ⟨⟨stem, hwords, hg⟩, fun heq => absurd heq hop⟩, rfl⟩⟩

theorem Reads.of_covers (hcov : t.Covers s) {cut : Cut} (h : s.Reads cut) : t.Reads cut := by
  intro clause hclause
  obtain ⟨c, hc⟩ := h clause hclause
  exact exists_clause_of_covers hcov hc

theorem words_eq_of_clause {own other : List String} {c' : Clause}
    (hwords : ∀ word ∈ words, word ≠ "") (hown : own <+: words) (hother : other <+: words)
    (h : s.clause k own = .ok c) (h' : t.clause k' other = .ok c') (hfield : c.field = c'.field)
    (hop : c.op = c'.op) : own = other := by
  obtain ⟨f, op, ⟨⟨stem, rfl, hf⟩, _⟩, rfl⟩ := clause_eq_ok_iff.1 h
  obtain ⟨g, op', ⟨⟨stem', rfl, hg⟩, _⟩, rfl⟩ := clause_eq_ok_iff.1 h'
  obtain rfl : op = op' := hop
  have hstem := (List.prefix_append stem _).trans hown
  have hstem' := (List.prefix_append stem' _).trans hother
  rw [run_eq_of_same_name hwords hstem hstem' hf hg hfield]

end Clauses

section Cuts

variable {cut other : Cut} {clauses : List Clause}

theorem cut_eq_of_reads (hwords : ∀ word ∈ cut.words, word ≠ "") (heq : cut.words = other.words)
    (h : List.Forall₂ (fun clause c => s.clause clause.1 clause.2 = .ok c) cut clauses)
    (h' : List.Forall₂ (fun clause c => t.clause clause.1 clause.2 = .ok c) other clauses) :
    cut = other := by
  induction h generalizing other with
  | nil =>
    obtain rfl := Cut.words_eq_nil_iff.1 heq.symm
    rfl
  | @cons clause c later others hc _ ih =>
    obtain ⟨k, own⟩ := clause
    cases h' with
    | @cons clause' _ later' _ hc' hlater' =>
      obtain ⟨k', own'⟩ := clause'
      obtain ⟨hk, hrest⟩ := List.cons.inj heq
      obtain rfl : k = k' := connector_injective hk
      have hrest : own ++ Cut.words later = own' ++ Cut.words later' := hrest
      have hwords : ∀ word ∈ own ++ Cut.words later, word ≠ "" :=
        (List.forall_mem_cons.1 hwords).2
      obtain rfl : own = own' := words_eq_of_clause hwords (List.prefix_append own _)
        (hrest ▸ List.prefix_append own' _) hc hc' rfl rfl
      have hlater := (List.forall_mem_append.1 hwords).2
      rw [ih hlater (List.append_cancel_left hrest) hlater']

/-- Whether a cut can be read and comes before all others that can be. -/
structure FirstCut (s : Scope) (words : List String) (cut : Cut) : Prop where
  cuts : Cuts .and words cut
  reads : s.Reads cut
  first : ∀ other, Cuts .and words other → s.Reads other → ¬other.lengths < cut.lengths

theorem lengths_lt_or_lt (h : Cuts .and words cut) (h' : Cuts .and words other)
    (hne : other ≠ cut) : cut.lengths < other.lengths ∨ other.lengths < cut.lengths := by
  rw [← cutsAfter_nil_left, ← mem_cutsFrom_iff] at h h'
  obtain ⟨before, after, hsplit⟩ := List.append_of_mem h
  have hpairwise : (cutsFrom .and [] words).Pairwise fun cut other => cut.lengths < other.lengths :=
    pairwise_cutsFrom
  rw [hsplit] at hpairwise h'
  obtain ⟨_, hafter, hbefore⟩ := List.pairwise_append.1 hpairwise
  rcases List.mem_append.1 h' with h' | h'
  · exact .inr (hbefore other h' cut List.mem_cons_self)
  · rcases List.mem_cons.1 h' with rfl | h'
    · exact absurd rfl hne
    · exact .inl ((List.pairwise_cons.1 hafter).1 other h')

theorem FirstCut.unique (h : s.FirstCut words cut) (h' : s.FirstCut words other) : other = cut := by
  by_contra hne
  exact (lengths_lt_or_lt h.cuts h'.cuts hne).elim (h'.first cut h.cuts h.reads)
    (h.first other h'.cuts h'.reads)

theorem clauses_eq_ok_iff : s.clauses words = .ok clauses ↔ ∃ cut, s.FirstCut words cut ∧
    List.Forall₂ (fun clause c => s.clause clause.1 clause.2 = .ok c) cut clauses := by
  rw [clauses_eq_ok_iff_findSome?, findSome?_eq_some_iff_least pairwise_cutsFrom]
  simp only [mem_cutsFrom_iff, cutsAfter_nil_left, isSome_read?_iff, read?_eq_some_iff]
  refine exists_congr fun cut => ⟨?_, ?_⟩
  · rintro ⟨hcuts, hread, hleast⟩
    have hreads := isSome_read?_iff.1 (Option.isSome_iff_exists.2 ⟨_, read?_eq_some_iff.2 hread⟩)
    refine ⟨⟨hcuts, hreads, ?_⟩, hread⟩
    intro other hother hreads hless
    by_cases hne : other = cut
    · exact lt_irrefl _ (hne ▸ hless)
    · exact lt_asymm hless (hleast other hother hreads hne)
  · rintro ⟨hfirst, hread⟩
    refine ⟨hfirst.cuts, hread, fun other hother hreads hne => ?_⟩
    exact (lengths_lt_or_lt hfirst.cuts hother hne).resolve_right (hfirst.first other hother hreads)

theorem forall₂_iff_of_covers (hcov : t.Covers s)
    (h : List.Forall₂ (fun clause c => s.clause clause.1 clause.2 = .ok c) cut clauses) :
    List.Forall₂ (fun clause c => t.clause clause.1 clause.2 = .ok c) cut clauses ↔
      ∀ clause ∈ cut, s.KeepsOperator t clause.2 := by
  induction h with
  | nil => simp
  | cons hc _ ih => rw [List.forall₂_cons, List.forall_mem_cons, clause_iff_of_covers hcov hc, ih]

def KeepsCut (s t : Scope) (words : List String) : Prop :=
  ∀ cut, s.FirstCut words cut →
    (∀ other, Cuts .and words other → t.Reads other → ¬other.lengths < cut.lengths) ∧
    ∀ clause ∈ cut, s.KeepsOperator t clause.2

/-- Clauses are read in the same way by a scope that finds more exactly if it can read no cut that
is tried earlier, and reads each clause of this cut in the same way. -/
theorem clauses_iff_of_covers (hcov : t.Covers s) (hwords : ∀ word ∈ words, word ≠ "")
    (h : s.clauses words = .ok clauses) :
    t.clauses words = .ok clauses ↔ s.KeepsCut t words := by
  obtain ⟨cut, hfirst, hread⟩ := clauses_eq_ok_iff.1 h
  constructor
  · intro ht cut' hcut'
    obtain rfl := hfirst.unique hcut'
    obtain ⟨other, hother, hread'⟩ := clauses_eq_ok_iff.1 ht
    have hne : ∀ word ∈ cut'.words, word ≠ "" := by
      rw [hfirst.cuts.words, List.forall_mem_cons]
      exact ⟨by decide, hwords⟩
    -- The same clauses come from the same cut, which is the first one for both scopes.
    obtain rfl := cut_eq_of_reads hne (hfirst.cuts.words.trans hother.cuts.words.symm) hread hread'
    exact ⟨hother.first, (forall₂_iff_of_covers hcov hread).1 hread'⟩
  · intro hcond
    obtain ⟨hcuts, hclauses⟩ := hcond cut hfirst
    exact clauses_eq_ok_iff.2 ⟨cut, ⟨hfirst.cuts, hfirst.reads.of_covers hcov, hcuts⟩,
      (forall₂_iff_of_covers hcov hread).2 hclauses⟩

end Cuts

section Rounds

variable {left : List String} {taken : List Munch} {sorts : List FieldSort}

def KeepsRounds (s t : Scope) (words : List String) : Prop :=
  ∀ taken left, s.Munches words taken left → ∀ next rest, s.Takes left next rest →
    ∀ run, run <+: left → next.run.length < run.length → t.resolve? (joined run) = none

theorem Munches.of_sorts {others : List Munch} {rest : List String} (hcov : t.Covers s)
    (hwords : ∀ word ∈ words, word ≠ "") (h : s.Munches words taken left)
    (h' : t.Munches words others rest) (hsorts : taken.map Munch.sort = others.map Munch.sort) :
    t.Munches words taken left := by
  induction h generalizing others with
  | done => exact .done
  | @round words after left next later htakes _ ih =>
    cases h' with
    | done => cases hsorts
    | @round _ after' _ next' later' htakes' hlater' =>
      obtain ⟨hsort, hmore⟩ := List.cons.inj hsorts
      have hrun : next.run = next'.run := run_eq_of_same_name hwords htakes.run_prefix
        htakes'.run_prefix htakes.field htakes'.field (FieldSort.mk.inj hsort).1
      have hnext : t.Takes words next after :=
        ⟨htakes.split, hcov htakes.field, hrun ▸ htakes'.longest, htakes.mark⟩
      obtain ⟨rfl, rfl⟩ := hnext.unique htakes'
      rw [htakes.split] at hwords
      exact .round hnext (ih (List.forall_mem_append.1 hwords).2 hlater' hmore)

theorem Munches.exists_later {all : List Munch} (h : s.Munches words taken left)
    (hall : s.Munches words all []) (hall' : t.Munches words all []) :
    ∃ later, s.Munches left later [] ∧ t.Munches left later [] := by
  induction h generalizing all with
  | done => exact ⟨all, hall, hall'⟩
  | round htakes _ ih =>
    cases hall with
    | done => exact absurd htakes.length_lt (Nat.not_lt_zero _)
    | round htakes' hlater =>
      obtain ⟨rfl, rfl⟩ := htakes.unique htakes'
      cases hall' with
      | round htakes'' hlater' =>
        obtain rfl := List.append_cancel_left (htakes.split.symm.trans htakes''.split)
        exact ih hlater hlater'

theorem Munches.of_covers (hcov : t.Covers s) (h : s.Munches words taken left)
    (hkeeps : s.KeepsRounds t words) : t.Munches words taken left := by
  induction h with
  | done => exact .done
  | round htakes _ ih =>
    refine .round ⟨htakes.split, hcov htakes.field, hkeeps [] _ .done _ _ htakes, htakes.mark⟩ ?_
    exact ih fun taken left hmunches => hkeeps (_ :: taken) left (.round htakes hmunches)

theorem fieldSorts_iff_of_covers (hcov : t.Covers s) (hwords : ∀ word ∈ words, word ≠ "")
    (h : s.fieldSorts words = .ok sorts) :
    t.fieldSorts words = .ok sorts ↔ s.KeepsRounds t words := by
  obtain ⟨all, hall, rfl⟩ := fieldSorts_eq_ok_iff.1 h
  constructor
  · intro ht taken left hmunches next rest htakes
    obtain ⟨others, hothers, hsorts⟩ := fieldSorts_eq_ok_iff.1 ht
    obtain ⟨later, hlater, hlater'⟩ :=
      hmunches.exists_later hall (hall.of_sorts hcov hwords hothers hsorts.symm)
    cases hlater with
    | done => exact absurd htakes.length_lt (Nat.not_lt_zero _)
    | round htakes' _ =>
      obtain ⟨rfl, rfl⟩ := htakes.unique htakes'
      cases hlater' with
      | round hnext _ => exact hnext.longest
  · exact fun hkeeps => fieldSorts_eq_ok_iff.2 ⟨all, hall.of_covers hcov hkeeps, rfl⟩

end Rounds

/-- Nothing that only the wider of two scopes finds comes before what the narrower one finds: no
cut, no field before the words of an operator, and no longer run where a round is taken. -/
structure Undisturbed (s t : Scope) (before : List String) (order : Option (List String)) :
    Prop where
  cut : s.KeepsCut t before
  rounds : ∀ words ∈ order, s.KeepsRounds t words

section Parts

variable {order : Option (List String)} {takesClauses : Bool} {clauses : List Clause}
  {sorts : List FieldSort}

theorem not_firstCut_nil {cut : Cut} : ¬s.FirstCut [] cut := by
  intro h
  obtain ⟨own, later, rfl, hnil, hne, _⟩ := cutsAfter_nil_left.2 h.cuts
  rw [(List.append_eq_nil_iff.1 hnil.symm).1] at hne
  exact hne rfl

theorem predicate_iff_of_covers (hcov : t.Covers s) (hwords : ∀ word ∈ words, word ≠ "")
    (h : s.predicate takesClauses words = .ok clauses) :
    t.predicate takesClauses words = .ok clauses ↔ s.KeepsCut t words := by
  rw [predicate] at h ⊢
  cases words with
  | nil =>
    cases takesClauses with
    | true => cases h
    | false => exact iff_of_true h fun cut hcut => absurd hcut not_firstCut_nil
  | cons word rest =>
    cases takesClauses with
    | true => exact clauses_iff_of_covers hcov hwords h
    | false => cases h

theorem exists_predicate_of_covers (hcov : t.Covers s)
    (h : s.predicate takesClauses words = .ok clauses) :
    ∃ others, t.predicate takesClauses words = .ok others := by
  cases takesClauses with
  | true =>
    obtain ⟨cut, hcuts, hreads⟩ := exists_predicate_iff.1 ⟨_, h⟩
    exact exists_predicate_iff.2 ⟨cut, hcuts, hreads.of_covers hcov⟩
  | false =>
    rw [predicate] at h ⊢
    cases words with
    | nil => exact ⟨_, h⟩
    | cons word rest => cases h

theorem order_iff_of_covers (hcov : t.Covers s)
    (hwords : ∀ words ∈ order, ∀ word ∈ words, word ≠ "") (h : s.order order = .ok sorts) :
    t.order order = .ok sorts ↔ ∀ words ∈ order, s.KeepsRounds t words := by
  cases order with
  | none => exact iff_of_true h (by simp)
  | some words =>
    rw [Scope.order] at h ⊢
    cases words with
    | nil => cases h
    | cons word rest =>
      simp only [Option.mem_some_iff, forall_eq']
      exact fieldSorts_iff_of_covers hcov (hwords _ rfl) h

theorem exists_of_order_eq_error {e : QueryError} (h : s.order order = .ok sorts)
    (hfailed : t.order order = .error e) : ∃ words ∈ order, t.fieldSorts words = .error e := by
  cases order with
  | none => cases hfailed
  | some words =>
    rw [Scope.order] at h hfailed
    cases words with
    | nil => cases h
    | cons word rest => exact ⟨_, rfl, hfailed⟩

end Parts

end Scope

namespace Name

variable {method rest : String} {m : EntityMetadata} {name : Name}

theorem ne_empty_of_parting {before : List String} {order : Option (List String)}
    (h : Parting (camelWords rest) before order) :
    (∀ word ∈ before, word ≠ "") ∧ ∀ words ∈ order, ∀ word ∈ words, word ≠ "" := by
  have hne : ∀ word ∈ camelWords rest, word ≠ "" := fun _ => ne_empty_of_mem_camelWords
  cases h with
  | whole => exact ⟨hne, by simp⟩
  | marked hwords =>
    rw [hwords] at hne
    obtain ⟨hbefore, hafter⟩ := List.forall_mem_append.1 hne
    simp only [Option.mem_some_iff, forall_eq']
    exact ⟨hbefore, fun word hword =>
      hafter word (List.mem_cons_of_mem _ (List.mem_cons_of_mem _ hword))⟩

/-- A name that is read without regard to case, although it could be read with it, can fail in its
ordering only, and is read as the same action. It is read as the same clauses and sorts exactly if
nothing that only the fallback finds comes earlier in the search. -/
theorem parse_lenient_iff_undisturbed (h : parse method m true = .ok name) :
    ∃ takesClauses rest, splitPrefix? method = some (name.action, takesClauses, rest) ∧
      (parse method m false = .ok name ↔ Scope.Undisturbed ⟨method, m, true⟩ ⟨method, m, false⟩
        (splitOrder (camelWords rest)).1 (splitOrder (camelWords rest)).2) ∧
      (∀ other, parse method m false = .ok other → other.action = name.action) ∧
      ∀ e, parse method m false = .error e → ∃ words ∈ (splitOrder (camelWords rest)).2,
        Scope.fieldSorts ⟨method, m, false⟩ words = .error e := by
  cases hprefix : splitPrefix? method with
  | none => simp [parse, hprefix, throw, throwThe, MonadExceptOf.throw] at h
  | some found =>
    obtain ⟨action, takesClauses, rest⟩ := found
    obtain ⟨rfl, hclauses, hsorts⟩ := (parse_eq_ok_iff hprefix).1 h
    have hcov : Scope.Covers ⟨method, m, false⟩ ⟨method, m, true⟩ :=
      fun _ _ => EntityMetadata.resolve?_of_strict
    obtain ⟨hbefore, horder⟩ :=
      ne_empty_of_parting (firstParting_splitOrder (camelWords rest)).parting
    refine ⟨takesClauses, rest, rfl, ?_, fun other hother => ((parse_eq_ok_iff hprefix).1 hother).1,
      fun e he => ?_⟩
    · rw [parse_eq_ok_iff hprefix, Scope.predicate_iff_of_covers hcov hbefore hclauses,
        Scope.order_iff_of_covers hcov horder hsorts]
      constructor
      · rintro ⟨_, hcut, hrounds⟩
        exact ⟨hcut, hrounds⟩
      · rintro ⟨hcut, hrounds⟩
        exact ⟨rfl, hcut, hrounds⟩
    · obtain ⟨others, hothers⟩ := Scope.exists_predicate_of_covers hcov hclauses
      have hfailed : Scope.order ⟨method, m, false⟩ (splitOrder (camelWords rest)).2 =
          .error e := by
        rw [parse_eq hprefix] at he
        simp only [hothers, bind, Except.bind] at he
        cases hread : Scope.order ⟨method, m, false⟩ (splitOrder (camelWords rest)).2 with
        | ok sorts => simp [hread, pure, Except.pure] at he
        | error e' => simpa [hread] using he
      exact Scope.exists_of_order_eq_error hsorts hfailed

def prints : EntityMetadata :=
  ⟨"prints", "Print", [.plain "titleAndYear", .plain "TITLE", .plain "YEAR"], none⟩

def films : EntityMetadata :=
  ⟨"films", "Film", [.plain "title", .plain "year", .plain "TITLEANDYEAR"], none⟩

theorem films_undisturbed :
    (parse "findByTitleAndYear" films true = .ok ⟨.find,
        [⟨.and, "title", "title", .equals, none⟩, ⟨.and, "year", "year", .equals, none⟩], []⟩ ∧
      Scope.Undisturbed ⟨"findByTitleAndYear", films, true⟩ ⟨"findByTitleAndYear", films, false⟩
        ["Title", "And", "Year"] none) ∧
    parse "findByTitleAndYear" prints true =
        .ok ⟨.find, [⟨.and, "titleAndYear", "titleAndYear", .equals, none⟩], []⟩ ∧
      ¬Scope.Undisturbed ⟨"findByTitleAndYear", prints, true⟩ ⟨"findByTitleAndYear", prints, false⟩
        ["Title", "And", "Year"] none := by
  have hsplit : splitPrefix? "findByTitleAndYear" = some (.find, true, "TitleAndYear") := by cbv
  have hwords : splitOrder (camelWords "TitleAndYear") = (["Title", "And", "Year"], none) := rfl
  have hfilms : ∀ strict, parse "findByTitleAndYear" films strict = .ok ⟨.find,
      [⟨.and, "title", "title", .equals, none⟩, ⟨.and, "year", "year", .equals, none⟩], []⟩ := by
    intro strict
    cases strict <;> cbv
  have hprints : parse "findByTitleAndYear" prints true =
      .ok ⟨.find, [⟨.and, "titleAndYear", "titleAndYear", .equals, none⟩], []⟩ := by cbv
  have hother : parse "findByTitleAndYear" prints false = .ok ⟨.find,
      [⟨.and, "TITLE", "TITLE", .equals, none⟩, ⟨.and, "YEAR", "YEAR", .equals, none⟩], []⟩ := by
    cbv
  refine ⟨⟨hfilms true, ?_⟩, hprints, fun hsame => ?_⟩
  · obtain ⟨takesClauses, rest, hrest, hiff, _⟩ := parse_lenient_iff_undisturbed (hfilms true)
    obtain ⟨rfl, rfl⟩ : takesClauses = true ∧ "TitleAndYear" = rest := by
      simpa using hsplit.symm.trans hrest
    rw [hwords] at hiff
    exact hiff.1 (hfilms false)
  · obtain ⟨takesClauses, rest, hrest, hiff, _⟩ := parse_lenient_iff_undisturbed hprints
    obtain ⟨rfl, rfl⟩ : takesClauses = true ∧ "TitleAndYear" = rest := by
      simpa using hsplit.symm.trans hrest
    rw [hwords] at hiff
    have hread := hiff.2 hsame
    rw [hother] at hread
    exact absurd (Except.ok.inj hread) (by decide)

def pages : EntityMetadata :=
  ⟨"pages", "Page", [.plain "title", .plain "pageCount", .plain "TITLEPAGE"], none⟩

/-- The fallback may find other clauses, or a field that leaves the rest of an ordering unread. -/
theorem fallback_disturbs :
    (∃ c, Catalog.build Settings.standard [prints, pages] = .ok c) ∧
    (parse "findByTitleAndYear" prints true =
        .ok ⟨.find, [⟨.and, "titleAndYear", "titleAndYear", .equals, none⟩], []⟩ ∧
      parse "findByTitleAndYear" prints false = .ok ⟨.find,
        [⟨.and, "TITLE", "TITLE", .equals, none⟩, ⟨.and, "YEAR", "YEAR", .equals, none⟩], []⟩) ∧
    parse "findAllOrderByTitlePageCount" pages true = .ok ⟨.find, [],
        [⟨"title", "title", .ascending⟩, ⟨"pageCount", "pageCount", .ascending⟩]⟩ ∧
      parse "findAllOrderByTitlePageCount" pages false =
        .error (.unknownField "pages" "Count") := by
  have hsplit : splitPrefix? "findAllOrderByTitlePageCount" =
    some (.find, false, "OrderByTitlePageCount") := by cbv
  have hwords : splitOrder (camelWords "OrderByTitlePageCount") =
    ([], some ["Title", "Page", "Count"]) := rfl
  refine ⟨⟨_, by cbv⟩, ⟨by cbv, by cbv⟩, ?_, ?_⟩
  · refine (parse_eq_ok_iff hsplit).2 ⟨rfl, by rw [hwords]; rfl, ?_⟩
    rw [hwords]
    refine (Scope.fieldSorts_of_longestField? (by cbv)).trans ?_
    rw [Scope.fieldSorts_of_longestField? (by cbv)]
    cbv
  · have hfound : Scope.longestField? ⟨"findAllOrderByTitlePageCount", pages, false⟩ []
      ["Title", "Page", "Count"] = some (.plain "TITLEPAGE", ["Count"]) := by cbv
    have hstuck : Scope.Stuck ⟨"findAllOrderByTitlePageCount", pages, false⟩ ["Count"] :=
      Scope.stuck_iff.2 (by cbv)
    have hsorts : Scope.order ⟨"findAllOrderByTitlePageCount", pages, false⟩
        (some ["Title", "Page", "Count"]) = .error (.unknownField "pages" "Count") :=
      (Scope.fieldSorts_of_longestField? hfound).trans
        (congrArg (Except.map _) (hstuck.fieldSorts_eq (by simp)))
    rw [parse_eq hsplit, hwords]
    simp only [hsorts]
    rfl

end Name
end RecordMapping.Method
