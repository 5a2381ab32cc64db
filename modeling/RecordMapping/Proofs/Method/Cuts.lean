import RecordMapping.Proofs.Lookup
import RecordMapping.Proofs.Method.Wording
import Mathlib.Data.List.Lex
/-!
Cuts: the ways to take words for clauses with connectors between them. The words of a connector may
belong to a field as well, so that there are many of them; all are tried, and the first one that can
be read is taken, that is, the one whose clauses are the shortest, earlier clauses counting more.
Every step of the search leaves fewer words to be cut, so that it ends whatever the words are.
-/
namespace RecordMapping.Method

abbrev Cut := List (Connector × List String)

namespace Cut

def words (cut : Cut) : List String :=
  cut.flatMap fun (k, clause) => Wording.connector k :: clause

def lengths (cut : Cut) : List Nat :=
  cut.map (·.2.length)

theorem words_eq_nil_iff {cut : Cut} : cut.words = [] ↔ cut = [] := by
  cases cut <;> simp [words]

end Cut

/-- Whether a cut takes words for clauses, none of them empty. The first clause has a connector as
well, which is not among the words. -/
structure Cuts (k : Connector) (words : List String) (cut : Cut) : Prop where
  words : cut.words = Wording.connector k :: words
  nonempty : ∀ clause ∈ cut, clause.2 ≠ []

theorem connector?_eq_some_iff {word : String} {k : Connector} :
    connector? word = some k ↔ word = Wording.connector k := by
  rw [connector?]
  split
  · next h => cases k <;> simp [h, Wording.connector]
  · split
    · next h => cases k <;> simp [h, Wording.connector]
    · cases k <;> simp [Wording.connector, *]

theorem connector_injective : Function.Injective Wording.connector := by
  intro k k' h
  exact Option.some.inj <|
    (connector?_eq_some_iff.2 rfl).symm.trans (connector?_eq_some_iff.2 h)

/-- All cuts, in the order in which they are tried. `taken` are the words that the first clause has
already. -/
def cutsFrom (k : Connector) (taken : List String) : List String → List Cut
  | [] => if taken.isEmpty then [] else [[(k, taken)]]
  | word :: rest =>
    match connector? word with
    | none => cutsFrom k (taken ++ [word]) rest
    | some next =>
      (if taken.isEmpty then [] else (cutsFrom next [] rest).map ((k, taken) :: ·)) ++
        cutsFrom k (taken ++ [word]) rest

def CutsAfter (k : Connector) (taken words : List String) (cut : Cut) : Prop :=
  ∃ (own : List String) (later : Cut), cut = (k, taken ++ own) :: later ∧
    words = own ++ later.words ∧ taken ++ own ≠ [] ∧ ∀ clause ∈ later, clause.2 ≠ []

section CutsFrom

variable {k : Connector} {taken words : List String} {cut : Cut}

theorem cutsAfter_nil_left : CutsAfter k [] words cut ↔ Cuts k words cut := by
  constructor
  · rintro ⟨own, later, rfl, rfl, hown, hlater⟩
    exact ⟨rfl, List.forall_mem_cons.2 ⟨hown, hlater⟩⟩
  · rintro ⟨hwords, hne⟩
    cases cut with
    | nil => cases hwords
    | cons clause later =>
      obtain ⟨k', own⟩ := clause
      obtain ⟨hk, hrest⟩ := List.cons.inj hwords
      obtain rfl : k' = k := connector_injective hk
      obtain ⟨hown, hlater⟩ := List.forall_mem_cons.1 hne
      exact ⟨own, later, rfl, hrest.symm, hown, hlater⟩

theorem cutsAfter_nil : CutsAfter k taken [] cut ↔ taken ≠ [] ∧ cut = [(k, taken)] := by
  constructor
  · rintro ⟨own, later, rfl, hwords, hne, _⟩
    obtain ⟨rfl, hlater⟩ := List.append_eq_nil_iff.1 hwords.symm
    obtain rfl := Cut.words_eq_nil_iff.1 hlater
    rw [List.append_nil] at hne ⊢
    exact ⟨hne, rfl⟩
  · rintro ⟨hne, rfl⟩
    exact ⟨[], [], by simp, rfl, by simpa using hne, by simp⟩

theorem cutsAfter_cons {word : String} {rest : List String} :
    CutsAfter k taken (word :: rest) cut ↔
      (∃ next later, connector? word = some next ∧ taken ≠ [] ∧ cut = (k, taken) :: later ∧
        Cuts next rest later) ∨ CutsAfter k (taken ++ [word]) rest cut := by
  constructor
  · rintro ⟨own, later, rfl, hwords, hne, hlater⟩
    cases own with
    | nil =>
      rw [List.append_nil] at hne ⊢
      rw [List.nil_append] at hwords
      cases later with
      | nil => cases hwords
      | cons clause later =>
        have hword := (List.cons.inj hwords).1
        exact .inl ⟨clause.1, clause :: later, connector?_eq_some_iff.2 hword, hne, rfl,
          ⟨hword ▸ hwords.symm, hlater⟩⟩
    | cons first own =>
      obtain ⟨rfl, hrest⟩ := List.cons.inj hwords
      exact .inr ⟨own, later, by simp, hrest, by simp, hlater⟩
  · rintro (⟨next, later, hword, hne, rfl, hcuts⟩ | ⟨own, later, rfl, rfl, _, hlater⟩)
    · rw [connector?_eq_some_iff.1 hword]
      exact ⟨[], later, by simp, hcuts.words.symm, by simpa using hne, hcuts.nonempty⟩
    · exact ⟨word :: own, later, by simp, rfl, by simp, hlater⟩

/-- Every cut is tried. -/
theorem mem_cutsFrom_iff : cut ∈ cutsFrom k taken words ↔ CutsAfter k taken words cut := by
  induction words generalizing k taken cut with
  | nil =>
    rw [cutsFrom, cutsAfter_nil]
    cases taken <;> simp
  | cons word rest ih =>
    rw [cutsFrom, cutsAfter_cons]
    cases connector? word with
    | none => simp [ih]
    | some next =>
      simp only [List.mem_append, ih, Option.some.injEq, exists_and_left, exists_eq_left']
      refine or_congr_left ?_
      cases taken with
      | nil => simp
      | cons first taken => simp [ih, cutsAfter_nil_left, eq_comm, and_comm]

/-- Cuts are tried in order of the lengths of their clauses. -/
theorem pairwise_cutsFrom :
    (cutsFrom k taken words).Pairwise fun cut other => cut.lengths < other.lengths := by
  induction words generalizing k taken with
  | nil =>
    rw [cutsFrom]
    split
    · exact .nil
    · exact List.pairwise_singleton _ _
  | cons word rest ih =>
    rw [cutsFrom]
    cases connector? word with
    | none => exact ih
    | some next =>
      refine List.pairwise_append.2 ⟨?_, ih, ?_⟩
      · split
        · exact .nil
        · refine List.pairwise_map.2 (ih.imp fun h => ?_)
          exact List.cons_lt_cons_iff.2 (.inr ⟨rfl, h⟩)
      · intro cut hcut other hother
        split at hcut
        · cases hcut
        · obtain ⟨later, _, rfl⟩ := List.mem_map.1 hcut
          obtain ⟨own, others, rfl, _⟩ := mem_cutsFrom_iff.1 hother
          refine List.cons_lt_cons_iff.2 (.inl ?_)
          simp only [List.length_append, List.length_singleton]
          omega

end CutsFrom

theorem findSome?_eq_some_iff_least {α β γ : Type} [Preorder γ] {key : α → γ} {f : α → Option β}
    {xs : List α} (h : xs.Pairwise fun x y => key x < key y) {b : β} :
    xs.findSome? f = some b ↔ ∃ x ∈ xs, f x = some b ∧
      ∀ y ∈ xs, (f y).isSome = true → y ≠ x → key x < key y := by
  rw [List.findSome?_eq_some_iff]
  constructor
  · rintro ⟨before, x, after, rfl, hx, hnone⟩
    refine ⟨x, by simp, hx, fun y hy hsome hne => ?_⟩
    rcases List.mem_append.1 hy with hy | hy
    · simp [hnone y hy] at hsome
    · rcases List.mem_cons.1 hy with rfl | hy
      · exact absurd rfl hne
      · exact (List.pairwise_cons.1 (List.pairwise_append.1 h).2.1).1 y hy
  · rintro ⟨x, hx, hfx, hleast⟩
    obtain ⟨before, after, rfl⟩ := List.append_of_mem hx
    refine ⟨before, x, after, rfl, hfx, fun y hy => ?_⟩
    have hlt := (List.pairwise_append.1 h).2.2 y hy x List.mem_cons_self
    have hne : y ≠ x := by
      rintro rfl
      exact lt_irrefl _ hlt
    by_contra hsome
    have hless := hleast y (List.mem_append_left _ hy) (Option.isSome_iff_ne_none.2 hsome) hne
    exact lt_asymm hlt hless

theorem toOption_mapError {ε ε' α : Type} (f : ε → ε') (r : Except ε α) :
    (r.mapError f).toOption = r.toOption := by
  cases r <;> rfl

namespace Scope

variable {s : Scope}

def read? (s : Scope) (cut : Cut) : Option (List Clause) :=
  cut.mapM fun clause => (s.clause clause.1 clause.2).toOption

theorem read?_cons_of_error {k : Connector} {words : List String} {e : QueryError}
    (h : s.clause k words = .error e) (later : Cut) : s.read? ((k, words) :: later) = none := by
  rw [read?, List.mapM_cons, h]
  rfl

theorem read?_cons_of_ok {k : Connector} {words : List String} {first : Clause}
    (h : s.clause k words = .ok first) (later : Cut) :
    s.read? ((k, words) :: later) = (s.read? later).map (first :: ·) := by
  rw [read?, List.mapM_cons, h, Option.map_eq_bind]
  rfl

/-- Clauses are those of the first cut that can be read. -/
theorem toOption_clausesFrom (k : Connector) (taken : List String) (failed : Option QueryError)
    (words : List String) : (s.clausesFrom k taken failed words).toOption =
      (cutsFrom k taken words).findSome? s.read? := by
  induction words generalizing k taken failed with
  | nil =>
    rw [clausesFrom, cutsFrom, toOption_mapError]
    cases taken.isEmpty with
    | true => rfl
    | false => cases hc : s.clause k taken <;> simp [read?, hc, Except.toOption, Except.map]
  | cons word rest ih =>
    rw [clausesFrom, cutsFrom]
    cases connector? word with
    | none => exact ih k _ failed
    | some next =>
      rw [List.findSome?_append]
      cases taken.isEmpty with
      | true => exact ih k _ _
      | false =>
        simp only [Bool.false_eq_true, if_false, List.findSome?_map]
        cases hc : s.clause k taken with
        | error e =>
          have hnone : s.read? ∘ ((k, taken) :: ·) = fun _ => none :=
            funext (read?_cons_of_error hc)
          rw [hnone, List.findSome?_eq_none_iff.2 fun _ _ => rfl]
          exact ih k _ _
        | ok first =>
          have hmore : s.read? ∘ ((k, taken) :: ·) = Option.map (first :: ·) ∘ s.read? :=
            funext (read?_cons_of_ok hc)
          rw [hmore, ← List.map_findSome?, ← ih next [] none]
          cases s.clausesFrom next [] none rest with
          | error e => exact ih k _ _
          | ok more => rfl

theorem connector_of_clause {k : Connector} {words : List String} {c : Clause}
    (h : s.clause k words = .ok c) : c.connector = k := by
  rw [clause] at h
  split at h
  · rw [← Except.ok.inj h]
  · cases h

theorem read?_eq_some_iff {cut : Cut} {clauses : List Clause} : s.read? cut = some clauses ↔
    List.Forall₂ (fun clause c => s.clause clause.1 clause.2 = .ok c) cut clauses := by
  rw [read?, mapM_eq_some_iff]
  refine Iff.of_eq (congrArg (List.Forall₂ · cut clauses) ?_)
  funext clause c
  cases s.clause clause.1 clause.2 <;> simp [Except.toOption]

def Reads (s : Scope) (cut : Cut) : Prop :=
  ∀ clause ∈ cut, ∃ c, s.clause clause.1 clause.2 = .ok c

theorem isSome_read?_iff {cut : Cut} : (s.read? cut).isSome = true ↔ s.Reads cut := by
  rw [Reads]
  induction cut with
  | nil => simp [read?]
  | cons clause later ih =>
    rw [List.forall_mem_cons, ← ih]
    cases h : s.clause clause.1 clause.2 with
    | error e => simp [read?_cons_of_error h]
    | ok c => simp [read?_cons_of_ok h]

theorem clauses_eq_ok_iff_findSome? {words : List String} {clauses : List Clause} :
    s.clauses words = .ok clauses ↔ (cutsFrom .and [] words).findSome? s.read? = some clauses := by
  rw [← s.toOption_clausesFrom .and [] none words, Scope.clauses]
  cases s.clausesFrom .and [] none words <;> simp [Except.toOption]

theorem exists_clauses_iff {words : List String} :
    (∃ clauses, s.clauses words = .ok clauses) ↔ ∃ cut, Cuts .and words cut ∧ s.Reads cut := by
  simp only [clauses_eq_ok_iff_findSome?, ← Option.isSome_iff_exists, List.findSome?_isSome_iff,
    isSome_read?_iff, mem_cutsFrom_iff, cutsAfter_nil_left]

/-- Words are read as clauses exactly if they can be cut into clauses that can be read. Of all such
cuts the first one in the order of the lengths of clauses is taken, and no other has the same
lengths. Every clause has the connector before it, and the first one that of a conjunction. -/
theorem clauses_first_cut (s : Scope) (words : List String) :
    ((∃ clauses, s.clauses words = .ok clauses) ↔ ∃ cut, Cuts .and words cut ∧ s.Reads cut) ∧
    ∀ clauses, s.clauses words = .ok clauses ↔ ∃ cut, Cuts .and words cut ∧
      List.Forall₂ (fun clause c => s.clause clause.1 clause.2 = .ok c ∧ c.connector = clause.1)
        cut clauses ∧
      ∀ other, Cuts .and words other → s.Reads other → other ≠ cut →
        cut.lengths < other.lengths := by
  refine ⟨exists_clauses_iff, fun clauses => ?_⟩
  rw [clauses_eq_ok_iff_findSome?, findSome?_eq_some_iff_least pairwise_cutsFrom]
  simp only [mem_cutsFrom_iff, cutsAfter_nil_left, isSome_read?_iff, read?_eq_some_iff]
  refine exists_congr fun cut => and_congr_right fun _ => and_congr_left fun _ => ?_
  exact ⟨fun h => h.imp fun _ _ hc => ⟨hc, connector_of_clause hc⟩,
    fun h => h.imp fun _ _ => And.left⟩

/-- A field named after a connector does not keep two clauses from being read. -/
example :
    let metadata : EntityMetadata :=
      ⟨"paints", "Paint", [.plain "color", .plain "shade", .plain "colorOrShade"], none⟩
    Scope.clauses ⟨"findByColorOrShade", metadata, false⟩ ["Color", "Or", "Shade"] =
      .ok [⟨.and, "color", "color", .equals, none⟩, ⟨.or, "shade", "shade", .equals, none⟩] := by
  decide

end Scope
end RecordMapping.Method
