import RecordMapping.Proofs.Method.Assembly
import RecordMapping.Proofs.Method.Cuts
import RecordMapping.Proofs.Method.Parsing
/-!
Methods whose names differ in their beginning only. What one of them reads in the rest of its name
the others read too, and they ask for the same records when they are given the same values.
-/
namespace RecordMapping.Method

namespace Scope

variable {s : Scope} {words : List String}

section Method

variable (method : String)

theorem suffixed_method (entries : List (List String × Operator)) (unknown : Option String) :
    suffixed { s with method := method } words entries unknown =
      s.suffixed words entries unknown := by
  induction entries generalizing unknown with
  | nil => rfl
  | cons e entries ih =>
    obtain ⟨suffix, op⟩ := e
    rw [suffixed, suffixed]
    cases stem? words suffix with
    | none => exact ih unknown
    | some stem =>
      have hresolve : resolve? { s with method := method } (joined stem) =
          s.resolve? (joined stem) := rfl
      simp only [hresolve, ih]

theorem clause_method (k : Connector) (words : List String) :
    clause { s with method := method } k words = s.clause k words := by
  rw [clause, clause, suffixed_method]
  rfl

theorem toOption_clauses_method (words : List String) :
    (clauses { s with method := method } words).toOption = (s.clauses words).toOption := by
  have hread : read? { s with method := method } = s.read? := by
    funext cut
    simp only [read?, clause_method]
  rw [clauses, clauses, toOption_clausesFrom, toOption_clausesFrom, hread]

theorem longestField?_method (taken words : List String) :
    longestField? { s with method := method } taken words = s.longestField? taken words := by
  induction words generalizing taken with
  | nil => rfl
  | cons word rest ih =>
    rw [longestField?, longestField?, ih]
    rfl

theorem fieldSorts_method {sorts : List FieldSort} (h : s.fieldSorts words = .ok sorts) :
    fieldSorts { s with method := method } words = .ok sorts := by
  induction words using fieldSorts.induct s generalizing sorts with
  | case1 =>
    rw [fieldSorts] at h ⊢
    exact h
  | case2 word rest hnone =>
    rw [fieldSorts] at h
    split at h
    · cases h
    · next hsome => simp [hnone] at hsome
  | case3 word rest f after hlongest _ ih =>
    have hlongest' := (longestField?_method method [] (word :: rest)).trans hlongest
    rw [fieldSorts_of_longestField? hlongest] at h
    rw [fieldSorts_of_longestField? hlongest']
    cases hlater : s.fieldSorts (direction after).2 with
    | error e => simp [hlater, Except.map] at h
    | ok later => rwa [ih hlater, ← hlater]

end Method

end Scope

section Start

variable {rest : String} {metadata : EntityMetadata} {strict : Bool} {a : Action} {name : Name}

theorem Name.parse_start (h : parse (Wording.start a ++ rest) metadata strict = .ok name)
    (b : Action) :
    parse (Wording.start b ++ rest) metadata strict = .ok { name with action := b } := by
  obtain ⟨_, hpredicate, horder⟩ := (parse_eq_ok_iff (splitPrefix?_start a rest)).1 h
  refine (parse_eq_ok_iff (splitPrefix?_start b rest)).2 ⟨rfl, ?_, ?_⟩
  · rw [Scope.predicate, if_pos rfl] at hpredicate ⊢
    split at hpredicate
    · cases hpredicate
    · next hwords =>
      have hsame := Scope.toOption_clauses_method (s := ⟨Wording.start a ++ rest, metadata, strict⟩)
        (Wording.start b ++ rest) (splitOrder (camelWords rest)).1
      rw [hpredicate] at hsame
      rw [if_neg hwords]
      cases hclauses : Scope.clauses ⟨Wording.start b ++ rest, metadata, strict⟩
          (splitOrder (camelWords rest)).1 with
      | error e => simp [hclauses, Except.toOption] at hsame
      | ok clauses => simpa [hclauses, Except.toOption] using hsame
  · cases hwords : (splitOrder (camelWords rest)).2 with
    | none =>
      rw [hwords] at horder
      exact horder
    | some words =>
      rw [hwords, Scope.order] at horder
      rw [Scope.order]
      split at horder
      · cases horder
      · next hne =>
        rw [if_neg hne]
        exact Scope.fieldSorts_method _ horder

end Start

namespace Template

variable {t : Template}

def withAction (t : Template) (method : String) (a : Action) : Template :=
  { t with method := method, name := { t.name with action := a } }

theorem compile_start {rest : String} {metadata : EntityMetadata} {settings : Settings}
    {a : Action} (h : compile (Wording.start a ++ rest) metadata settings = .ok t) (b : Action) :
    compile (Wording.start b ++ rest) metadata settings =
      .ok (t.withAction (Wording.start b ++ rest) b) := by
  obtain ⟨name, hname, rfl⟩ := compile_eq_ok_iff.1 h
  exact compile_eq_ok_iff.2 ⟨_, Name.parse_start hname b, rfl⟩

theorem comparisons_withAction (method : String) (a : Action) (clauses : List Clause)
    (values : List Value) :
    (t.withAction method a).comparisons clauses values = t.comparisons clauses values := by
  induction clauses generalizing values with
  | nil => rfl
  | cons c rest ih =>
    rw [comparisons, comparisons]
    simp only [ih]
    rfl

theorem assemble_withAction {arguments : List Argument} {q : Request}
    (h : t.assemble arguments = .ok q) (method : String) (a : Action) :
    (t.withAction method a).assemble arguments = .ok { q with action := a } := by
  obtain ⟨harity, clauses, hclauses, rfl⟩ := assemble_eq_ok_iff.1 h
  refine assemble_eq_ok_iff.2 ⟨harity, clauses, ?_, rfl⟩
  rw [comparisons_withAction]
  exact hclauses

theorem assemble_values {arguments given : List Argument} {q : Request}
    (h : t.assemble arguments = .ok q)
    (hvalues : Arguments.values given = Arguments.values arguments) :
    t.assemble given = .ok ⟨q.action, { q.query with
      sorts := t.sorts given
      skip := (Arguments.window given).1
      limit := (Arguments.window given).2 }, Arguments.page? given⟩ := by
  obtain ⟨harity, clauses, hclauses, rfl⟩ := assemble_eq_ok_iff.1 h
  rw [← hvalues] at harity hclauses
  exact assemble_eq_ok_iff.2 ⟨harity, clauses, hclauses, rfl⟩

end Template
end RecordMapping.Method
