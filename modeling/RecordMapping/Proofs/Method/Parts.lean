import RecordMapping.Method.Name
import Mathlib.Data.List.Basic
/-!
The parts of a method name: its beginning, the words up to the ordering, and the words after it,
each read on its own. Whatever is found is about declared fields.
-/
namespace RecordMapping

namespace EntityMetadata

theorem mem_of_resolve? {m : EntityMetadata} {strict : Bool} {identifier : String}
    {f : FieldDescriptor} (h : m.resolve? strict identifier = some f) : f ∈ m.fields := by
  rw [resolve?] at h
  split at h
  · cases h
  · rcases Option.or_eq_some_iff.1 h with h | ⟨_, h⟩
    · exact List.mem_of_find?_eq_some h
    · rcases Option.or_eq_some_iff.1 h with h | ⟨_, h⟩
      · exact List.mem_of_find?_eq_some h
      · split at h
        · cases h
        · exact List.mem_of_find?_eq_some h

end EntityMetadata

namespace Method

def Scope.predicate (s : Scope) (takesClauses : Bool) (words : List String) :
    Except QueryError (List Clause) :=
  if takesClauses then
    if words.isEmpty then .error (.emptyClause s.method) else s.clauses words
  else if words.isEmpty then .ok []
  else .error (.unrecognized s.method)

/-- The words after the marker of an ordering, if there is one, as sorts. -/
def Scope.order (s : Scope) : Option (List String) → Except QueryError (List FieldSort)
  | none => .ok []
  | some words => if words.isEmpty then .error (.emptyClause s.method) else s.fieldSorts words

section Parse

variable {method rest : String} {metadata : EntityMetadata} {strict : Bool} {a : Action}
  {takesClauses : Bool}

theorem Name.parse_eq (h : splitPrefix? method = some (a, takesClauses, rest)) :
    Name.parse method metadata strict = do
      let s : Scope := ⟨method, metadata, strict⟩
      let (predicate, order) := splitOrder (camelWords rest)
      return ⟨a, ← s.predicate takesClauses predicate, ← s.order order⟩ := by
  rw [Name.parse]
  simp only [h]
  cases splitOrder (camelWords rest) with
  | mk predicate order =>
    simp only [Scope.predicate, Scope.order]
    cases takesClauses <;> cases predicate <;> rcases order with _ | (_ | ⟨word, words⟩) <;> rfl

theorem Name.parse_eq_ok_iff (h : splitPrefix? method = some (a, takesClauses, rest))
    {name : Name} : Name.parse method metadata strict = .ok name ↔ name.action = a ∧
      Scope.predicate ⟨method, metadata, strict⟩ takesClauses (splitOrder (camelWords rest)).1 =
        .ok name.clauses ∧
      Scope.order ⟨method, metadata, strict⟩ (splitOrder (camelWords rest)).2 = .ok name.sorts := by
  obtain ⟨action, clauses, sorts⟩ := name
  rw [parse_eq h]
  simp only
  cases Scope.predicate ⟨method, metadata, strict⟩ takesClauses
    (splitOrder (camelWords rest)).1 with
  | error e => simp [bind, Except.bind]
  | ok found =>
    cases Scope.order ⟨method, metadata, strict⟩ (splitOrder (camelWords rest)).2 with
    | error e => simp [bind, Except.bind]
    | ok order =>
      simp only [bind, Except.bind, pure, Except.pure, Except.ok.injEq, Name.mk.injEq]
      exact and_congr_left fun _ => eq_comm

end Parse

/-- A clause knows of its field what the metadata says. -/
def Clause.Describes (c : Clause) (f : FieldDescriptor) : Prop :=
  c.field = f.name ∧ c.native = f.nativeName ∧ c.valueKind = f.valueKind

namespace Scope

variable {s : Scope} {words : List String}

theorem mem_of_suffixed {entries : List (List String × Operator)} {unknown : Option String}
    {f : FieldDescriptor} {op : Operator} (h : s.suffixed words entries unknown = .ok (f, op)) :
    f ∈ s.metadata.fields := by
  induction entries generalizing unknown with
  | nil =>
    rw [suffixed] at h
    cases hf : s.resolve? (joined words) with
    | none => simp [hf] at h
    | some g =>
      simp only [hf, Except.ok.injEq, Prod.mk.injEq] at h
      exact h.1 ▸ EntityMetadata.mem_of_resolve? hf
  | cons e entries ih =>
    obtain ⟨suffix, op'⟩ := e
    rw [suffixed] at h
    cases hstem : stem? words suffix with
    | none =>
      rw [hstem] at h
      exact ih h
    | some stem =>
      rw [hstem] at h
      cases hf : s.resolve? (joined stem) with
      | none =>
        simp only [hf] at h
        exact ih h
      | some g =>
        simp only [hf, Except.ok.injEq, Prod.mk.injEq] at h
        exact h.1 ▸ EntityMetadata.mem_of_resolve? hf

theorem describes_of_clause {k : Connector} {c : Clause} (h : s.clause k words = .ok c) :
    ∃ f ∈ s.metadata.fields, c.Describes f := by
  rw [clause] at h
  cases hs : s.suffixed words suffixes none with
  | error identifier => simp [hs] at h
  | ok p =>
    obtain ⟨f, op⟩ := p
    simp only [hs, Except.ok.injEq] at h
    subst h
    exact ⟨f, mem_of_suffixed hs, rfl, rfl, rfl⟩

/-- Whatever way words are cut into clauses, each clause is about a declared field. -/
theorem describes_of_clausesFrom {k : Connector} {taken : List String} {failed : Option QueryError}
    {clauses : List Clause} (h : s.clausesFrom k taken failed words = .ok clauses) :
    ∀ c ∈ clauses, ∃ f ∈ s.metadata.fields, c.Describes f := by
  induction words generalizing k taken failed clauses with
  | nil =>
    rw [clausesFrom] at h
    split at h
    · cases h
    · cases hc : s.clause k taken with
      | error e => simp [hc, Except.map, Except.mapError] at h
      | ok first =>
        simp only [hc, Except.map, Except.mapError, Except.ok.injEq] at h
        subst h
        intro c hmem
        obtain rfl := List.mem_singleton.1 hmem
        exact describes_of_clause hc
  | cons word rest ih =>
    rw [clausesFrom] at h
    cases hk : connector? word with
    | none =>
      simp only [hk] at h
      exact ih h
    | some next =>
      simp only [hk] at h
      split at h
      · next attempted hattempt =>
        obtain rfl := Except.ok.inj h
        split at hattempt
        · cases hattempt
        · split at hattempt
          · cases hattempt
          · next first hfirst =>
            cases hmore : s.clausesFrom next [] none rest with
            | error e => simp [hmore, Except.map] at hattempt
            | ok more =>
              simp only [hmore, Except.map, Except.ok.injEq] at hattempt
              subst hattempt
              intro c hmem
              rcases List.mem_cons.1 hmem with rfl | hmem
              · exact describes_of_clause hfirst
              · exact ih hmore c hmem
      · exact ih h

theorem fieldSorts_of_longestField? {f : FieldDescriptor} {after : List String}
    (h : s.longestField? [] words = some (f, after)) :
    s.fieldSorts words = (s.fieldSorts (direction after).2).map
      (⟨f.name, f.nativeName, (direction after).1⟩ :: ·) := by
  cases words with
  | nil => exact absurd h (by simp [longestField?])
  | cons word rest =>
    rw [fieldSorts]
    split
    · next hnone => exact absurd (hnone.symm.trans h) (by simp)
    · next g left hsome =>
      obtain ⟨rfl, rfl⟩ := Prod.mk.inj (Option.some.inj (hsome.symm.trans h))
      rfl

end Scope

theorem Name.describes_of_parse {method : String} {metadata : EntityMetadata} {strict : Bool}
    {name : Name} (h : parse method metadata strict = .ok name) :
    ∀ c ∈ name.clauses, ∃ f ∈ metadata.fields, c.Describes f := by
  cases hprefix : splitPrefix? method with
  | none => simp [parse, hprefix, throw, throwThe, MonadExceptOf.throw] at h
  | some p =>
    obtain ⟨_, hpredicate, _⟩ := (parse_eq_ok_iff hprefix).1 h
    rw [Scope.predicate] at hpredicate
    split at hpredicate
    · split at hpredicate
      · cases hpredicate
      · exact Scope.describes_of_clausesFrom hpredicate
    · split at hpredicate
      · rw [← Except.ok.inj hpredicate]
        exact fun c hc => absurd hc List.not_mem_nil
      · cases hpredicate

end Method
end RecordMapping
