import Mathlib
import RecordMapping.Proofs.Method.Cuts
import RecordMapping.Proofs.Method.Sorts
/-!
Where the ordering of a method name starts. Its marker is two words that a field may have in its
name as well, so that there may be several ways to part the clauses of a name from its ordering.
Only one of them is tried, the one at the first marker.
-/
namespace RecordMapping.Method

/-- A way to part words into those of clauses and, after a marker, those of an ordering. Without a
marker all words are those of clauses. -/
inductive Parting (words : List String) : List String → Option (List String) → Prop
  | whole : Parting words words none
  | marked {before after : List String} : words = before ++ "Order" :: "By" :: after →
    Parting words before (some after)

/-- Whether words are parted at their first marker, or not at all because there is none. -/
structure FirstParting (words before : List String) (order : Option (List String)) : Prop where
  parting : Parting words before order
  first : ∀ other after, Parting words other (some after) →
    order.isSome = true ∧ before.length ≤ other.length

theorem firstParting_splitOrder (words : List String) :
    FirstParting words (splitOrder words).1 (splitOrder words).2 := by
  fun_induction splitOrder words with
  | case1 =>
    refine ⟨.whole, fun other after h => ?_⟩
    cases h with
    | marked hwords => exact absurd hwords (by simp)
  | case2 sorts => exact ⟨.marked rfl, fun _ _ _ => ⟨rfl, Nat.zero_le _⟩⟩
  | case3 word rest hword ih =>
    generalize splitOrder rest = parts at ih
    obtain ⟨before, order⟩ := parts
    refine ⟨?_, fun other after h => ?_⟩
    · cases ih.parting with
      | whole => exact .whole
      | marked hrest => exact .marked (hrest ▸ rfl)
    · cases h with
      | marked hwords =>
        cases other with
        | nil =>
          obtain ⟨rfl, hrest⟩ := List.cons.inj hwords
          exact (hword after rfl hrest).elim
        | cons first other =>
          obtain ⟨hsome, hlength⟩ := ih.first other after (.marked (List.cons.inj hwords).2)
          exact ⟨hsome, Nat.succ_le_succ hlength⟩

namespace Scope

variable {s : Scope} {words : List String}

theorem exists_predicate_iff : (∃ clauses, s.predicate true words = .ok clauses) ↔
    ∃ cut, Cuts .and words cut ∧ s.Reads cut := by
  rw [predicate, if_pos rfl, ← exists_clauses_iff]
  cases words with
  | nil => simp [clauses, clausesFrom, Except.mapError]
  | cons word rest => simp

theorem exists_order_iff {order : Option (List String)} : (∃ sorts, s.order order = .ok sorts) ↔
    ∀ words ∈ order, words ≠ [] ∧ ∃ taken, s.Munches words taken [] := by
  cases order with
  | none => simp [Scope.order]
  | some words =>
    rw [Scope.order]
    cases words with
    | nil => simp
    | cons word rest => simp [fieldSorts_eq_ok_iff]

/-- Whether the words before a marker can be read as clauses, and those after it, of which there has
to be one, as an ordering. -/
structure Readable (s : Scope) (before : List String) (order : Option (List String)) : Prop where
  clauses : ∃ cut, Cuts .and before cut ∧ s.Reads cut
  sorts : ∀ words ∈ order, words ≠ [] ∧ ∃ taken, s.Munches words taken []

end Scope

namespace Name

/-- A name with conditions can be read exactly if it can be when its words are parted at the first
marker. Whether it could be if they were parted at another one, or not at all, makes no
difference. -/
theorem parsed_iff_first_readable {method rest : String} {a : Action}
    (h : splitPrefix? method = some (a, true, rest)) (m : EntityMetadata) (strict : Bool) :
    ∃ before order, FirstParting (camelWords rest) before order ∧
      ((∃ name, parse method m strict = .ok name) ↔
        Scope.Readable ⟨method, m, strict⟩ before order) := by
  refine ⟨_, _, firstParting_splitOrder (camelWords rest), ?_⟩
  constructor
  · rintro ⟨name, hname⟩
    obtain ⟨_, hclauses, hsorts⟩ := (parse_eq_ok_iff h).1 hname
    exact ⟨Scope.exists_predicate_iff.1 ⟨_, hclauses⟩, Scope.exists_order_iff.1 ⟨_, hsorts⟩⟩
  · rintro ⟨hclauses, hsorts⟩
    obtain ⟨clauses, hclauses⟩ := Scope.exists_predicate_iff.2 hclauses
    obtain ⟨sorts, hsorts⟩ := Scope.exists_order_iff.2 hsorts
    exact ⟨⟨a, clauses, sorts⟩, (parse_eq_ok_iff h).2 ⟨rfl, hclauses, hsorts⟩⟩

def tasks : EntityMetadata :=
  ⟨"tasks", "Task", [.plain "title", .plain "orderByDate"], none⟩

theorem tasks_by_order_date :
    (∃ c, Catalog.build Settings.standard [tasks] = .ok c) ∧
    (Parting (camelWords "OrderByDate") ["Order", "By", "Date"] none ∧
      Scope.Readable ⟨"findByOrderByDate", tasks, false⟩ ["Order", "By", "Date"] none) ∧
    parse "findByOrderByDate" tasks false = .error (.emptyClause "findByOrderByDate") ∧
    ∃ before order, FirstParting (camelWords "OrderByDate") before order ∧
      ¬Scope.Readable ⟨"findByOrderByDate", tasks, false⟩ before order := by
  have hbuild : ∃ c, Catalog.build Settings.standard [tasks] = .ok c := ⟨_, by cbv⟩
  have hreads : Scope.Reads ⟨"findByOrderByDate", tasks, false⟩
      [(.and, ["Order", "By", "Date"])] :=
    List.forall_mem_singleton.2 ⟨⟨.and, "orderByDate", "orderByDate", .equals, none⟩, by cbv⟩
  have hrefused : parse "findByOrderByDate" tasks false =
      .error (.emptyClause "findByOrderByDate") := by cbv
  obtain ⟨before, order, hfirst, hiff⟩ := parsed_iff_first_readable
    (show splitPrefix? "findByOrderByDate" = some (.find, true, "OrderByDate") by cbv) tasks false
  refine ⟨hbuild, ⟨.whole, ⟨_, ⟨rfl, by simp⟩, hreads⟩, by simp⟩, hrefused, before, order, hfirst,
    fun hreadable => ?_⟩
  obtain ⟨name, hname⟩ := hiff.2 hreadable
  rw [hrefused] at hname
  cases hname

end Name
end RecordMapping.Method
