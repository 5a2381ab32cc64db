import RecordMapping.Store.Memory
/-!
Clauses joined from left to right: a record satisfies the condition made of them exactly if their
truth values, joined in the same order, come out true. No connector binds tighter than another.
-/
namespace RecordMapping

def Connector.apply : Connector → Bool → Bool → Bool
  | .and, a, b => a && b
  | .or, a, b => a || b

/-- Truth values joined from left to right; the connector of the first one has no effect. -/
def verdict : List (Connector × Bool) → Bool
  | [] => true
  | (_, first) :: rest => rest.foldl (fun truth (k, b) => k.apply truth b) first

namespace Memory

variable {r : Record}

theorem satisfies_pair (k : Connector) (a b : Condition) :
    satisfies r (Condition.pair k a b) = k.apply (satisfies r a) (satisfies r b) := by
  cases k <;>
    simp [Condition.pair, satisfies, satisfiesAll, satisfiesAny, Connector.apply]

theorem all_foldl_join (clauses : List (Connector × Condition)) (c : Condition) :
    (clauses.foldl (fun earlier (k, next) => some (Condition.join earlier k next)) (some c)).all
        (satisfies r) =
      (clauses.map fun (k, c) => (k, satisfies r c)).foldl (fun truth (k, b) => k.apply truth b)
        (satisfies r c) := by
  induction clauses generalizing c with
  | nil => rfl
  | cons clause rest ih =>
    obtain ⟨k, next⟩ := clause
    refine (ih (Condition.pair k c next)).trans ?_
    rw [satisfies_pair]
    rfl

theorem all_fold (clauses : List (Connector × Condition)) :
    (Condition.fold clauses).all (satisfies r) =
      verdict (clauses.map fun (k, c) => (k, satisfies r c)) := by
  cases clauses with
  | nil => rfl
  | cons clause rest => exact all_foldl_join rest clause.2

end Memory
end RecordMapping
