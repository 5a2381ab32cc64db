import RecordMapping.Proofs.Store.Ordering
/-!
Ranges as conditions. They compare as sorts do: a value is held against a limit of its own kind. An
absent value, which sorts place first, lies below every limit, and a value of another kind passes
for the limit itself.
-/
namespace RecordMapping.Memory

def Comparable (u v : Value) : Prop :=
  ∃ kind ∈ orderedKinds, u.kind? = some kind ∧ v.kind? = some kind

inductive Side where
  | lower
  | upper

/-- One end of a range, which belongs to the range if it is closed. -/
structure Bound where
  side : Side
  closed : Bool
  limit : Value

def Bound.Admits (b : Bound) (x : Value) : Prop :=
  (match b.side with
    | .lower => Precedes (some b.limit) (some x)
    | .upper => Precedes (some x) (some b.limit)) ∨ (b.closed = true ∧ x = b.limit)

/-- What a bound lets through, which is more than lies within it. -/
def Bound.Passes (b : Bound) : Option Value → Prop
  | none => b.side = .upper
  | some x => (Comparable x b.limit ∧ b.Admits x) ∨ (¬ Comparable x b.limit ∧ b.closed = true)

inductive Range where
  | above (limit : Value)
  | atLeast (limit : Value)
  | below (limit : Value)
  | atMost (limit : Value)
  | between (low high : Value)

namespace Range

def op : Range → Operator
  | above _ => .greater
  | atLeast _ => .greaterOrEqual
  | below _ => .less
  | atMost _ => .lessOrEqual
  | between _ _ => .between

def operand : Range → Value
  | above limit => limit
  | atLeast limit => limit
  | below limit => limit
  | atMost limit => limit
  | between low high => .list [low, high]

def bounds : Range → List Bound
  | above limit => [⟨.lower, false, limit⟩]
  | atLeast limit => [⟨.lower, true, limit⟩]
  | below limit => [⟨.upper, false, limit⟩]
  | atMost limit => [⟨.upper, true, limit⟩]
  | between low high => [⟨.lower, true, low⟩, ⟨.upper, true, high⟩]

end Range

variable {u v : Value} {value : Option Value}

theorem Comparable.symm (h : Comparable u v) : Comparable v u := by
  obtain ⟨kind, hk, hu, hv⟩ := h
  exact ⟨kind, hk, hv, hu⟩

theorem Comparable.kind?_eq (h : Comparable u v) : u.kind? = v.kind? := by
  obtain ⟨kind, _, hu, hv⟩ := h
  rw [hu, hv]

theorem Precedes.comparable (h : Precedes (some u) (some v)) : Comparable u v := by
  cases h with
  | int _ => exact ⟨.int, by decide, rfl, rfl⟩
  | uint _ => exact ⟨.uint, by decide, rfl, rfl⟩
  | float _ => exact ⟨.float, by decide, rfl, rfl⟩
  | text _ => exact ⟨.text, by decide, rfl, rfl⟩

theorem order_of_not_comparable (h : ¬ Comparable u v) : order (some u) (some v) = .eq := by
  cases hord : order (some u) (some v) with
  | lt => exact absurd (order_eq_lt_iff.1 hord).comparable h
  | gt => exact absurd (order_eq_gt_iff.1 hord).comparable.symm h
  | eq => rfl

theorem Comparable.order_eq_eq_iff (h : Comparable u v) :
    order (some u) (some v) = .eq ↔ u = v := by
  obtain ⟨kind, hk, hu, hv⟩ := h
  constructor
  · intro heq
    have hkind : ∀ {x : Value}, x.kind? = some kind → IsOfKind kind (some x) := by
      intro x hx y hy
      rwa [← Option.some.inj hy]
    exact Option.some.inj (eq_of_order_eq hk (hkind hu) (hkind hv) heq)
  · rintro rfl
    exact order_self _

theorem Bound.passes_iff (b : Bound) (value : Option Value) :
    b.Passes value ↔
      match b.side with
      | .lower => order value (some b.limit) = .gt ∨
          b.closed = true ∧ order value (some b.limit) = .eq
      | .upper => order value (some b.limit) = .lt ∨
          b.closed = true ∧ order value (some b.limit) = .eq := by
  obtain ⟨side, closed, limit⟩ := b
  cases value with
  | none => cases side <;> simp [Passes, order]
  | some x =>
    -- what is not comparable is tied with the limit, and so only the flag of the bound decides
    by_cases h : Comparable x limit
    · cases side <;>
        simp only [Passes, Admits, h, h.order_eq_eq_iff, order_eq_lt_iff, order_eq_gt_iff,
          true_and, not_true_eq_false, false_and, or_false]
    · have heq := order_of_not_comparable h
      cases side <;> simp [Passes, h, heq]

theorem holds_range_iff (range : Range) (value : Option Value) :
    holds value range.operand range.op = true ↔ ∀ b ∈ range.bounds, b.Passes value := by
  cases range <;>
    simp [Range.operand, Range.op, Range.bounds, holds, Bound.passes_iff,
      Ordering.ne_lt_iff_isGE, Ordering.isGE_iff_eq_gt_or_eq_eq,
      Ordering.ne_gt_iff_isLE, Ordering.isLE_iff_eq_lt_or_eq_eq]

theorem holds_none_iff (operand : Value) (op : Operator) :
    holds none operand op = true ↔ op = .less ∨ op = .lessOrEqual := by
  cases op with
  | between =>
    simp only [holds]
    split <;> simp [order]
  | among =>
    simp only [holds]
    split <;> simp [isSame]
  | _ => simp [holds, isSame, order]

end RecordMapping.Memory
