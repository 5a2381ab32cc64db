import Mathlib.Data.String.Basic
import RecordMapping.Proofs.Number.TotalOrder
import RecordMapping.Store.Memory
/-!
How sorts order records. Where an attribute holds values of one kind, any two records have the same
value of it or one of them comes first, and the first sort that tells two records apart decides
between them.
-/
namespace RecordMapping.Memory

/-- Whether a value, absent ones included, comes before another one. -/
inductive Precedes : Option Value → Option Value → Prop
  | absent (v : Value) : Precedes none (some v)
  | int {a b : Int64} : a.toInt < b.toInt → Precedes (some (.int a)) (some (.int b))
  | uint {a b : UInt64} : a.toNat < b.toNat → Precedes (some (.uint a)) (some (.uint b))
  | float {a b : Number.Binary64} : a.Precedes b → Precedes (some (.float a)) (some (.float b))
  | text {a b : String} : a < b → Precedes (some (.text a)) (some (.text b))

def orderedKinds : List ValueKind :=
  [.int, .uint, .float, .text]

def IsOfKind (kind : ValueKind) (value : Option Value) : Prop :=
  ∀ v, value = some v → v.kind? = some kind

/-- Whether the records that have an attribute hold values of one ordered kind in it. -/
def Uniform (records : List Record) (name : String) : Prop :=
  ∃ kind ∈ orderedKinds, ∀ r ∈ records, IsOfKind kind (r.find? name)

def Places (s : SortKey) (a b : Record) : Prop :=
  match s.direction with
  | .ascending => Precedes (a.find? s.name) (b.find? s.name)
  | .descending => Precedes (b.find? s.name) (a.find? s.name)

def Tied (sorts : List SortKey) (a b : Record) : Prop :=
  ∀ s ∈ sorts, a.find? s.name = b.find? s.name

/-- Whether the first sort that tells two records apart places the first of them before the
second. -/
inductive Ahead : List SortKey → Record → Record → Prop
  | first {s : SortKey} {rest : List SortKey} {a b : Record} : Places s a b →
    Ahead (s :: rest) a b
  | later {s : SortKey} {rest : List SortKey} {a b : Record} :
    a.find? s.name = b.find? s.name → Ahead rest a b → Ahead (s :: rest) a b

/-- Whether the comparison by some sorts is a total order on some records, as sorting them presumes.
Since it is turned round with its two records (`orderBy_swap`), only transitivity is asked for. -/
def Orders (sorts : List SortKey) (records : List Record) : Prop :=
  ∀ a ∈ records, ∀ b ∈ records, ∀ c ∈ records,
    orderBy sorts a b ≠ .gt → orderBy sorts b c ≠ .gt → orderBy sorts a c ≠ .gt

variable {u v w : Option Value} {kind : ValueKind} {sorts : List SortKey} {a b c : Record}
  {records : List Record}

theorem order_self (u : Option Value) : order u u = .eq := by
  cases u with
  | none => rfl
  | some v =>
    cases v with
    | int a => exact compare_eq_iff_eq.2 rfl
    | uint a => exact compare_eq_iff_eq.2 rfl
    | float a => exact compare_eq_iff_eq.2 rfl
    | text a => simp [order, compareOfLessAndEq]
    | _ => rfl

theorem order_eq_lt_iff : order u v = .lt ↔ Precedes u v := by
  constructor
  · intro h
    rw [order.eq_def] at h
    split at h
    · exact .int (compare_lt_iff_lt.1 h)
    · exact .uint (compare_lt_iff_lt.1 h)
    · exact .float (Number.Binary64.rank_lt_iff.1 (compare_lt_iff_lt.1 h))
    · exact .text (compareOfLessAndEq_eq_lt.1 h)
    · exact .absent _
    · cases h
    · cases h
  · rintro (_ | h | h | h | h)
    · rfl
    · exact compare_lt_iff_lt.2 h
    · exact compare_lt_iff_lt.2 h
    · exact compare_lt_iff_lt.2 (Number.Binary64.rank_lt_iff.2 h)
    · exact compareOfLessAndEq_eq_lt.2 h

theorem order_none (x : Value) : order (some x) none = .gt := by
  cases x <;> rfl

theorem order_eq_gt_iff : order u v = .gt ↔ Precedes v u := by
  constructor
  · intro h
    rw [order.eq_def] at h
    split at h
    · exact .int (compare_gt_iff_gt.1 h)
    · exact .uint (compare_gt_iff_gt.1 h)
    · exact .float (Number.Binary64.rank_lt_iff.1 (compare_gt_iff_gt.1 h))
    · exact .text (compare_gt_iff_gt.1 h)
    · cases h
    · exact .absent _
    · cases h
  · rintro (_ | h | h | h | h)
    · exact order_none _
    · exact compare_gt_iff_gt.2 h
    · exact compare_gt_iff_gt.2 h
    · exact compare_gt_iff_gt.2 (Number.Binary64.rank_lt_iff.2 h)
    · exact compare_gt_iff_gt.2 h

theorem Precedes.trans (huv : Precedes u v) (hvw : Precedes v w) : Precedes u w := by
  cases huv with
  | absent _ => cases hvw <;> exact .absent _
  | int h => cases hvw with | int h' => exact .int (h.trans h')
  | uint h => cases hvw with | uint h' => exact .uint (h.trans h')
  | float h => cases hvw with | float h' => exact .float (h.trans h')
  | text h => cases hvw with | text h' => exact .text (h.trans h')

theorem eq_of_order_eq (hk : kind ∈ orderedKinds) (hu : IsOfKind kind u) (hv : IsOfKind kind v)
    (h : order u v = .eq) : u = v := by
  cases u with
  | none =>
    cases v with
    | none => rfl
    | some y => cases h
  | some x =>
    cases v with
    | none => cases (order_none x).symm.trans h
    | some y =>
      have hx := hu x rfl
      have hy := hv y rfl
      cases x with
      | int a =>
        cases y with
        | int b => rw [Int64.toInt_inj.1 (compare_eq_iff_eq.1 h)]
        | _ => cases hx.trans hy.symm
      | uint a =>
        cases y with
        | uint b => rw [UInt64.toNat_inj.1 (compare_eq_iff_eq.1 h)]
        | _ => cases hx.trans hy.symm
      | float a =>
        cases y with
        | float b => rw [Number.Binary64.eq_of_rank_eq (compare_eq_iff_eq.1 h)]
        | _ => cases hx.trans hy.symm
      | text a =>
        cases y with
        | text b => rw [show a = b from compare_eq_iff_eq.1 h]
        | _ => cases hx.trans hy.symm
      | null => cases hx
      | blob _ | bool _ | list _ | record _ =>
        obtain rfl := Option.some.inj hx
        exact absurd hk (by decide)

theorem order_swap (u v : Option Value) : (order u v).swap = order v u := by
  cases h : order u v with
  | lt => exact (order_eq_gt_iff.2 (order_eq_lt_iff.1 h)).symm
  | gt => exact (order_eq_lt_iff.2 (order_eq_gt_iff.1 h)).symm
  | eq =>
    cases h' : order v u with
    | lt => cases h.symm.trans (order_eq_gt_iff.2 (order_eq_lt_iff.1 h'))
    | gt => cases h.symm.trans (order_eq_lt_iff.2 (order_eq_gt_iff.1 h'))
    | eq => rfl

theorem orderBy_cons_eq_lt_iff {s : SortKey} {rest : List SortKey} :
    orderBy (s :: rest) a b = .lt ↔ Places s a b ∨
      order (a.find? s.name) (b.find? s.name) = .eq ∧ orderBy rest a b = .lt := by
  rw [orderBy, Ordering.then_eq_lt, Places]
  cases s.direction with
  | ascending => simp only [order_eq_lt_iff]
  | descending => simp only [Ordering.swap_eq_lt, Ordering.swap_eq_eq, order_eq_gt_iff]

theorem orderBy_cons_eq_eq_iff {s : SortKey} {rest : List SortKey} :
    orderBy (s :: rest) a b = .eq ↔
      order (a.find? s.name) (b.find? s.name) = .eq ∧ orderBy rest a b = .eq := by
  rw [orderBy, Ordering.then_eq_eq]
  cases s.direction with
  | ascending => rfl
  | descending => simp only [Ordering.swap_eq_eq]

theorem orderBy_eq_eq_iff : orderBy sorts a b = .eq ↔
    ∀ s ∈ sorts, order (a.find? s.name) (b.find? s.name) = .eq := by
  induction sorts with
  | nil => simp [orderBy]
  | cons s rest ih => rw [orderBy_cons_eq_eq_iff, ih, List.forall_mem_cons]

theorem orderBy_swap (sorts : List SortKey) (a b : Record) :
    (orderBy sorts a b).swap = orderBy sorts b a := by
  induction sorts with
  | nil => rfl
  | cons s rest ih =>
    rw [orderBy, orderBy, Ordering.swap_then, ih]
    cases s.direction with
    | ascending => rw [← order_swap (a.find? s.name)]
    | descending => rw [← order_swap (a.find? s.name)]

theorem orderBy_ne_gt_iff : orderBy sorts a b ≠ .gt ↔ orderBy sorts b a ≠ .lt := by
  rw [← orderBy_swap sorts b a, Ne, Ordering.swap_eq_gt]

theorem Orders.mono {others : List Record} (h : Orders sorts records) (hsub : others ⊆ records) :
    Orders sorts others :=
  fun a ha b hb c hc => h a (hsub ha) b (hsub hb) c (hsub hc)

theorem orders_nil (records : List Record) : Orders [] records :=
  fun _ _ _ _ _ _ _ _ => nofun

theorem orderBy_append (earlier later : List SortKey) (a b : Record) :
    orderBy (earlier ++ later) a b = (orderBy earlier a b).then (orderBy later a b) := by
  induction earlier with
  | nil => rfl
  | cons s rest ih => rw [List.cons_append, orderBy, orderBy, ih, Ordering.then_assoc]

theorem orderBy_repeated {s : SortKey} {earlier : List SortKey} (later : List SortKey)
    (h : s.name ∈ earlier.map (·.name)) (a b : Record) :
    orderBy (earlier ++ s :: later) a b = orderBy (earlier ++ later) a b := by
  rw [orderBy_append, orderBy_append]
  cases hearlier : orderBy earlier a b with
  | lt => rfl
  | gt => rfl
  | eq =>
    obtain ⟨t, ht, hname⟩ := List.mem_map.1 h
    have hsame : order (a.find? s.name) (b.find? s.name) = .eq :=
      hname ▸ orderBy_eq_eq_iff.1 hearlier t ht
    rw [orderBy, hsame]
    cases s.direction <;> rfl

theorem Ahead.of_tied (htied : Tied sorts a b) (h : Ahead sorts a c) : Ahead sorts b c := by
  induction h with
  | first hplaces =>
    refine .first ?_
    rwa [Places, ← htied _ List.mem_cons_self]
  | later heq _ ih =>
    obtain ⟨hfirst, hrest⟩ := List.forall_mem_cons.1 htied
    exact .later (hfirst.symm.trans heq) (ih hrest)

theorem Places.trans {s : SortKey} (hab : Places s a b) (hbc : Places s b c) : Places s a c := by
  rw [Places] at hab hbc ⊢
  cases hdirection : s.direction with
  | ascending =>
    rw [hdirection] at hab hbc
    exact hab.trans hbc
  | descending =>
    rw [hdirection] at hab hbc
    exact hbc.trans hab

theorem Ahead.trans (hab : Ahead sorts a b) (hbc : Ahead sorts b c) : Ahead sorts a c := by
  induction hab with
  | first hplaces =>
    cases hbc with
    | first hplaces' => exact .first (hplaces.trans hplaces')
    | later heq _ =>
      refine .first ?_
      rwa [Places, ← heq]
  | later heq _ ih =>
    cases hbc with
    | first hplaces =>
      refine .first ?_
      rwa [Places, heq]
    | later heq' hrest => exact .later (heq.trans heq') (ih hrest)

section Uniform

variable (hu : ∀ s ∈ sorts, Uniform records s.name) (ha : a ∈ records) (hb : b ∈ records)
include hu ha hb

theorem order_eq_eq_iff {s : SortKey} (hs : s ∈ sorts) :
    order (a.find? s.name) (b.find? s.name) = .eq ↔ a.find? s.name = b.find? s.name := by
  obtain ⟨kind, hk, hkind⟩ := hu s hs
  constructor
  · exact eq_of_order_eq hk (hkind a ha) (hkind b hb)
  · intro h
    rw [h, order_self]

theorem orderBy_eq_eq_iff_tied : orderBy sorts a b = .eq ↔ Tied sorts a b := by
  rw [orderBy_eq_eq_iff]
  exact forall₂_congr fun s hs => order_eq_eq_iff hu ha hb hs

theorem orderBy_eq_lt_iff_ahead : orderBy sorts a b = .lt ↔ Ahead sorts a b := by
  induction sorts with
  | nil =>
    refine iff_of_false nofun ?_
    rintro ⟨⟩
  | cons s rest ih =>
    rw [orderBy_cons_eq_lt_iff, order_eq_eq_iff hu ha hb List.mem_cons_self,
      ih fun t ht => hu t (List.mem_cons_of_mem s ht)]
    constructor
    · rintro (h | ⟨heq, h⟩)
      · exact .first h
      · exact .later heq h
    · rintro (h | ⟨heq, h⟩)
      · exact .inl h
      · exact .inr ⟨heq, h⟩

theorem ahead_trichotomy : Ahead sorts a b ∨ Tied sorts a b ∨ Ahead sorts b a := by
  cases h : orderBy sorts a b with
  | lt => exact .inl ((orderBy_eq_lt_iff_ahead hu ha hb).1 h)
  | eq => exact .inr (.inl ((orderBy_eq_eq_iff_tied hu ha hb).1 h))
  | gt =>
    have hswap := orderBy_swap sorts a b
    rw [h] at hswap
    exact .inr (.inr ((orderBy_eq_lt_iff_ahead hu hb ha).1 hswap.symm))

theorem not_ahead_trans (hab : ¬ Ahead sorts a b) (hbc : ¬ Ahead sorts b c) :
    ¬ Ahead sorts a c := by
  intro hac
  rcases ahead_trichotomy hu ha hb with h | h | h
  · exact hab h
  · exact hbc (hac.of_tied h)
  · exact hbc (h.trans hac)

theorem ahead_or_tied (h : ¬ Ahead sorts b a) : Ahead sorts a b ∨ Tied sorts a b := by
  rcases ahead_trichotomy hu ha hb with hlt | htied | hgt
  · exact .inl hlt
  · exact .inr htied
  · exact absurd hgt h

end Uniform

/-- Values of one ordered kind are compared by a total order. -/
theorem Orders.of_uniform (hu : ∀ s ∈ sorts, Uniform records s.name) : Orders sorts records := by
  intro a ha b hb c hc hab hbc
  rw [orderBy_ne_gt_iff, Ne, orderBy_eq_lt_iff_ahead hu] at hab hbc ⊢
  · exact not_ahead_trans hu hc hb hbc hab
  all_goals assumption

end RecordMapping.Memory
