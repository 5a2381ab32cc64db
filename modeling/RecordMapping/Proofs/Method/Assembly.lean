import RecordMapping.Method.Template
import Mathlib.Data.List.Forall2
/-!
What a template makes of its arguments: the values go to the clauses, and sorts, limits and pages
are collected wherever they stand.
-/
namespace RecordMapping.Method

def Argument.IsPlain (a : Argument) : Prop :=
  a.limit? = none ∧ a.page? = none

namespace Arguments

def values (arguments : List Argument) : List Value :=
  arguments.filterMap (·.value?)

def limit? (arguments : List Argument) : Option Limit :=
  (arguments.filterMap (·.limit?)).getLast?

def page? (arguments : List Argument) : Option Pageable :=
  (arguments.filterMap (·.page?)).getLast?

/-- How many records are skipped, and how many are taken at most unless that is zero. -/
def window (arguments : List Argument) : UInt64 × UInt64 :=
  match limit? arguments, page? arguments with
  | some l, _ => (l.skip, l.limit)
  | none, some p => (p.skip, p.size)
  | none, none => (0, 0)

variable {arguments earlier later : List Argument}

theorem limit?_eq_none_iff : limit? arguments = none ↔ ∀ a ∈ arguments, a.limit? = none := by
  rw [limit?, List.getLast?_eq_none_iff, List.filterMap_eq_nil_iff]

theorem page?_eq_none_iff : page? arguments = none ↔ ∀ a ∈ arguments, a.page? = none := by
  rw [page?, List.getLast?_eq_none_iff, List.filterMap_eq_nil_iff]

theorem page?_insert (h : ∀ a ∈ earlier ++ later, a.IsPlain) (p : Pageable) :
    page? (earlier ++ .page p :: later) = some p := by
  have hleft : earlier.filterMap (·.page?) = [] :=
    List.filterMap_eq_nil_iff.2 fun a ha => (h a (List.mem_append_left _ ha)).2
  have hright : later.filterMap (·.page?) = [] :=
    List.filterMap_eq_nil_iff.2 fun a ha => (h a (List.mem_append_right _ ha)).2
  have hpage : (Argument.page p).page? = some p := rfl
  rw [page?, List.filterMap_append, hleft, List.filterMap_cons_some hpage, hright]
  rfl

theorem limit?_insert (h : ∀ a ∈ earlier ++ later, a.IsPlain) (p : Pageable) :
    limit? (earlier ++ .page p :: later) = none := by
  refine limit?_eq_none_iff.2 fun a ha => ?_
  rcases List.mem_append.1 ha with ha | ha
  · exact (h a (List.mem_append_left _ ha)).1
  · rcases List.mem_cons.1 ha with rfl | ha
    · rfl
    · exact (h a (List.mem_append_right _ ha)).1

theorem values_insert {a : Argument} (ha : a.value? = none) :
    values (earlier ++ a :: later) = values (earlier ++ later) := by
  rw [values, values, List.filterMap_append, List.filterMap_append, List.filterMap_cons_none ha]

theorem page?_insert_limit (l : Limit) :
    page? (earlier ++ .limit l :: later) = page? (earlier ++ later) := by
  have hlimit : (Argument.limit l).page? = none := rfl
  rw [page?, page?, List.filterMap_append, List.filterMap_append, List.filterMap_cons_none hlimit]

theorem limit?_insert_limit (h : ∀ a ∈ earlier ++ later, a.limit? = none) (l : Limit) :
    limit? (earlier ++ .limit l :: later) = some l := by
  have hleft : earlier.filterMap (·.limit?) = [] :=
    List.filterMap_eq_nil_iff.2 fun a ha => h a (List.mem_append_left _ ha)
  have hright : later.filterMap (·.limit?) = [] :=
    List.filterMap_eq_nil_iff.2 fun a ha => h a (List.mem_append_right _ ha)
  have hlimit : (Argument.limit l).limit? = some l := rfl
  rw [limit?, List.filterMap_append, hleft, List.filterMap_cons_some hlimit, hright]
  rfl

theorem window_snd_eq_zero_iff : (window arguments).2 = 0 ↔ ∀ a ∈ arguments, a.IsPlain := by
  have hplain : (∀ a ∈ arguments, a.IsPlain) ↔
      limit? arguments = none ∧ page? arguments = none := by
    rw [limit?_eq_none_iff, page?_eq_none_iff]
    exact ⟨fun h => ⟨fun a ha => (h a ha).1, fun a ha => (h a ha).2⟩,
      fun h a ha => ⟨h.1 a ha, h.2 a ha⟩⟩
  rw [hplain, window]
  cases limit? arguments with
  | some l => simp [(UInt64.ne_of_lt l.limit_pos).symm]
  | none =>
    cases page? arguments with
    | some p => simp [(UInt64.ne_of_lt p.size_pos).symm]
    | none => simp

theorem values_map_value (vs : List Value) : values (vs.map .value) = vs := by
  rw [values, List.filterMap_map]
  exact List.filterMap_some

theorem limit?_map_value (vs : List Value) : limit? (vs.map .value) = none := by
  refine limit?_eq_none_iff.2 fun a ha => ?_
  obtain ⟨v, _, rfl⟩ := List.mem_map.1 ha
  rfl

theorem page?_map_value (vs : List Value) : page? (vs.map .value) = none := by
  refine page?_eq_none_iff.2 fun a ha => ?_
  obtain ⟨v, _, rfl⟩ := List.mem_map.1 ha
  rfl

theorem window_map_value (vs : List Value) : window (vs.map .value) = (0, 0) := by
  rw [window, limit?_map_value, page?_map_value]

end Arguments

/-- The values that each clause is given: as many as its operator takes, in the order of the
clauses. -/
def allot : List Clause → List Value → List (Clause × List Value)
  | [], _ => []
  | c :: rest, values => (c, values.take c.op.arity) :: allot rest (values.drop c.op.arity)

def takes (clauses : List Clause) : Nat :=
  clauses.foldr (fun c total => c.op.arity + total) 0

theorem takes_cons_le {c : Clause} {rest : List Clause} {values : List Value}
    (h : takes (c :: rest) ≤ values.length) :
    c.op.arity ≤ values.length ∧ takes rest ≤ (values.drop c.op.arity).length := by
  rw [takes, List.foldr_cons] at h
  rw [List.length_drop]
  exact ⟨Nat.le_of_add_right_le h, Nat.le_sub_of_add_le' h⟩

theorem map_fst_allot (clauses : List Clause) (values : List Value) :
    (allot clauses values).map (·.1) = clauses := by
  induction clauses generalizing values with
  | nil => rfl
  | cons c rest ih => rw [allot, List.map_cons, ih]

theorem flatMap_snd_allot {clauses : List Clause} {values : List Value}
    (h : values.length = takes clauses) : (allot clauses values).flatMap (·.2) = values := by
  induction clauses generalizing values with
  | nil => rw [allot, List.flatMap_nil, List.length_eq_zero_iff.1 h]
  | cons c rest ih =>
    rw [takes, List.foldr_cons] at h
    have hrest : (values.drop c.op.arity).length = takes rest := by
      rw [List.length_drop, h]
      exact Nat.add_sub_cancel_left ..
    rw [allot, List.flatMap_cons, ih hrest, List.take_append_drop]

theorem length_of_mem_allot {clauses : List Clause} {values : List Value}
    (h : takes clauses ≤ values.length) {p : Clause × List Value}
    (hp : p ∈ allot clauses values) : p.2.length = p.1.op.arity := by
  induction clauses generalizing values with
  | nil => cases hp
  | cons c rest ih =>
    obtain ⟨hfirst, hrest⟩ := takes_cons_le h
    rcases List.mem_cons.1 hp with rfl | hp
    · exact List.length_take_of_le hfirst
    · exact ih hrest hp

/-- What an operator compares with: the two ends of a range, the items of a list, or one value. -/
def gather : Operator → List Value → Value
  | .between, given => .list given
  | .among, given => .list (given.headD .null).asList
  | _, given => given.headD .null

theorem Clause.operand_eq {c : Clause} {values : List Value} (h : c.op.arity ≤ values.length) :
    c.operand values = (gather c.op (values.take c.op.arity), values.drop c.op.arity) := by
  cases values with
  | nil =>
    rw [operand]
    cases hop : c.op <;> simp [hop, Operator.arity] at h
  | cons first rest =>
    rw [operand]
    cases hop : c.op with
    | between =>
      cases rest with
      | nil => simp [hop, Operator.arity] at h
      | cons second rest => rfl
    | _ => rfl

namespace Template

theorem comparisons_cons {t : Template} {c : Clause} {rest : List Clause} {values : List Value}
    (h : c.op.arity ≤ values.length) : t.comparisons (c :: rest) values =
      (t.coerce c (gather c.op (values.take c.op.arity))).bind fun operand =>
        (t.comparisons rest (values.drop c.op.arity)).map
          ((c.connector, .compare c.native c.op operand) :: ·) := by
  rw [comparisons, Clause.operand_eq h]
  simp only
  cases t.coerce c (gather c.op (values.take c.op.arity)) with
  | error e => rfl
  | ok operand => cases t.comparisons rest (values.drop c.op.arity) <;> rfl

theorem comparisons_eq_ok_iff {t : Template} {clauses : List Clause} {values : List Value}
    (h : takes clauses ≤ values.length)
    {comparisons : List (Connector × Condition)} :
    t.comparisons clauses values = .ok comparisons ↔ ∃ operands,
      List.Forall₂ (fun p operand => t.coerce p.1 (gather p.1.op p.2) = .ok operand)
        (allot clauses values) operands ∧
      comparisons = List.zipWith
        (fun c operand => (c.connector, .compare c.native c.op operand)) clauses operands := by
  induction clauses generalizing values comparisons with
  | nil =>
    rw [Template.comparisons, allot]
    constructor
    · rintro ⟨⟩
      exact ⟨[], .nil, rfl⟩
    · rintro ⟨operands, hoperands, rfl⟩
      rfl
  | cons c rest ih =>
    obtain ⟨hfirst, hrest⟩ := takes_cons_le h
    rw [comparisons_cons hfirst, allot]
    cases hoperand : t.coerce c (gather c.op (values.take c.op.arity)) with
    | error e =>
      refine iff_of_false (fun hok => nomatch hok) ?_
      rintro ⟨operands, hoperands, _⟩
      cases hoperands with
      | cons hfound _ => exact nomatch hoperand.symm.trans hfound
    | ok operand =>
      cases hothers : t.comparisons rest (values.drop c.op.arity) with
      | error e =>
        refine iff_of_false (fun hok => nomatch hok) ?_
        rintro ⟨operands, hoperands, _⟩
        cases hoperands with
        | cons _ hlater =>
          exact nomatch hothers.symm.trans ((ih hrest).2 ⟨_, hlater, rfl⟩)
      | ok others =>
        obtain ⟨later, hlater, rfl⟩ := (ih hrest).1 hothers
        constructor
        · rintro ⟨⟩
          exact ⟨operand :: later, .cons hoperand hlater, rfl⟩
        · rintro ⟨operands, hoperands, rfl⟩
          cases hoperands with
          | @cons _ found _ operands hfound hoperands =>
            obtain rfl := Except.ok.inj (hoperand.symm.trans hfound)
            have hsame := hothers.symm.trans ((ih hrest).2 ⟨_, hoperands, rfl⟩)
            rw [List.zipWith_cons_cons, ← Except.ok.inj hsame]
            rfl

theorem comparisons_eq_error_iff {t : Template} {clauses : List Clause} {values : List Value}
    (h : takes clauses ≤ values.length) {e : QueryError} :
    t.comparisons clauses values = .error e ↔ ∃ earlier c given later,
      allot clauses values = earlier ++ (c, given) :: later ∧
      (∀ p ∈ earlier, ∃ operand, t.coerce p.1 (gather p.1.op p.2) = .ok operand) ∧
      t.coerce c (gather c.op given) = .error e := by
  induction clauses generalizing values with
  | nil =>
    rw [Template.comparisons, allot]
    refine iff_of_false (fun herror => nomatch herror) ?_
    rintro ⟨earlier, c, given, later, hsplit, _⟩
    cases earlier <;> cases hsplit
  | cons c rest ih =>
    obtain ⟨hfirst, hrest⟩ := takes_cons_le h
    rw [comparisons_cons hfirst, allot]
    cases hoperand : t.coerce c (gather c.op (values.take c.op.arity)) with
    | error cause =>
      constructor
      · rintro ⟨⟩
        exact ⟨[], c, _, _, rfl, fun p hp => absurd hp List.not_mem_nil, hoperand⟩
      · rintro ⟨earlier, d, given, later, hsplit, hearlier, herror⟩
        cases earlier with
        | nil =>
          obtain ⟨hhead, _⟩ := List.cons.inj hsplit
          cases hhead
          obtain rfl := Except.error.inj (hoperand.symm.trans herror)
          rfl
        | cons p earlier =>
          obtain ⟨rfl, _⟩ := List.cons.inj hsplit
          obtain ⟨_, hfound⟩ := hearlier _ List.mem_cons_self
          exact nomatch hoperand.symm.trans hfound
    | ok operand =>
      have hothers : ((t.comparisons rest (values.drop c.op.arity)).map
          ((c.connector, Condition.compare c.native c.op operand) :: ·) = .error e) ↔
            t.comparisons rest (values.drop c.op.arity) = .error e := by
        cases t.comparisons rest (values.drop c.op.arity) <;> simp [Except.map]
      rw [Except.bind, hothers, ih hrest]
      constructor
      · rintro ⟨earlier, d, given, later, hsplit, hearlier, herror⟩
        refine ⟨_ :: earlier, d, given, later, congrArg _ hsplit, ?_, herror⟩
        exact List.forall_mem_cons.2 ⟨⟨operand, hoperand⟩, hearlier⟩
      · rintro ⟨earlier, d, given, later, hsplit, hearlier, herror⟩
        cases earlier with
        | nil =>
          obtain ⟨hhead, _⟩ := List.cons.inj hsplit
          cases hhead
          exact nomatch hoperand.symm.trans herror
        | cons p earlier =>
          obtain ⟨rfl, htail⟩ := List.cons.inj hsplit
          exact ⟨earlier, d, given, later, htail, (List.forall_mem_cons.1 hearlier).2, herror⟩

/-- Sorts among the arguments, then those of the name, then those of the page. -/
def sorts (t : Template) (arguments : List Argument) : List SortKey :=
  (arguments.flatMap (·.sortKeys)).map t.nativeSort ++
    t.name.sorts.map (fun o => ⟨o.native, o.direction⟩) ++
    ((Arguments.page? arguments).elim [] (·.sorts)).map t.nativeSort

def request (t : Template) (arguments : List Argument) (clauses : List (Connector × Condition)) :
    Request :=
  ⟨t.name.action,
    ⟨t.collection, Condition.fold clauses, t.sorts arguments, (Arguments.window arguments).1,
      (Arguments.window arguments).2⟩,
    Arguments.page? arguments⟩

theorem request_map_value (t : Template) (vs : List Value)
    (clauses : List (Connector × Condition)) : t.request (vs.map .value) clauses =
      ⟨t.name.action, { Query.ofCollection t.collection with
        condition := Condition.fold clauses
        sorts := t.name.sorts.map fun o => ⟨o.native, o.direction⟩ }, none⟩ := by
  have hkeys : (vs.map Argument.value).flatMap (·.sortKeys) = [] := by
    rw [List.flatMap_eq_nil_iff]
    intro a ha
    obtain ⟨v, _, rfl⟩ := List.mem_map.1 ha
    rfl
  simp [request, sorts, Arguments.window_map_value, Arguments.page?_map_value, hkeys,
    Query.ofCollection]

theorem assemble_eq (t : Template) (arguments : List Argument) :
    t.assemble arguments =
      if (Arguments.values arguments).length = t.arity then
        (t.comparisons t.name.clauses (Arguments.values arguments)).map (t.request arguments)
      else .error (.arity t.method t.arity (Arguments.values arguments).length) := by
  by_cases harity : (Arguments.values arguments).length = t.arity
  · rw [if_pos harity]
    rw [Arguments.values] at harity ⊢
    rw [assemble, if_neg (not_not.2 harity)]
    cases hc : t.comparisons t.name.clauses (arguments.filterMap (·.value?)) <;> rfl
  · rw [if_neg harity]
    rw [Arguments.values] at harity ⊢
    rw [assemble, if_pos harity]
    rfl

theorem assemble_eq_ok_iff {t : Template} {arguments : List Argument} {q : Request} :
    t.assemble arguments = .ok q ↔ (Arguments.values arguments).length = t.arity ∧
      ∃ clauses, t.comparisons t.name.clauses (Arguments.values arguments) = .ok clauses ∧
        q = t.request arguments clauses := by
  rw [assemble_eq]
  by_cases harity : (Arguments.values arguments).length = t.arity
  · cases hc : t.comparisons t.name.clauses (Arguments.values arguments) with
    | error e => simp [harity, Except.map]
    | ok clauses => simp [harity, Except.map, eq_comm]
  · simp [harity]

theorem assemble_eq_error_iff {t : Template} {arguments : List Argument} {e : QueryError} :
    t.assemble arguments = .error e ↔
      ((Arguments.values arguments).length ≠ t.arity ∧
        e = .arity t.method t.arity (Arguments.values arguments).length) ∨
      ((Arguments.values arguments).length = t.arity ∧
        t.comparisons t.name.clauses (Arguments.values arguments) = .error e) := by
  rw [assemble_eq]
  by_cases harity : (Arguments.values arguments).length = t.arity
  · cases hc : t.comparisons t.name.clauses (Arguments.values arguments) <;>
      simp [harity, Except.map]
  · simp [harity, eq_comm]

theorem assemble_map_value_iff {t : Template} {vs : List Value} {q : Request} :
    t.assemble (vs.map .value) = .ok q ↔ vs.length = t.arity ∧ ∃ operands,
      List.Forall₂ (fun p operand => t.coerce p.1 (gather p.1.op p.2) = .ok operand)
        (allot t.name.clauses vs) operands ∧
      q = ⟨t.name.action, { Query.ofCollection t.collection with
        condition := Condition.fold (List.zipWith
          (fun c operand => (c.connector, .compare c.native c.op operand)) t.name.clauses operands)
        sorts := t.name.sorts.map fun o => ⟨o.native, o.direction⟩ }, none⟩ := by
  rw [assemble_eq_ok_iff, Arguments.values_map_value]
  refine and_congr_right fun harity => ?_
  simp only [comparisons_eq_ok_iff (Nat.le_of_eq harity.symm), request_map_value]
  constructor
  · rintro ⟨_, ⟨operands, hoperands, rfl⟩, rfl⟩
    exact ⟨operands, hoperands, rfl⟩
  · rintro ⟨operands, hoperands, rfl⟩
    exact ⟨_, ⟨operands, hoperands, rfl⟩, rfl⟩

theorem assemble_insert_page {t : Template} {earlier later : List Argument} {q : Request}
    (hargs : ∀ a ∈ earlier ++ later, a.IsPlain) (h : t.assemble (earlier ++ later) = .ok q)
    (p : Pageable) : t.assemble (earlier ++ .page p :: later) = .ok ⟨q.action,
      { q.query with
        sorts := q.query.sorts ++ p.sorts.map t.nativeSort, skip := p.skip, limit := p.size },
      some p⟩ := by
  obtain ⟨harity, clauses, hc, rfl⟩ := assemble_eq_ok_iff.1 h
  refine assemble_eq_ok_iff.2 ⟨?_, clauses, ?_, ?_⟩
  · rw [Arguments.values_insert rfl, harity]
  · rw [Arguments.values_insert rfl, hc]
  · have hnone := Arguments.page?_eq_none_iff.2 fun a ha => (hargs a ha).2
    have hkeys : (Argument.page p).sortKeys = [] := rfl
    simp [request, sorts, Arguments.window, Arguments.page?_insert hargs,
      Arguments.limit?_insert hargs, hnone, hkeys]

theorem assemble_insert_limit {t : Template} {earlier later : List Argument} {q : Request}
    (hargs : ∀ a ∈ earlier ++ later, a.limit? = none) (h : t.assemble (earlier ++ later) = .ok q)
    (l : Limit) : t.assemble (earlier ++ .limit l :: later) = .ok { q with
      query := { q.query with skip := l.skip, limit := l.limit } } := by
  obtain ⟨harity, clauses, hc, rfl⟩ := assemble_eq_ok_iff.1 h
  refine assemble_eq_ok_iff.2 ⟨?_, clauses, ?_, ?_⟩
  · rw [Arguments.values_insert rfl, harity]
  · rw [Arguments.values_insert rfl, hc]
  · have hkeys : (Argument.limit l).sortKeys = [] := rfl
    simp [request, sorts, Arguments.window, Arguments.page?_insert_limit,
      Arguments.limit?_insert_limit hargs, hkeys]

theorem limit_eq_zero_iff {t : Template} {arguments : List Argument} {q : Request}
    (h : t.assemble arguments = .ok q) : q.query.limit = 0 ↔ ∀ a ∈ arguments, a.IsPlain := by
  obtain ⟨_, _, _, rfl⟩ := assemble_eq_ok_iff.1 h
  exact Arguments.window_snd_eq_zero_iff

end Template
end RecordMapping.Method
