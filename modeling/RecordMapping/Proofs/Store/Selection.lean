import Mathlib.Data.List.Induction
import RecordMapping.Proofs.Store.Ordering
import RecordMapping.Proofs.Store.Sorting
/-!
What a query selects: its matches in the order of the sorts, those that the sorts leave equal in the
order in which they were stored, and of these what its window lets through.
-/
namespace RecordMapping.Memory

variable {sorts : List SortKey} {records sorted run : List Record} {r : Record}

theorem sort_concat (sorts : List SortKey) (records : List Record) (r : Record) :
    sort sorts (records ++ [r]) = (insertBack sorts r (sort sorts records).reverse).reverse := by
  simp [sort]

/-- Insertion keeps a list in order; the list is given from its end. -/
theorem insertBack_pairwise (ho : Orders sorts records) (hr : r ∈ records)
    (hsorted : ∀ x ∈ sorted, x ∈ records)
    (h : sorted.Pairwise fun later earlier => orderBy sorts earlier later ≠ .gt) :
    (insertBack sorts r sorted).Pairwise fun later earlier =>
      orderBy sorts earlier later ≠ .gt := by
  induction sorted with
  | nil => exact List.pairwise_singleton _ _
  | cons last rest ih =>
    obtain ⟨hlast, hrest⟩ := List.forall_mem_cons.1 hsorted
    obtain ⟨hbefore, hpairwise⟩ := List.pairwise_cons.1 h
    rw [insertBack]
    split
    · next hlt =>
      -- the record moves on, past one that it is ahead of
      have hahead : orderBy sorts r last = .lt := by simpa using hlt
      refine List.pairwise_cons.2 ⟨fun x hx => ?_, ih hrest hpairwise⟩
      rcases List.mem_cons.1 ((insertBack_perm sorts r rest).mem_iff.1 hx) with rfl | hx
      · rw [hahead]
        decide
      · exact hbefore x hx
    · next hlt =>
      have hstays : orderBy sorts last r ≠ .gt := orderBy_ne_gt_iff.2 (by simpa using hlt)
      refine List.pairwise_cons.2 ⟨fun x hx => ?_, h⟩
      rcases List.mem_cons.1 hx with rfl | hx
      · exact hstays
      · exact ho x (hrest x hx) last hlast r hr (hbefore x hx) hstays

theorem sort_pairwise (ho : Orders sorts records) :
    (sort sorts records).Pairwise fun a b => orderBy sorts a b ≠ .gt := by
  induction records using List.reverseRecOn with
  | nil => exact List.Pairwise.nil
  | append_singleton records r ih =>
    have hearlier := ih (ho.mono fun x hx => List.mem_append_left _ hx)
    rw [sort_concat, List.pairwise_reverse]
    refine insertBack_pairwise ho (by simp) (fun x hx => ?_) (List.pairwise_reverse.2 hearlier)
    exact List.mem_append_left _ ((sort_perm sorts records).mem_iff.1 (List.mem_reverse.1 hx))

theorem sublist_insertBack (sorts : List SortKey) (r : Record) (sorted : List Record) :
    sorted.Sublist (insertBack sorts r sorted) := by
  induction sorted with
  | nil => exact List.nil_sublist _
  | cons last rest ih =>
    rw [insertBack]
    split
    · exact ih.cons_cons last
    · exact List.sublist_cons_self r _

theorem cons_sublist_insertBack (hrun : run.Sublist sorted)
    (h : ∀ x ∈ run, orderBy sorts r x ≠ .lt) : (r :: run).Sublist (insertBack sorts r sorted) := by
  induction sorted generalizing run with
  | nil =>
    obtain rfl := List.sublist_nil.1 hrun
    exact List.Sublist.refl _
  | cons last rest ih =>
    rw [insertBack]
    split
    · next hlt =>
      -- what the record passes is none of the run
      cases hrun with
      | cons _ hrun => exact (ih hrun h).cons last
      | cons_cons _ hrun => exact absurd (by simpa using hlt) (h last List.mem_cons_self)
    · exact hrun.cons_cons r

/-- Records that stand in order already keep their places to each other. -/
theorem sort_stable (hrun : run.Sublist records)
    (h : run.Pairwise fun a b => orderBy sorts b a ≠ .lt) : run.Sublist (sort sorts records) := by
  induction records using List.reverseRecOn generalizing run with
  | nil => exact hrun
  | append_singleton records r ih =>
    rw [sort_concat]
    obtain ⟨earlier, last, rfl, hearlier, hlast⟩ := List.sublist_append_iff.1 hrun
    obtain ⟨hpairwise, _, hcross⟩ := List.pairwise_append.1 h
    have hkept := (ih hearlier hpairwise).reverse
    rcases List.sublist_singleton.1 hlast with rfl | rfl
    · rw [List.append_nil, ← List.reverse_reverse earlier]
      exact (hkept.trans (sublist_insertBack sorts r _)).reverse
    · have hinserted := cons_sublist_insertBack (r := r) hkept fun x hx =>
        hcross x (List.mem_reverse.1 hx) r List.mem_cons_self
      simpa using hinserted.reverse

theorem sort_congr {others : List SortKey} (h : ∀ a b, orderBy sorts a b = orderBy others a b)
    (records : List Record) : sort sorts records = sort others records := by
  have hback : insertBack sorts = insertBack others := by
    funext r sorted
    induction sorted with
    | nil => rfl
    | cons last rest ih => rw [insertBack, insertBack, h, ih]
  rw [sort, sort, hback]

/-- The records that a query asks for, in the order in which they were stored. -/
def found (records : List Record) (q : Query) : List Record :=
  records.filter (isMatch q.collection q.condition)

/-- Whether a list holds some records in the order in which sorts compare them, those that compare
equal in the order that they had. -/
structure InOrder (sorts : List SortKey) (records sorted : List Record) : Prop where
  perm : sorted.Perm records
  ordered : sorted.Pairwise fun a b => orderBy sorts a b ≠ .gt
  stable : ∀ run : List Record, run.Sublist records →
    (run.Pairwise fun a b => orderBy sorts a b = .eq) → run.Sublist sorted

theorem sort_inOrder (ho : Orders sorts records) : InOrder sorts records (sort sorts records) where
  perm := sort_perm sorts records
  ordered := sort_pairwise ho
  stable := by
    intro run hrun hequal
    refine sort_stable hrun (hequal.imp fun h => ?_)
    rw [← orderBy_swap, h]
    decide

theorem select_inOrder {q : Query} (ho : Orders q.sorts (found records q)) :
    InOrder q.sorts (found records q) (select records { q with skip := 0, limit := 0 }) := by
  rw [select, window_zero]
  exact sort_inOrder ho

/-- Whether a list holds some records in the order of sorts, those that the sorts leave equal in the
order that they had. -/
structure StablySorted (sorts : List SortKey) (records sorted : List Record) : Prop where
  perm : sorted.Perm records
  ordered : sorted.Pairwise fun a b => Ahead sorts a b ∨ Tied sorts a b
  stable : ∀ run : List Record, run.Sublist records → run.Pairwise (Tied sorts) →
    run.Sublist sorted

theorem InOrder.stablySorted (h : InOrder sorts records sorted)
    (hu : ∀ s ∈ sorts, Uniform records s.name) : StablySorted sorts records sorted where
  perm := h.perm
  ordered := by
    have hmem : ∀ x ∈ sorted, x ∈ records := fun x hx => h.perm.mem_iff.1 hx
    refine h.ordered.imp_of_mem fun ha hb hab => ?_
    rw [orderBy_ne_gt_iff, Ne, orderBy_eq_lt_iff_ahead hu (hmem _ hb) (hmem _ ha)] at hab
    exact ahead_or_tied hu (hmem _ ha) (hmem _ hb) hab
  stable := by
    intro run hrun htied
    refine h.stable run hrun (htied.imp_of_mem fun ha hb htied => ?_)
    exact (orderBy_eq_eq_iff_tied hu (hrun.subset ha) (hrun.subset hb)).2 htied

/-- Where every attribute that is sorted by holds values of one ordered kind, a query selects its
matches in the order of its sorts, and those that no sort tells apart as they were stored; an
attribute that is sorted by again changes nothing. A window cuts out of this list what is skipped
and what is beyond the limit, of which there is none if it is zero. No record is changed. -/
theorem selects_sorted_window {q : Query} (hu : ∀ s ∈ q.sorts, Uniform (found records q) s.name) :
    ∃ all, store.select { q with skip := 0, limit := 0 } records = (.ok all, records) ∧
      StablySorted q.sorts (found records q) all ∧
      store.select q records =
        (.ok (if q.limit = 0 then all.drop q.skip.toNat
          else (all.drop q.skip.toNat).take q.limit.toNat), records) ∧
      ∀ earlier s later, q.sorts = earlier ++ s :: later → s.name ∈ earlier.map (·.name) →
        store.select { q with sorts := earlier ++ later } records = store.select q records := by
  have hsorted := (sort_inOrder (Orders.of_uniform hu)).stablySorted hu
  refine ⟨sort q.sorts (found records q), ?_, hsorted, rfl, ?_⟩
  · have hall : select records { q with skip := 0, limit := 0 } = sort q.sorts (found records q) :=
      window_zero _
    rw [← hall]
    rfl
  · intro earlier s later hsorts hname
    have hsort : sort (earlier ++ later) (found records q) = sort q.sorts (found records q) := by
      rw [hsorts]
      exact sort_congr (fun a b => (orderBy_repeated later hname a b).symm) _
    have hselect : select records { q with sorts := earlier ++ later } = select records q :=
      congrArg (window q.skip q.limit) hsort
    exact congrArg (fun content => (Except.ok content, records)) hselect

def race : List Record :=
  [⟨"runs", [⟨"team", .text "b"⟩, ⟨"time", .float (.ofMagnitude false 0)⟩]⟩,
    ⟨"runs", [⟨"team", .text "a"⟩, ⟨"lane", .int 1⟩]⟩,
    ⟨"laps", [⟨"team", .bool true⟩]⟩,
    ⟨"runs", [⟨"team", .text "b"⟩, ⟨"time", .float (.ofMagnitude true 0)⟩]⟩,
    ⟨"runs", [⟨"team", .text "a"⟩, ⟨"lane", .int 2⟩]⟩]

/-- The negative zero comes first, the two runs without a time stay in their lanes, and ordering by
the teams again does not turn them round. -/
theorem race_sorted :
    let q : Query :=
      ⟨"runs", none, [⟨"team", .descending⟩, ⟨"time", .ascending⟩, ⟨"team", .ascending⟩], 1, 2⟩
    (∀ s ∈ q.sorts, Uniform (found race q) s.name) ∧
    ∃ all, store.select { q with skip := 0, limit := 0 } race = (.ok all, race) ∧
      StablySorted q.sorts (found race q) all ∧
      all.map (·.find? "time") = [some (.float (.ofMagnitude true 0)),
        some (.float (.ofMagnitude false 0)), none, none] ∧
      all.map (·.find? "lane") = [none, none, some (.int 1), some (.int 2)] ∧
      store.select q race = (.ok ((all.drop 1).take 2), race) ∧
      store.select { q with sorts := [⟨"team", .descending⟩, ⟨"time", .ascending⟩] } race =
        store.select q race := by
  intro q
  have hmatches : found race q = [⟨"runs", [⟨"team", .text "b"⟩,
      ⟨"time", .float (.ofMagnitude false 0)⟩]⟩,
    ⟨"runs", [⟨"team", .text "a"⟩, ⟨"lane", .int 1⟩]⟩,
    ⟨"runs", [⟨"team", .text "b"⟩, ⟨"time", .float (.ofMagnitude true 0)⟩]⟩,
    ⟨"runs", [⟨"team", .text "a"⟩, ⟨"lane", .int 2⟩]⟩] := rfl
  have hteam : Uniform (found race q) "team" := by
    refine ⟨.text, by decide, ?_⟩
    rw [hmatches]
    simp [IsOfKind, Record.find?, Named.lookup, Value.kind?]
  have htime : Uniform (found race q) "time" := by
    refine ⟨.float, by decide, ?_⟩
    rw [hmatches]
    simp [IsOfKind, Record.find?, Named.lookup, Value.kind?]
  have hu : ∀ s ∈ q.sorts, Uniform (found race q) s.name :=
    List.forall_mem_cons.2 ⟨hteam, List.forall_mem_cons.2 ⟨htime,
      List.forall_mem_singleton.2 hteam⟩⟩
  obtain ⟨all, hall, hsorted, hwindow, hrepeated⟩ := selects_sorted_window hu
  have heq : Except.ok all = (store.select { q with skip := 0, limit := 0 } race).1 :=
    congrArg Prod.fst hall.symm
  obtain rfl := Except.ok.inj heq
  exact ⟨hu, _, hall, hsorted, rfl, rfl, hwindow,
    hrepeated [⟨"team", .descending⟩, ⟨"time", .ascending⟩] ⟨"team", .ascending⟩ [] rfl (by decide)⟩

end RecordMapping.Memory
