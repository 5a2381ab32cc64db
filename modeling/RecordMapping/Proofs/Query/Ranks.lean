import Mathlib.Data.List.Enum
import RecordMapping.Proofs.Query.Pages
/-!
Limits: windows computed without overflow, and what a limit lets through, counted by ranks.
-/
namespace RecordMapping

open RecordMapping.Number RecordMapping.Method

namespace Limit

/-- The window of a range of ranks, computed without a step that leaves the counts. -/
def checkedRange (start stop : UInt64) : Option (UInt64 × UInt64) := do
  let skip ← checkedSub start 1
  let span ← checkedSub stop start
  let limit ← checkedAdd span 1
  return (skip, limit)

variable {start stop count : UInt64} {l : Limit}

theorem toNat_limit_pos (l : Limit) : 0 < l.limit.toNat :=
  UInt64.lt_iff_toNat_lt.1 l.limit_pos

theorem one_le_limit (l : Limit) : 1 ≤ l.limit :=
  one_le_iff.2 l.limit_pos

theorem ext_toNat {l m : Limit} (hskip : l.skip.toNat = m.skip.toNat)
    (hlimit : l.limit.toNat = m.limit.toNat) : l = m := by
  obtain ⟨skip, limit, _⟩ := l
  obtain rfl := UInt64.toNat_inj.1 hskip
  obtain rfl := UInt64.toNat_inj.1 hlimit
  rfl

theorem range_eq_ok_iff : range start stop = .ok l ↔
    l.skip.toNat + 1 = start.toNat ∧ l.skip.toNat + l.limit.toNat = stop.toNat := by
  have hpos := l.toNat_limit_pos
  have hstop := toNat_le_maxCount stop
  rw [range]
  split
  · next h =>
    obtain ⟨hstart, hle⟩ := h
    rw [UInt64.lt_iff_toNat_lt, UInt64.toNat_zero] at hstart
    rw [UInt64.le_iff_toNat_le] at hle
    have hskip : (saturatingSub start 1).toNat = start.toNat - 1 := saturatingSub_toNat start 1
    have hlimit : (saturatingAdd (saturatingSub stop start) 1).toNat =
        stop.toNat - start.toNat + 1 := by
      rw [saturatingAdd_toNat, saturatingSub_toNat, UInt64.toNat_one]
      omega
    constructor
    · rintro ⟨⟩
      rw [hskip, hlimit]
      omega
    · rintro ⟨hfirst, hlast⟩
      refine congrArg Except.ok (ext_toNat ?_ ?_)
      · rw [hskip]
        omega
      · rw [hlimit]
        omega
  · next h =>
    refine iff_of_false (fun hok => nomatch hok) ?_
    rintro ⟨hfirst, hlast⟩
    refine h ⟨?_, ?_⟩
    · rw [UInt64.lt_iff_toNat_lt, UInt64.toNat_zero]
      omega
    · rw [UInt64.le_iff_toNat_le]
      omega

theorem exists_range_iff : (∃ l, range start stop = .ok l) ↔ 1 ≤ start ∧ start ≤ stop := by
  rw [range, one_le_iff]
  split
  · next h => exact iff_of_true ⟨_, rfl⟩ h
  · next h => exact iff_of_false (fun ⟨_, hok⟩ => nomatch hok) h

theorem checkedRange_eq_some_iff {window : UInt64 × UInt64} :
    checkedRange start stop = some window ↔
      ∃ l, range start stop = .ok l ∧ window = (l.skip, l.limit) := by
  simp only [checkedRange, Option.bind_eq_bind, Option.bind_eq_some_iff, checkedSub_eq_some_iff,
    checkedAdd_eq_some_iff, UInt64.toNat_one, range_eq_ok_iff, Option.pure_def, Option.some.injEq]
  constructor
  · rintro ⟨skip, hskip, span, hspan, limit, hlimit, rfl⟩
    have hpos : 0 < limit := UInt64.lt_iff_toNat_lt.2 (hlimit ▸ Nat.succ_pos _)
    refine ⟨⟨skip, limit, hpos⟩, ⟨hskip, ?_⟩, rfl⟩
    simp only
    omega
  · rintro ⟨l, ⟨hfirst, hlast⟩, rfl⟩
    have hpos := l.toNat_limit_pos
    -- the span is one less than the limit, which is not zero
    refine ⟨l.skip, hfirst, saturatingSub l.limit 1, ?_, l.limit, ?_, rfl⟩
    · rw [saturatingSub_toNat, UInt64.toNat_one]
      omega
    · rw [saturatingSub_toNat, UInt64.toNat_one]
      omega

theorem first_eq_ok_iff : first count = .ok l ↔ l.skip = 0 ∧ l.limit = count := by
  rw [first]
  split
  · next h =>
    constructor
    · rintro ⟨⟩
      exact ⟨rfl, rfl⟩
    · obtain ⟨skip, limit, _⟩ := l
      rintro ⟨rfl, rfl⟩
      rfl
  · next h =>
    refine iff_of_false (fun hok => nomatch hok) ?_
    rintro ⟨_, rfl⟩
    exact h l.limit_pos

theorem exists_first_iff : (∃ l, first count = .ok l) ↔ 1 ≤ count := by
  constructor
  · rintro ⟨l, hl⟩
    rw [← (first_eq_ok_iff.1 hl).2]
    exact l.one_le_limit
  · intro h
    exact ⟨⟨0, count, one_le_iff.1 h⟩, first_eq_ok_iff.2 ⟨rfl, rfl⟩⟩

end Limit

theorem Pageable.one_le_size (p : Pageable) : 1 ≤ p.size :=
  one_le_iff.2 p.size_pos

theorem Pageable.skip_eq (p : Pageable) : ∃ before, checkedSub p.page 1 = some before ∧
    p.skip.toNat = min (before.toNat * p.size.toNat) maxCount := by
  have hpage : 0 < p.page.toNat := UInt64.lt_iff_toNat_lt.1 p.page_pos
  refine ⟨saturatingSub p.page 1, checkedSub_eq_some_iff.2 ?_, saturate_toNat _⟩
  rw [saturatingSub_toNat, UInt64.toNat_one]
  exact Nat.sub_add_cancel hpage

section Ranked

variable {α : Type}

/-- The elements with a rank from one count to another, ranks counted from one. -/
def ranked (start stop : UInt64) (items : List α) : List α :=
  ((items.zipIdx 1).filter fun p => start.toNat ≤ p.2 ∧ p.2 ≤ stop.toNat).map (·.1)

theorem map_filter_zipIdx (items : List α) (k start stop : Nat) :
    ((items.zipIdx k).filter fun p => start ≤ p.2 ∧ p.2 < stop).map (·.1) =
      (items.drop (start - k)).take (stop - max start k) := by
  induction items generalizing k with
  | nil => simp
  | cons item rest ih =>
    rw [List.zipIdx_cons, List.filter_cons]
    by_cases hstart : start ≤ k
    · -- nothing is left to drop, and the rest is cut from its beginning on
      have hmax : max start k = k := Nat.max_eq_right hstart
      have hnext : max start (k + 1) = k + 1 := Nat.max_eq_right (Nat.le_succ_of_le hstart)
      have hrest := ih (k + 1)
      rw [Nat.sub_eq_zero_of_le (Nat.le_succ_of_le hstart), hnext, List.drop_zero] at hrest
      rw [Nat.sub_eq_zero_of_le hstart, hmax, List.drop_zero]
      by_cases hstop : k < stop
      · have htake : stop - k = stop - (k + 1) + 1 := by omega
        rw [if_pos (by simp [hstart, hstop]), List.map_cons, hrest, htake, List.take_succ_cons]
      · have htake : stop - (k + 1) = stop - k := by omega
        rw [if_neg (by simp [hstop]), hrest, htake]
        rw [Nat.sub_eq_zero_of_le (Nat.le_of_not_lt hstop), List.take_zero, List.take_zero]
    · have hdrop : start - k = start - (k + 1) + 1 := by omega
      have hmax : max start (k + 1) = max start k := by omega
      rw [if_neg (by simp [hstart]), ih, hdrop, hmax, List.drop_succ_cons]

theorem Limit.ranked_eq {start stop : UInt64} {l : Limit} (h : Limit.range start stop = .ok l)
    (items : List α) :
    (items.drop l.skip.toNat).take l.limit.toNat = ranked start stop items := by
  obtain ⟨hfirst, hlast⟩ := Limit.range_eq_ok_iff.1 h
  have hcut := map_filter_zipIdx items 1 start.toNat (stop.toNat + 1)
  have hskip : start.toNat - 1 = l.skip.toNat := by omega
  have hlimit : stop.toNat + 1 - max start.toNat 1 = l.limit.toNat := by omega
  rw [hskip, hlimit] at hcut
  rw [← hcut, ranked]
  simp only [Nat.lt_succ_iff]

end Ranked

namespace Repository

variable {r : Repository}

/-- Whether a method call with a limit inserted among the other arguments answers some entities. -/
def AnswersWithin (r : Repository) (records : List Record) (method : String)
    (earlier later : List Argument) (page : Option Pageable) (l : Limit) (content : List Entity) :
    Prop :=
  (r.invoke Memory.store ⟨method, earlier ++ .limit l :: later⟩).answer records =
    (.ok (foundAs content page), records)

theorem answersWithin {records : List Record} {method : String} {t : Template}
    {earlier later : List Argument} {q : Request} {es : List Entity}
    (ht : Named.lookup method r.methods = some t) (haction : t.name.action = .find)
    (hargs : ∀ a ∈ earlier ++ later, a.limit? = none) (hq : t.assemble (earlier ++ later) = .ok q)
    (hes : r.readAll (Memory.select records { r.narrow q.query with skip := 0, limit := 0 }) =
      .ok es) (l : Limit) :
    r.AnswersWithin records method earlier later q.page l
      ((es.drop l.skip.toNat).take l.limit.toNat) := by
  have hfind : q.action = .find := by
    obtain ⟨_, _, _, rfl⟩ := Template.assemble_eq_ok_iff.1 hq
    exact haction
  exact answer_invoke_found ht (Template.assemble_insert_limit hargs hq l) hfind rfl
    (readAll_select l.limit_pos hes)

/-- A limit of a range of ranks exists exactly if the range is not empty. Neither its window nor that
of a page leaves the counts on the way, and no limit or page asks for all records. In a call of a
method that finds entities a limit cuts out what its ranks say of all that is found in the same
order, even if a page stands among the arguments, if the matches can be read and sorted. -/
theorem limits_select_ranks (r : Repository) :
    (∀ start stop, (∃ l, Limit.range start stop = .ok l) ↔ 1 ≤ start ∧ start ≤ stop) ∧
    (∀ start stop window, Limit.checkedRange start stop = some window ↔
      ∃ l, Limit.range start stop = .ok l ∧ window = (l.skip, l.limit)) ∧
    (∀ count, (∃ l, Limit.first count = .ok l) ↔ 1 ≤ count) ∧
    (∀ p : Pageable, ∃ before, checkedSub p.page 1 = some before ∧
      p.skip.toNat = min (before.toNat * p.size.toNat) maxCount) ∧
    (∀ l : Limit, 1 ≤ l.limit) ∧ (∀ p : Pageable, 1 ≤ p.size) ∧
    (∀ (t : Template) arguments q, t.assemble arguments = .ok q →
      (q.query.limit = 0 ↔ ∀ a ∈ arguments, a.limit? = none ∧ a.page? = none)) ∧
    ∀ method t earlier later q records, Named.lookup method r.methods = some t →
      t.name.action = .find → (∀ a ∈ earlier ++ later, a.limit? = none) →
      t.assemble (earlier ++ later) = .ok q → r.Reads records (r.narrow q.query) →
      Memory.Orders q.query.sorts (Memory.found records (r.narrow q.query)) →
      ∃ es, r.Finds records (r.narrow q.query) es ∧
        (∀ start stop l, Limit.range start stop = .ok l →
          r.AnswersWithin records method earlier later q.page l (ranked start stop es)) ∧
        ∀ count l, Limit.first count = .ok l →
          r.AnswersWithin records method earlier later q.page l (es.take count.toNat) := by
  refine ⟨fun _ _ => Limit.exists_range_iff, fun _ _ _ => Limit.checkedRange_eq_some_iff,
    fun _ => Limit.exists_first_iff, Pageable.skip_eq, Limit.one_le_limit, Pageable.one_le_size,
    fun _ _ _ hq => Template.limit_eq_zero_iff hq, ?_⟩
  intro method t earlier later q records ht haction hargs hq hr ho
  obtain ⟨es, hes⟩ := exists_finds hr ho
  have hwithin := answersWithin ht haction hargs hq hes.read
  refine ⟨es, hes, fun start stop l hl => ?_, fun count l hl => ?_⟩
  · rw [← Limit.ranked_eq hl]
    exact hwithin l
  · obtain ⟨hskip, rfl⟩ := Limit.first_eq_ok_iff.1 hl
    have hfirst := hwithin l
    rw [hskip, UInt64.toNat_zero, List.drop_zero] at hfirst
    exact hfirst

/-- The page asks for the fifth note, which is missing, and for the order from the last text to the
first; only its order counts. -/
theorem notes_second_and_third :
    let p : Pageable := ⟨5, 1, [⟨"text", .descending⟩], by decide, by decide⟩
    ∃ l, Limit.range 2 3 = .ok l ∧
      notes.AnswersWithin noteRecords "findAll" [.page p] [] (some p) l
        [.mk "Note" [⟨"text", .data .text "b"⟩] [], .mk "Note" [⟨"text", .data .text "a"⟩] []] := by
  intro p
  obtain ⟨hrange, _, _, _, _, _, _, hcalls⟩ := limits_select_ranks notes
  have hargs : ∀ a ∈ [Argument.page p] ++ [], a.limit? = none := by
    simp [Argument.limit?]
  obtain ⟨es, hes, hranks, _⟩ := hcalls "findAll" _ _ _ _ noteRecords rfl rfl hargs rfl
    (notes_reads _) (notes_order _ (List.forall_mem_singleton.2 rfl))
  have hall : notes.readAll (Memory.select noteRecords
      ⟨"notes", none, [⟨"text", .descending⟩], 0, 0⟩) =
        .ok (["c", "b", "a", "a"].map fun s => .mk "Note" [⟨"text", .data .text s⟩] []) := by
    cbv
  obtain rfl := Except.ok.inj (hes.read.symm.trans hall)
  obtain ⟨l, hl⟩ := (hrange 2 3).2 (by decide)
  exact ⟨l, hl, hranks 2 3 l hl⟩

end Repository

end RecordMapping
