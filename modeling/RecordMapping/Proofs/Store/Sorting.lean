import RecordMapping.Store.Memory
import Mathlib.Data.List.Perm.Basic
/-!
Ordering the records in memory: nothing is lost or added, whatever the comparison.
-/
namespace RecordMapping.Memory

theorem insertBack_perm (sorts : List SortKey) (r : Record) (records : List Record) :
    (insertBack sorts r records).Perm (r :: records) := by
  induction records with
  | nil => exact List.Perm.refl _
  | cons last rest ih =>
    rw [insertBack]
    split
    · exact (ih.cons last).trans (List.Perm.swap r last rest)
    · exact List.Perm.refl _

theorem foldl_insertBack_perm (sorts : List SortKey) (records sorted : List Record) :
    (records.foldl (fun sorted r => insertBack sorts r sorted) sorted).Perm
      (records ++ sorted) := by
  induction records generalizing sorted with
  | nil => exact List.Perm.refl _
  | cons r rest ih =>
    have hstep := (insertBack_perm sorts r sorted).append_left rest
    exact (ih (insertBack sorts r sorted)).trans (hstep.trans List.perm_middle)

theorem sort_perm (sorts : List SortKey) (records : List Record) :
    (sort sorts records).Perm records := by
  have h := foldl_insertBack_perm sorts records []
  rw [List.append_nil] at h
  exact (List.reverse_perm _).trans h

theorem sort_nil (records : List Record) : sort [] records = records := by
  have hback : ∀ sorted : List Record,
      records.foldl (fun sorted r => insertBack [] r sorted) sorted = records.reverse ++ sorted := by
    induction records with
    | nil => exact fun _ => rfl
    | cons r rest ih =>
      intro sorted
      have hfirst : insertBack [] r sorted = r :: sorted := by cases sorted <;> rfl
      rw [List.foldl_cons, hfirst, ih, List.reverse_cons, List.append_assoc]
      rfl
  rw [sort, hback, List.append_nil, List.reverse_reverse]

theorem window_zero (records : List Record) : window 0 0 records = records := by
  simp [window]

theorem window_of_pos {skip limit : UInt64} (h : 0 < limit) (records : List Record) :
    window skip limit records = (records.drop skip.toNat).take limit.toNat := by
  rw [window, if_neg]
  rintro rfl
  exact absurd h (by decide)

theorem select_perm_of_zero {q : Query} (hskip : q.skip = 0) (hlimit : q.limit = 0)
    (records : List Record) :
    (select records q).Perm (records.filter (isMatch q.collection q.condition)) := by
  rw [select, hskip, hlimit, window_zero]
  exact sort_perm _ _

theorem select_perm (records : List Record) (q : Query) :
    (select records { q with skip := 0, limit := 0 }).Perm
      (records.filter (isMatch q.collection q.condition)) :=
  select_perm_of_zero rfl rfl records

theorem select_plain {q : Query} (hsorts : q.sorts = []) (hskip : q.skip = 0) (hlimit : q.limit = 0)
    (records : List Record) :
    select records q = records.filter (isMatch q.collection q.condition) := by
  rw [select, hsorts, hskip, hlimit, window_zero, sort_nil]

end RecordMapping.Memory
