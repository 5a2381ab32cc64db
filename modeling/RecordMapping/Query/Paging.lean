import RecordMapping.Number.Saturating
import RecordMapping.Query.Basic
import RecordMapping.Query.Error
/-!
Paging: numbered pages of a fixed size, limits that select a range of ranks, and pages of results.
Pages are numbered from one, and neither a page nor a limit is ever empty.
-/
namespace RecordMapping

open RecordMapping.Number

def defaultPageSize : UInt64 := 10

def skipBefore (page size : UInt64) : UInt64 :=
  saturatingMul (saturatingSub page 1) size

structure Pageable where
  page : UInt64
  size : UInt64
  sorts : List SortKey
  page_pos : 0 < page
  size_pos : 0 < size

namespace Pageable

def of (page size : UInt64) : Except QueryError Pageable :=
  if h : 0 < page ∧ 0 < size then .ok ⟨page, size, [], h.1, h.2⟩
  else .error (.invalidPage page size)

def withSorts (p : Pageable) (sorts : List SortKey) : Pageable :=
  { p with sorts := p.sorts ++ sorts }

def skip (p : Pageable) : UInt64 :=
  skipBefore p.page p.size

theorem saturatingAdd_one_pos (n : UInt64) : 0 < saturatingAdd n 1 := by
  rw [UInt64.lt_iff_toNat_lt, saturatingAdd, saturate_toNat]
  simp only [UInt64.reduceToNat, maxCount]
  omega

def next (p : Pageable) : Pageable :=
  { p with page := saturatingAdd p.page 1, page_pos := saturatingAdd_one_pos p.page }

end Pageable

/-- A window of results: so many are skipped, and no more than so many are taken. -/
structure Limit where
  skip : UInt64
  limit : UInt64
  limit_pos : 0 < limit

namespace Limit

def first (count : UInt64) : Except QueryError Limit :=
  if h : 0 < count then .ok ⟨0, count, h⟩ else .error .emptyLimit

def range (start stop : UInt64) : Except QueryError Limit :=
  if 0 < start ∧ start ≤ stop then
    .ok ⟨saturatingSub start 1, saturatingAdd (saturatingSub stop start) 1,
      Pageable.saturatingAdd_one_pos _⟩
  else .error (.invalidLimit start stop)

/-- The window that skips and takes the given counts, up to the greatest rank. -/
def window (skip limit : UInt64) : Except QueryError Limit :=
  range (saturatingAdd skip 1) (saturatingAdd skip limit)

end Limit

structure Page (α : Type) where
  content : List α
  pageable : Pageable

/-- The page after this one, unless this one came back short. -/
def Page.next? {α : Type} (p : Page α) : Option Pageable :=
  if p.pageable.size.toNat ≤ p.content.length then some p.pageable.next else none

end RecordMapping
