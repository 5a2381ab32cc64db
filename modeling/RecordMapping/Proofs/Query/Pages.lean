import RecordMapping.Proofs.Number.Counts
import RecordMapping.Proofs.Repository.Reading
/-!
Following pages: each page that is answered names the next one, until one comes back short. The
pages of a query hold its whole result in order, and the last of them may be empty.
-/
namespace RecordMapping

open RecordMapping.Number RecordMapping.Method

/-- The pages that are answered one after the other, from a first one to the last. -/
inductive Paged {α : Type} (answers : Pageable → Page α → Prop) : Pageable → List (Page α) → Prop
  | last {p : Pageable} {page : Page α} : answers p page → page.next? = none →
    Paged answers p [page]
  | more {p q : Pageable} {page : Page α} {rest : List (Page α)} : answers p page →
    page.next? = some q → Paged answers q rest → Paged answers p (page :: rest)

namespace Pageable

/-- The page of a number, counted from zero, and otherwise like another one. -/
structure IsNumber (p : Pageable) (k : Nat) (like : Pageable) : Prop where
  page : p.page.toNat = k + 1
  size : p.size = like.size
  sorts : p.sorts = like.sorts

theorem IsNumber.skip {p like : Pageable} {k : Nat} (h : p.IsNumber k like)
    (hk : k * like.size.toNat ≤ maxCount) : p.skip.toNat = k * like.size.toNat := by
  have hpage : (saturatingSub p.page 1).toNat = k := by
    rw [saturatingSub_toNat, h.page]
    rfl
  rw [Pageable.skip, skipBefore, saturatingMul, saturate_toNat, hpage, h.size]
  exact Nat.min_eq_left hk

theorem IsNumber.next {p like : Pageable} {k : Nat} (h : p.IsNumber k like)
    (hk : k + 2 ≤ maxCount) : p.next.IsNumber (k + 1) like := by
  refine ⟨?_, h.size, h.sorts⟩
  change (saturatingAdd p.page 1).toNat = k + 1 + 1
  rw [saturatingAdd_toNat, h.page]
  exact Nat.min_eq_left hk

end Pageable

/-- From any page that does not lie beyond the results, the pages hold what is left of them. -/
theorem exists_paged {α : Type} {answers : Pageable → Page α → Prop} {like : Pageable}
    {items : List α} (hlen : items.length < maxCount)
    (ha : ∀ k p, p.IsNumber k like →
      answers p ⟨(items.drop p.skip.toNat).take p.size.toNat, p⟩)
    {k : Nat} {p : Pageable} (hp : p.IsNumber k like)
    (hk : k * like.size.toNat ≤ items.length) :
    ∃ pages, Paged answers p pages ∧
      pages.flatMap (·.content) = items.drop (k * like.size.toNat) ∧
      pages.length + k = items.length / like.size.toNat + 1 := by
  have hsize : 0 < like.size.toNat := UInt64.lt_iff_toNat_lt.1 like.size_pos
  have hskip := hp.skip (by omega)
  have hanswer := ha k p hp
  rw [hskip, hp.size] at hanswer
  by_cases hshort : items.length < (k + 1) * like.size.toNat
  · -- the page comes back short, and nothing is left after it
    rw [Nat.succ_mul] at hshort
    have htake : (items.drop (k * like.size.toNat)).take like.size.toNat =
        items.drop (k * like.size.toNat) := by
      rw [List.take_of_length_le]
      rw [List.length_drop]
      omega
    rw [htake] at hanswer
    refine ⟨[⟨items.drop (k * like.size.toNat), p⟩], .last hanswer ?_, by simp, ?_⟩
    · rw [Page.next?, if_neg]
      rw [List.length_drop, hp.size]
      omega
    · have hdiv : items.length / like.size.toNat = k := by
        rw [Nat.div_eq_iff hsize]
        omega
      simp [hdiv, Nat.add_comm]
  · have hfull := Nat.le_of_not_lt hshort
    have hnum : k + 2 ≤ maxCount := by
      have : k + 1 ≤ (k + 1) * like.size.toNat := Nat.le_mul_of_pos_right _ hsize
      omega
    obtain ⟨rest, hrest, hcontent, hcount⟩ := exists_paged hlen ha (hp.next hnum) hfull
    have hnext : (⟨(items.drop (k * like.size.toNat)).take like.size.toNat, p⟩ : Page α).next? =
        some p.next := by
      rw [Page.next?, if_pos]
      rw [List.length_take, List.length_drop, hp.size]
      rw [Nat.succ_mul] at hfull
      exact Nat.le_min.2 ⟨Nat.le_refl _, by omega⟩
    refine ⟨_ :: rest, .more hanswer hnext hrest, ?_, ?_⟩
    · rw [List.flatMap_cons, hcontent, Nat.succ_mul, ← List.drop_drop, List.take_append_drop]
    · rw [List.length_cons, ← hcount]
      omega
termination_by items.length - k * like.size.toNat
decreasing_by
  rw [Nat.succ_mul]
  rw [Nat.succ_mul] at hfull
  omega

namespace Repository

variable {r : Repository}

/-- Whether the pages that are answered from a first one on hold all that the query finds, in the
same order, and how many pages that takes. -/
def PagesThrough (r : Repository) (records : List Record) (q : Query)
    (answers : Pageable → Page Entity → Prop) (first : Pageable) : Prop :=
  ∃ es pages, r.Finds records q es ∧ Paged answers first pages ∧
    pages.flatMap (·.content) = es ∧
    pages.length = Memory.count records q / first.size.toNat + 1

theorem pagesThrough {records : List Record} {q : Query} {first : Pageable}
    {answers : Pageable → Page Entity → Prop} (hlen : records.length < maxCount)
    (hfirst : first.IsNumber 0 first)
    (ha : ∀ p content, p.size = first.size → p.sorts = first.sorts →
      r.readAll (Memory.select records { q with skip := p.skip, limit := p.size }) = .ok content →
      answers p ⟨content, p⟩)
    (hr : r.Reads records q) (ho : Memory.Orders q.sorts (Memory.found records q)) :
    r.PagesThrough records q answers first := by
  obtain ⟨es, hes⟩ := exists_finds hr ho
  have hbound : es.length < maxCount := by
    rw [hes.length_eq]
    exact Nat.lt_of_le_of_lt (List.length_filter_le _ _) hlen
  have hanswers : ∀ k p, p.IsNumber k first →
      answers p ⟨(es.drop p.skip.toNat).take p.size.toNat, p⟩ := by
    intro k p hp
    exact ha p _ hp.size hp.sorts (readAll_select p.size_pos hes.read)
  obtain ⟨pages, hpaged, hcontent, hpages⟩ :=
    exists_paged hbound hanswers hfirst (by simp)
  refine ⟨es, pages, hes, hpaged, by simpa using hcontent, ?_⟩
  rw [← hes.length_eq]
  exact hpages

/-- Whether a method call with a page inserted among the other arguments answers a page. -/
def Answers (r : Repository) (records : List Record) (method : String)
    (earlier later : List Argument) (p : Pageable) (page : Page Entity) : Prop :=
  (r.invoke Memory.store ⟨method, earlier ++ .page p :: later⟩).answer records =
    (.ok (.page page), records)

theorem pagesThrough_findAll {records : List Record} {first : Pageable}
    (hlen : records.length < maxCount) (hfirst : first.IsNumber 0 first)
    (hr : r.Reads records { r.collectionQuery none with sorts := first.sorts })
    (ho : Memory.Orders first.sorts (Memory.found records (r.collectionQuery none))) :
    r.PagesThrough records { r.collectionQuery none with sorts := first.sorts }
      (fun p page => (r.findAll Memory.store p).answer records = (.ok page, records)) first := by
  refine pagesThrough hlen hfirst (fun p content _ hsorts hread => ?_) hr ho
  refine answer_findAll ?_
  rw [hsorts]
  exact hread

theorem pagesThrough_invoke {records : List Record} {first : Pageable} {method : String}
    {t : Template} {earlier later : List Argument} {plain q : Request}
    (hlen : records.length < maxCount) (hfirst : first.IsNumber 0 first)
    (ht : Named.lookup method r.methods = some t) (haction : plain.action = .find)
    (hargs : ∀ a ∈ earlier ++ later, a.IsPlain) (hplain : t.assemble (earlier ++ later) = .ok plain)
    (hq : t.assemble (earlier ++ .page first :: later) = .ok q)
    (hr : r.Reads records (r.narrow q.query))
    (ho : Memory.Orders q.query.sorts (Memory.found records (r.narrow q.query))) :
    r.PagesThrough records (r.narrow q.query) (r.Answers records method earlier later) first := by
  obtain rfl := Except.ok.inj ((Template.assemble_insert_page hargs hplain first).symm.trans hq)
  refine pagesThrough hlen hfirst (fun p content _ hsorts hread => ?_) hr ho
  refine answer_invoke_find ht (Template.assemble_insert_page hargs hplain p) haction rfl ?_
  rw [hsorts]
  exact hread

theorem Pageable.isNumber_first {size : UInt64} (hsize : 0 < size) (sorts : List SortKey) :
    ∃ first, (Pageable.of 1 size).map (·.withSorts sorts) = .ok first ∧ first.IsNumber 0 first ∧
      first.size = size ∧ first.sorts = sorts := by
  have hpos : (0 : UInt64) < 1 ∧ 0 < size := ⟨by decide, hsize⟩
  refine ⟨(⟨1, size, [], hpos.1, hpos.2⟩ : Pageable).withSorts sorts, ?_, ⟨rfl, rfl, rfl⟩, rfl, rfl⟩
  rw [Pageable.of, dif_pos hpos]
  rfl

/-- Turning the pages of any size from the first one visits every match exactly once, both for all
records of a repository and for those that a method finds, if the matches can be read and sorted. A
store in memory holds fewer records than can be counted, so that the number of a page never
overflows. -/
theorem pages_visit_matches_once (r : Repository) {records : List Record}
    (hlen : records.length < maxCount) {size : UInt64} (hsize : 0 < size) (sorts : List SortKey) :
    ∃ first, (Pageable.of 1 size).map (·.withSorts sorts) = .ok first ∧ first.size = size ∧
      (r.Reads records { r.collectionQuery none with sorts := sorts } →
        Memory.Orders sorts (Memory.found records (r.collectionQuery none)) →
        r.PagesThrough records { r.collectionQuery none with sorts := sorts }
          (fun p page => (r.findAll Memory.store p).answer records = (.ok page, records)) first) ∧
      ∀ method t earlier later plain, Named.lookup method r.methods = some t →
        t.name.action = .find → (∀ a ∈ earlier ++ later, a.IsPlain) →
        t.assemble (earlier ++ later) = .ok plain →
        ∃ q, t.assemble (earlier ++ .page first :: later) = .ok q ∧
          (r.Reads records (r.narrow q.query) →
            Memory.Orders q.query.sorts (Memory.found records (r.narrow q.query)) →
            r.PagesThrough records (r.narrow q.query) (r.Answers records method earlier later)
              first) := by
  obtain ⟨first, hof, hfirst, hfsize, rfl⟩ := Pageable.isNumber_first hsize sorts
  refine ⟨first, hof, hfsize, pagesThrough_findAll hlen hfirst, ?_⟩
  intro method t earlier later plain ht haction hargs hplain
  have hq := Template.assemble_insert_page hargs hplain first
  refine ⟨_, hq, pagesThrough_invoke hlen hfirst ht ?_ hargs hplain hq⟩
  obtain ⟨_, _, _, rfl⟩ := Template.assemble_eq_ok_iff.1 hplain
  exact haction

def notes : Repository :=
  let text := FieldDescriptor.plain "text"
  let entry : CatalogEntry := ⟨⟨"notes", "Note", [text], none⟩, [.stored text]⟩
  let blank : Entity := .mk "Note" [⟨"text", .data .text ""⟩] []
  ⟨⟨⟨[⟨entry.metadata, blank⟩], []⟩, Settings.standard, [entry]⟩, entry,
    [⟨"findAll", ⟨"findAll", "notes", ⟨.find, [], []⟩, [], true⟩⟩]⟩

def noteRecords : List Record :=
  ["b", "a", "c", "a"].map fun s => ⟨"notes", [⟨"text", .text s⟩]⟩

theorem notes_reads (q : Query) : notes.Reads noteRecords q := by
  intro record hr _
  simp only [noteRecords, List.map_cons, List.map_nil, List.mem_cons, List.not_mem_nil,
    or_false] at hr
  rcases hr with rfl | rfl | rfl | rfl
  · exact ⟨.mk "Note" [⟨"text", .data .text "b"⟩] [], by cbv⟩
  · exact ⟨.mk "Note" [⟨"text", .data .text "a"⟩] [], by cbv⟩
  · exact ⟨.mk "Note" [⟨"text", .data .text "c"⟩] [], by cbv⟩
  · exact ⟨.mk "Note" [⟨"text", .data .text "a"⟩] [], by cbv⟩

theorem notes_order (q : Query) {sorts : List SortKey} (h : ∀ s ∈ sorts, s.name = "text") :
    Memory.Orders sorts (Memory.found noteRecords q) := by
  refine Memory.Orders.of_uniform fun s hs => ⟨.text, by decide, ?_⟩
  intro record hr
  have hmem : record ∈ noteRecords := List.mem_of_mem_filter hr
  obtain ⟨text, _, rfl⟩ := List.mem_map.1 hmem
  rw [h s hs]
  rintro v ⟨⟩
  rfl

theorem notes_two_a_page : ∃ first : Pageable, first.size = 2 ∧
    notes.PagesThrough noteRecords
      { notes.collectionQuery none with sorts := [⟨"text", .ascending⟩] }
      (fun p page => (notes.findAll Memory.store p).answer noteRecords = (.ok page, noteRecords))
      first ∧
    ∃ q, notes.PagesThrough noteRecords (notes.narrow q)
      (notes.Answers noteRecords "findAll" [.sort ⟨"text", .descending⟩] []) first := by
  obtain ⟨first, hof, hsize, hall, hmethods⟩ := pages_visit_matches_once notes
    (show noteRecords.length < maxCount by decide) (show (0 : UInt64) < 2 by decide)
    [⟨"text", .ascending⟩]
  have hplain : ∀ a ∈ [Argument.sort ⟨"text", .descending⟩] ++ [], a.IsPlain := by
    simp [Argument.IsPlain, Argument.limit?, Argument.page?]
  obtain ⟨q, hassembled, hq⟩ := hmethods "findAll" _ _ _ _ rfl rfl hplain rfl
  have hsorts : q.query.sorts = [⟨"text", .descending⟩, ⟨"text", .ascending⟩] := by
    obtain rfl := Except.ok.inj hof
    obtain rfl := Except.ok.inj hassembled
    rfl
  refine ⟨first, hsize, hall (notes_reads _) (notes_order _ (by simp)), q.query,
    hq (notes_reads _) (notes_order _ ?_)⟩
  rw [hsorts]
  simp

end Repository
end RecordMapping
