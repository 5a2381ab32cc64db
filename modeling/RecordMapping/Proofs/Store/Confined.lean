import RecordMapping.Proofs.Session
import RecordMapping.Store.Memory
import Mathlib.Data.List.Basic
/-!
Sessions that are confined to some of the records of a store in memory: they answer as if there were
no others, and leave all others as they are, in the same order.
-/
namespace RecordMapping

namespace Session

variable {α β : Type} {sees : Record → Bool}

structure Confined (sees : Record → Bool) (session : Session (List Record) α) : Prop where
  reads : ∀ s t, s.filter sees = t.filter sees →
    (session.answer s).1 = (session.answer t).1 ∧
      (session.answer s).2.filter sees = (session.answer t).2.filter sees
  keeps : ∀ s, (session.answer s).2.filter (!sees ·) = s.filter (!sees ·)

theorem Confined.hides {session : Session (List Record) α} (h : Confined sees session)
    {other : Record → Bool} (ho : ∀ r, other r = true → sees r = false) (s : List Record) :
    (session.answer s).2.filter other = s.filter other := by
  have hother : ∀ records : List Record,
      (records.filter (!sees ·)).filter other = records.filter other := by
    intro records
    rw [List.filter_filter]
    refine List.filter_congr fun r _ => ?_
    cases hr : other r with
    | false => rfl
    | true => simp [ho r hr]
  rw [← hother, h.keeps, hother]

theorem confined_ofResult (r : Except Error α) : Confined sees (ofResult r) :=
  ⟨fun _ _ h => ⟨rfl, h⟩, fun _ => rfl⟩

theorem confined_pure (a : α) : Confined sees (pure a) :=
  ⟨fun _ _ h => ⟨rfl, h⟩, fun _ => rfl⟩

theorem confined_throw (e : Error) : Confined sees (throw e : Session (List Record) α) :=
  ⟨fun _ _ h => ⟨rfl, h⟩, fun _ => rfl⟩

/-- A chain of sessions is confined if its first one is, and the others are for all that the first
one may answer. -/
theorem Confined.bind {x : Session (List Record) α} {f : α → Session (List Record) β}
    (hx : Confined sees x) (hf : ∀ a s t, x.answer s = (.ok a, t) → Confined sees (f a)) :
    Confined sees (x >>= f) := by
  constructor
  · intro s t hst
    obtain ⟨hanswer, hrest⟩ := hx.reads s t hst
    cases hs : x.answer s with
    | mk reply s' =>
      cases ht : x.answer t with
      | mk other t' =>
        rw [hs, ht] at hanswer hrest
        obtain rfl : reply = other := hanswer
        cases reply with
        | error e => rw [answer_bind_error hs, answer_bind_error ht]; exact ⟨rfl, hrest⟩
        | ok a =>
          rw [answer_bind_ok hs, answer_bind_ok ht]
          exact (hf a s s' hs).reads s' t' hrest
  · intro s
    have hkeep := hx.keeps s
    cases hs : x.answer s with
    | mk reply s' =>
      rw [hs] at hkeep
      cases reply with
      | error e => rw [answer_bind_error hs]; exact hkeep
      | ok a =>
        rw [answer_bind_ok hs]
        exact ((hf a s s' hs).keeps s').trans hkeep

end Session

namespace Memory

open Session

variable {sees : Record → Bool} {collection : String} {condition : Option Condition}

theorem filter_isMatch (h : ∀ r, isMatch collection condition r = true → sees r = true)
    (records : List Record) : (records.filter sees).filter (isMatch collection condition) =
      records.filter (isMatch collection condition) := by
  rw [List.filter_filter]
  refine List.filter_congr fun r _ => ?_
  cases hm : isMatch collection condition r with
  | false => rfl
  | true => simp [h r hm]

theorem filter_isMatch_congr (h : ∀ r, isMatch collection condition r = true → sees r = true)
    {s t : List Record} (hst : s.filter sees = t.filter sees) :
    s.filter (isMatch collection condition) = t.filter (isMatch collection condition) := by
  rw [← filter_isMatch h s, hst, filter_isMatch h t]

theorem confined_select {q : Query}
    (h : ∀ r, isMatch q.collection q.condition r = true → sees r = true) :
    Confined sees (ask (store.select q)) := by
  refine ⟨fun s t hst => ⟨?_, hst⟩, fun _ => rfl⟩
  simp [answer_ask, store, select, filter_isMatch_congr h hst]

theorem confined_count {q : Query}
    (h : ∀ r, isMatch q.collection q.condition r = true → sees r = true) :
    Confined sees (ask (store.count q)) := by
  refine ⟨fun s t hst => ⟨?_, hst⟩, fun _ => rfl⟩
  simp [answer_ask, store, count, filter_isMatch_congr h hst]

theorem delete_deletion (q : Query) (records : List Record) :
    delete records q.deletion = records.filter (!isMatch q.collection q.condition ·) := rfl

theorem confined_delete {q : Query}
    (h : ∀ r, isMatch q.collection q.condition r = true → sees r = true) :
    Confined sees (ask (store.delete q.deletion)) := by
  constructor
  · intro s t hst
    simp only [answer_ask, store, delete_deletion]
    refine ⟨?_, ?_⟩
    · rw [Query.deletion, filter_isMatch_congr h hst]
    · rw [List.filter_comm, hst, List.filter_comm]
  · intro s
    simp only [answer_ask, store, delete_deletion, List.filter_filter]
    refine List.filter_congr fun r _ => ?_
    cases hm : isMatch q.collection q.condition r with
    | false => simp
    | true => simp [h r hm]

theorem confined_insert {r : Record} (h : sees r = true) :
    Confined sees (ask (store.insert r)) := by
  refine ⟨fun s t hst => ⟨rfl, ?_⟩, fun s => ?_⟩
  · simp only [answer_ask, store, List.filter_append, hst]
  · simp [answer_ask, store, List.filter_append, h]

end Memory
end RecordMapping
