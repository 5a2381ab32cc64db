import RecordMapping.Proofs.Encoding.Plain
import RecordMapping.Proofs.Repository.Operation
/-!
Repositories of different types over one store. No record belongs to two types, and what a
repository saves belongs to its own type, so that the others never notice.
-/
namespace RecordMapping

open Catalog RecordMapping.Method

namespace EntityMetadata

theorem sees_none {m : EntityMetadata} (h : m.inheritance = none) {record : Record} :
    m.sees record = true ↔ record.name = m.collection := by
  simp [sees, Memory.isMatch, scope, h]

theorem sees_some {m : EntityMetadata} {i : Inheritance} (h : m.inheritance = some i)
    {record : Record} : m.sees record = true ↔ record.name = m.collection ∧
      record.find? i.discriminator = some (.text i.value) := by
  simp [sees, Memory.isMatch, all_scope_iff h]

theorem name_of_sees {m : EntityMetadata} {record : Record} (h : m.sees record = true) :
    record.name = m.collection := by
  simp only [sees, Memory.isMatch, Bool.and_eq_true, beq_iff_eq] at h
  exact h.1

end EntityMetadata

namespace Mapping

variable {m : Mapping}

theorem Sound.sees_disjoint (hm : m.Sound) {a b : EntityMetadata} (ha : a ∈ m.catalog.types)
    (hb : b ∈ m.catalog.types) (hab : a ≠ b) {record : Record} (hsees : a.sees record = true) :
    b.sees record = false := by
  rw [← Bool.not_eq_true]
  intro hother
  have hname := (EntityMetadata.name_of_sees hsees).symm.trans (EntityMetadata.name_of_sees hother)
  obtain ⟨_, hsiblings, hplain⟩ := hm.consistent.apart.forall ha hb hab
  cases hi : a.inheritance with
  | none =>
    cases hj : b.inheritance with
    | none => exact hplain hi hj hname
    | some j =>
      exact hm.consistent.rootsFree b hb a ha j hj hi (hname.trans (hm.rooted hb hj))
  | some i =>
    cases hj : b.inheritance with
    | none =>
      exact hm.consistent.rootsFree a ha b hb i hi hj (hname.symm.trans (hm.rooted ha hi))
    | some j =>
      have hroot : i.root = j.root := (hm.rooted ha hi).symm.trans (hname.trans (hm.rooted hb hj))
      obtain ⟨hdisc, hvalue⟩ := hsiblings i j hi hj hroot
      have hvi := ((EntityMetadata.sees_some hi).1 hsees).2
      have hvj := ((EntityMetadata.sees_some hj).1 hother).2
      rw [← hdisc, hvi] at hvj
      exact hvalue (Value.text.inj (Option.some.inj hvj))

theorem sees_of_unambiguous {e : Entity} {x : CatalogEntry} (hx : m.catalog.entry? e.type = some x)
    {record : Record} (h : m.toRecord e = .ok record)
    (hun : m.catalog.Unambiguous x e record.attributes) : x.metadata.sees record = true := by
  obtain ⟨y, hy, _, hname⟩ := toRecord_eq_ok_iff.1 h
  obtain rfl := Option.some.inj (hx.symm.trans hy)
  cases hi : x.metadata.inheritance with
  | none => exact (EntityMetadata.sees_none hi).2 hname
  | some i =>
    refine (EntityMetadata.sees_some hi).2 ⟨hname, ?_⟩
    exact hun.discriminator ⟨i.discriminator, .text i.value⟩ (by simp [discriminator, hi])

theorem Sound.sees_toRecord (hm : m.Sound) (hp : m.catalog.FlattensPlain) {e : Entity}
    (he : m.schema.Typed e) {x : CatalogEntry} (hx : m.catalog.entry? e.type = some x)
    {record : Record} (h : m.toRecord e = .ok record) : x.metadata.sees record = true := by
  obtain ⟨_, _, hattributes, _⟩ := toRecord_eq_ok_iff.1 h
  exact sees_of_unambiguous hx h (hm.unambiguous hp he hx hattributes)

end Mapping

/-- Whether a repository may be given an operation: what it saves is an entity of its type. -/
def Operation.Allowed (r : Repository) : Operation → Prop
  | .save e => r.mapping.schema.Typed e ∧ e.type = r.metadata.type
  | _ => True

/-- What the operations of repositories answer that share a store in memory, one after the other. -/
def Repository.answers {ι : Type} (repositories : ι → Repository) :
    List (ι × Operation) → List Record → List (ι × Except Error Reply)
  | [], _ => []
  | (i, op) :: rest, records =>
    let (reply, after) := (op.run (repositories i) Memory.store).answer records
    (i, reply) :: answers repositories rest after

/-- Whether an operation answers as if a record were not there, and leaves it there. -/
def Repository.Ignores (r : Repository) (op : Operation) (record : Record) : Prop :=
  ∀ earlier later, let session := op.run r Memory.store
    (session.answer (earlier ++ record :: later)).1 = (session.answer (earlier ++ later)).1 ∧
      record ∈ (session.answer (earlier ++ record :: later)).2

namespace Repository

variable {ι : Type} [DecidableEq ι] {repositories : ι → Repository}

/-- Operations that are each confined to what their repository sees do not interfere. -/
theorem filter_answers {steps : List (ι × Operation)}
    (hc : ∀ p ∈ steps, Session.Confined (repositories p.1).metadata.sees
      (p.2.run (repositories p.1) Memory.store))
    (hd : ∀ i j, i ≠ j → ∀ record, (repositories i).metadata.sees record = true →
      (repositories j).metadata.sees record = false) (i : ι) {s t : List Record}
    (hst : s.filter (repositories i).metadata.sees = t.filter (repositories i).metadata.sees) :
    (answers repositories steps s).filter (·.1 = i) =
      answers repositories (steps.filter (·.1 = i)) t := by
  induction steps generalizing s t with
  | nil => rfl
  | cons step rest ih =>
    obtain ⟨j, op⟩ := step
    have hop := hc (j, op) List.mem_cons_self
    have hrest := fun p hp => hc p (List.mem_cons_of_mem _ hp)
    by_cases hj : j = i
    · subst hj
      obtain ⟨hreply, hafter⟩ := hop.reads s t hst
      simp only [answers, List.filter_cons, decide_true, if_true]
      rw [hreply, ih hrest hafter]
    · -- the other repository changes nothing that this one sees
      have hkept := hop.hides (fun record h => hd i j (Ne.symm hj) record h) s
      simp only [answers, List.filter_cons, hj, decide_false, Bool.false_eq_true, if_false]
      exact ih hrest (hkept.trans hst)

omit [DecidableEq ι] in
theorem ignores_of_confined {i : ι} {op : Operation}
    (hc : Session.Confined (repositories i).metadata.sees (op.run (repositories i) Memory.store))
    {record : Record} (hr : (repositories i).metadata.sees record = false) :
    (repositories i).Ignores op record := by
  intro earlier later
  refine ⟨(hc.reads _ _ ?_).1, ?_⟩
  · simp [List.filter_append, hr]
  · have hmem : record ∈ (earlier ++ record :: later).filter
        (!(repositories i).metadata.sees ·) :=
      List.mem_filter.2 ⟨List.mem_append_right _ List.mem_cons_self, by simp [hr]⟩
    rw [← hc.keeps] at hmem
    exact List.mem_of_mem_filter hmem

/-- Repositories of different types over one store do not interfere: each of them is answered as if
the operations of the others were left out, whatever the store holds at first, and none of them ever
reads, counts or deletes the record of an entity of another. -/
theorem answers_alone {settings : Settings} {given : List EntityMetadata} {m : Mapping}
    (hb : Catalog.build settings given = .ok m.catalog)
    (hd : ∀ metadata ∈ given, m.schema.Declares metadata)
    (hp : m.catalog.FlattensPlain) {types : ι → String} (hinj : Function.Injective types)
    (hr : ∀ i, ∃ methods, connect m (types i) methods = .ok (repositories i)) :
    (∀ steps : List (ι × Operation), (∀ p ∈ steps, p.2.Allowed (repositories p.1)) →
      ∀ records i, (answers repositories steps records).filter (·.1 = i) =
        answers repositories (steps.filter (·.1 = i)) records) ∧
    ∀ i j, i ≠ j → ∀ e record, m.schema.Typed e → e.type = types j → m.toRecord e = .ok record →
      ∀ op : Operation, op.Allowed (repositories i) → (repositories i).Ignores op record := by
  have hm := Mapping.sound_of_build hb hd
  have hentry : ∀ i, m.catalog.entry? (types i) = some (repositories i).entry := by
    intro i
    obtain ⟨methods, hi⟩ := hr i
    exact (connect_ok hi).2.1
  have hapart : ∀ i j, i ≠ j → ∀ record, (repositories i).metadata.sees record = true →
      (repositories j).metadata.sees record = false := by
    intro i j hij record hsees
    obtain ⟨hi, hti⟩ := entry?_mem (hentry i)
    obtain ⟨hj, htj⟩ := entry?_mem (hentry j)
    refine hm.sees_disjoint (mem_types hi) (mem_types hj) (fun he => hij (hinj ?_)) hsees
    rw [← hti, ← htj]
    exact congrArg _ he
  have hconfined : ∀ i op, Operation.Allowed (repositories i) op →
      Session.Confined (repositories i).metadata.sees (op.run (repositories i) Memory.store) := by
    intro i op hop
    obtain ⟨methods, hi⟩ := hr i
    obtain ⟨hmapping, _, hcompiled⟩ := connect_ok hi
    refine op.confined hcompiled fun e record he hrecord => ?_
    subst he
    obtain ⟨htyped, htype⟩ := hop
    rw [hmapping] at htyped hrecord
    refine hm.sees_toRecord hp htyped ?_ hrecord
    rw [htype, metadata, (entry?_mem (hentry i)).2]
    exact hentry i
  refine ⟨fun steps hsteps records i => ?_, fun i j hij e record he htype hrecord op hop => ?_⟩
  · exact filter_answers (fun p hmem => hconfined p.1 p.2 (hsteps p hmem)) hapart i rfl
  · have hsees := hm.sees_toRecord hp he (htype ▸ hentry j) hrecord
    exact ignores_of_confined (hconfined i op hop) (hapart j i (Ne.symm hij) record hsees)

theorem letters_and_cards : ∃ letters cards : Repository,
    connect Mapping.mailing "post::Letter" ["findByText"] = .ok letters ∧
    connect Mapping.mailing "post::Card" ["deleteByTextOrText"] = .ok cards ∧
    ∀ calls : List Invocation, ∀ records,
      (answers (fun b : Bool => bif b then letters else cards)
        ([(true, .count)] ++ calls.map (fun call => (false, .invoke call)) ++ [(true, .count)])
        records).filter (·.1 = true) =
      answers (fun b : Bool => bif b then letters else cards) [(true, .count), (true, .count)]
        records := by
  obtain ⟨letters, hletters⟩ : ∃ letters, connect Mapping.mailing "post::Letter" ["findByText"] =
    .ok letters := ⟨_, by cbv⟩
  obtain ⟨cards, hcards⟩ : ∃ cards, connect Mapping.mailing "post::Card" ["deleteByTextOrText"] =
    .ok cards := ⟨_, by cbv⟩
  refine ⟨letters, cards, hletters, hcards, fun calls records => ?_⟩
  have hconnect : ∀ b : Bool, ∃ methods, connect Mapping.mailing
      (bif b then "post::Letter" else "post::Card") methods =
        .ok (bif b then letters else cards) := by
    intro b
    cases b with
    | false => exact ⟨_, hcards⟩
    | true => exact ⟨_, hletters⟩
  have hinj : Function.Injective fun b : Bool => bif b then "post::Letter" else "post::Card" := by
    intro a b
    revert a b
    decide
  obtain ⟨halone, _⟩ := answers_alone Mapping.mailing_accepted mail_declares
    Mapping.mailing_plain hinj hconnect
  have hallowed : ∀ p ∈ [(true, Operation.count)] ++
      calls.map (fun call => (false, .invoke call)) ++ [(true, .count)],
      p.2.Allowed (bif p.1 then letters else cards) := by
    intro p hp
    simp only [List.mem_append, List.mem_singleton, List.mem_map] at hp
    rcases hp with (rfl | ⟨call, _, rfl⟩) | rfl <;> trivial
  rw [halone _ hallowed]
  simp [List.filter_append, List.filter_map, Function.comp_def]

end Repository
end RecordMapping
