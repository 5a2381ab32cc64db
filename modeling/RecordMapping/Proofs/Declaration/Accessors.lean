import RecordMapping.Proofs.Declaration.Declared
import RecordMapping.Proofs.Lookup
/-!
What is made of the fields of a declaration: a descriptor for each one that is not skipped, and the
ways to read, write, enter and extend it that the descriptor asks for.
-/
namespace RecordMapping.Declaration

/-- Whether a field carries the marker that keeps it out of the mapping. -/
def FieldDeclaration.isSkipped (f : FieldDeclaration) : Bool :=
  f.markers.any (·.word == "skip")

theorem Marker.needNone_eq_ok {α : Type} {m : Marker} {a b : α} (h : m.needNone a = .ok b) :
    b = a := by
  rw [needNone] at h
  split at h
  · cases h
  · exact (Except.ok.inj h).symm

namespace FieldOptions

theorem skip_of_add {o o' : FieldOptions} {m : Marker} (h : add o m = .ok o') :
    o'.skip = (o.skip || m.word == "skip") := by
  rw [add] at h
  split at h
  case h_2 hw =>
    cases hv : m.needValue with
    | error e => simp [hv, Except.map] at h
    | ok v =>
      rw [hv] at h
      obtain rfl := Except.ok.inj h
      simp [hw]
  case h_8 => cases h
  all_goals
    next hw =>
      rw [Marker.needNone_eq_ok h, hw]
      simp

theorem skip_of_foldlM {o o' : FieldOptions} {markers : List Marker}
    (h : markers.foldlM add o = .ok o') : o'.skip = (o.skip || markers.any (·.word == "skip")) := by
  induction markers generalizing o with
  | nil =>
    obtain rfl := Except.ok.inj h
    simp
  | cons m rest ih =>
    rw [List.foldlM_cons] at h
    cases hm : add o m with
    | error e => simp [hm, bind, Except.bind] at h
    | ok next =>
      rw [hm] at h
      rw [ih h, skip_of_add hm, List.any_cons, Bool.or_assoc]

theorem check_eq_ok {o o' : FieldOptions} (h : check o = .ok o') : o' = o := by
  rw [check] at h
  split at h
  · cases h
  · split at h
    · cases h
    · split at h
      · cases h
      · split at h
        · cases h
        · exact (Except.ok.inj h).symm

theorem skip_of_ofMarkers {o : FieldOptions} {markers : List Marker}
    (h : ofMarkers markers = .ok o) : o.skip = markers.any (·.word == "skip") := by
  rw [ofMarkers] at h
  cases hfold : markers.foldlM add ⟨false, none, false, false, false, false, false⟩ with
  | error e => simp [hfold, Except.bind] at h
  | ok o' =>
    rw [hfold] at h
    rw [check_eq_ok h, skip_of_foldlM hfold]
    rfl

end FieldOptions

namespace FieldDeclaration

variable {f : FieldDeclaration} {planned : Option FieldPlan}

theorem isNone_plan? (h : f.plan? = .ok planned) : planned.isNone = f.isSkipped := by
  simp only [plan?, bind, Except.bind] at h
  split at h
  · cases h
  · next o ho =>
    rw [isSkipped, ← FieldOptions.skip_of_ofMarkers ho]
    split at h
    · next hskip =>
      obtain rfl := Except.ok.inj h
      exact hskip.symm
    · next hskip =>
      obtain rfl := Except.ok.inj h
      exact (Bool.eq_false_iff.2 hskip).symm

theorem plan?_name {p : FieldPlan} (h : f.plan? = .ok (some p)) :
    p.name = f.name ∧ p.type = f.type := by
  simp only [plan?, bind, Except.bind] at h
  split at h
  · cases h
  · split at h
    · cases h
    · obtain rfl := Option.some.inj (Except.ok.inj h)
      exact ⟨rfl, rfl⟩

end FieldDeclaration

theorem StructDeclaration.plan_fields {d : StructDeclaration} {plan : Plan}
    (h : d.plan = .ok plan) :
    List.Forall₂ (fun f p => f.plan? = .ok (some p)) (d.fields.filter (!·.isSkipped))
      plan.fields ∧ plan.skipped = d.fields.filter (·.isSkipped) := by
  obtain ⟨plans, hfields, hplans, hmapped, hskipped⟩ := exists_plans h
  rw [← hfields, hmapped, hskipped]
  clear hfields hmapped hskipped
  induction plans with
  | nil => exact ⟨.nil, rfl⟩
  | cons p rest ih =>
    obtain ⟨f, planned⟩ := p
    obtain ⟨hp, hrest⟩ := List.forall_mem_cons.1 hplans
    obtain ⟨hfields, hskipped⟩ := ih hrest
    have hnone := FieldDeclaration.isNone_plan? hp
    cases planned with
    | none =>
      rw [List.map_cons, List.filter_cons_of_neg (by simp [← hnone]),
        List.filter_cons_of_pos (by simp [← hnone])]
      exact ⟨hfields, congrArg (f :: ·) hskipped⟩
    | some plan =>
      rw [List.map_cons, List.filter_cons_of_pos (by simp [← hnone]),
        List.filter_cons_of_neg (by simp [← hnone])]
      exact ⟨.cons hp hfields, hskipped⟩

/-- Whether the accessors of a planned field are those that a descriptor asks for: it leads to
entities if there is a type for them, and is written to otherwise. -/
structure FieldPlan.Serves (p : FieldPlan) (f : FieldDescriptor) : Prop where
  name : f.name = p.name
  target : f.target.isSome = true ↔ p.nested?.isSome = true ∨ p.push?.isSome = true
  written : f.target = none ↔ p.write?.isSome = true
  entered : p.nested?.isSome = true ↔ f.target.isSome = true ∧ f.isNested = true
  extended : p.push?.isSome = true ↔ f.target.isSome = true ∧ f.kind = .collection
  read : p.write?.isSome = true ∧ p.readName = "value" ∨
    p.nested? = some none ∧ p.readName = "entity" ∨
    (∃ t, p.nested? = some (some t)) ∧ p.readName = "optional_entity" ∨
    p.push?.isSome = true ∧ p.readName = "entities"

/-- Whatever type a field is of, the descriptor and the accessors come from its shape alone. -/
theorem FieldPlan.serves (home : String) (kind : Option ValueKind) (p : FieldPlan) :
    p.Serves (p.describe home kind) := by
  cases hshape : p.shape with
  | value id many =>
    cases id <;> cases many <;> constructor <;>
      simp [describe, nested?, push?, write?, readName, hshape, FieldDescriptor.id,
        FieldDescriptor.collection, FieldDescriptor.plain, FieldDescriptor.ofKind]
  | single t =>
    cases hembedded : p.embedded <;> constructor <;>
      simp [describe, nested?, push?, write?, readName, hshape, hembedded,
        FieldDescriptor.embedded, FieldDescriptor.entity, FieldDescriptor.ofKind,
        FieldDescriptor.isNested]
  | optional t =>
    cases hembedded : p.embedded <;> constructor <;>
      simp [describe, nested?, push?, write?, readName, hshape, hembedded,
        FieldDescriptor.embedded, FieldDescriptor.entity, FieldDescriptor.ofKind,
        FieldDescriptor.isNested]
  | many t =>
    constructor <;>
      simp [describe, nested?, push?, write?, readName, hshape, FieldDescriptor.entityCollection,
        FieldDescriptor.ofKind, FieldDescriptor.isNested]

theorem FieldPlan.exists_describe {home : String} {p : FieldPlan} {f : FieldDescriptor}
    (h : p.descriptor? home = some f) : ∃ kind, f = p.describe home kind := by
  rw [descriptor?] at h
  split at h
  · exact ⟨none, (Option.some.inj h).symm⟩
  · obtain ⟨t, _, rfl⟩ := Option.map_eq_some_iff.1 h
    exact ⟨t.valueKind, rfl⟩

namespace Plan

/-- Whether the accessors that the name of a field selects are its own. -/
structure Selects (plan : Plan) (p : FieldPlan) : Prop where
  read : Named.lookup p.name plan.reads = some p.readName
  write : Named.lookup p.name plan.writes = p.write?
  nested : Named.lookup p.name plan.nesteds = p.nested?
  push : Named.lookup p.name plan.pushes = p.push?

structure Ignores (plan : Plan) (name : String) : Prop where
  read : Named.lookup name plan.reads = none
  write : Named.lookup name plan.writes = none
  nested : Named.lookup name plan.nesteds = none
  push : Named.lookup name plan.pushes = none

variable {s : Schema} {home : String} {plan : Plan} {t : EntityType} {d : StructDeclaration}

theorem names_reads (plan : Plan) : Named.names plan.reads = plan.fields.map (·.name) :=
  List.map_map

theorem selects (hn : (plan.fields.map (·.name)).Nodup) {p : FieldPlan} (hp : p ∈ plan.fields) :
    plan.Selects p where
  read := Named.lookup_of_mem (names_reads plan ▸ hn) (List.mem_map_of_mem hp)
  write := Named.lookup_filterMap hn hp
  nested := Named.lookup_filterMap hn hp
  push := Named.lookup_filterMap hn hp

theorem ignores {name : String} (h : name ∉ plan.fields.map (·.name)) : plan.Ignores name where
  read := Named.lookup_eq_none_iff.2 (names_reads plan ▸ h)
  write := Named.lookup_filterMap_eq_none h
  nested := Named.lookup_filterMap_eq_none h
  push := Named.lookup_filterMap_eq_none h

theorem names_fields (hplan : d.plan = .ok plan) :
    plan.fields.map (·.name) = (d.fields.filter (!·.isSkipped)).map (·.name) :=
  (map_eq_of_forall₂ <| (StructDeclaration.plan_fields hplan).1.imp
    fun _ _ hp => (FieldDeclaration.plan?_name hp).1.symm).symm

theorem selects_or_ignores (hplan : d.plan = .ok plan) (hn : (d.fields.map (·.name)).Nodup) :
    (∀ p ∈ plan.fields, plan.Selects p) ∧ ∀ f ∈ plan.skipped, plan.Ignores f.name := by
  have hfields := names_fields hplan
  constructor
  · refine fun p hp => selects ?_ hp
    rw [hfields]
    exact hn.sublist (List.filter_sublist.map _)
  · intro f hf
    rw [(StructDeclaration.plan_fields hplan).2] at hf
    obtain ⟨hmem, hskipped⟩ := List.mem_filter.1 hf
    refine ignores fun hname => ?_
    rw [hfields] at hname
    obtain ⟨g, hg, hsame⟩ := List.mem_map.1 hname
    obtain ⟨hgmem, hkept⟩ := List.mem_filter.1 hg
    obtain rfl := List.inj_on_of_nodup_map hn hgmem hmem hsame
    simp [hskipped] at hkept

theorem describes (h : plan.entityType? s home = some t) :
    List.Forall₂ (fun p f => ∃ kind, f = p.describe home kind) plan.fields t.metadata.fields := by
  obtain ⟨descriptors, _, _, hd, _, _, rfl⟩ := entityType?_ok h
  exact (mapM_eq_some_iff.1 hd).imp fun _ _ => FieldPlan.exists_describe

theorem names_described (h : plan.entityType? s home = some t) :
    t.metadata.fields.map (·.name) = plan.fields.map (·.name) := by
  refine (map_eq_of_forall₂ <| (describes h).imp ?_).symm
  rintro p _ ⟨kind, rfl⟩
  exact (p.serves home kind).name.symm

theorem names_hidden (h : plan.entityType? s home = some t) :
    Named.names t.blank.hidden = plan.skipped.map (·.name) := by
  obtain ⟨_, _, _, _, _, _, rfl⟩ := entityType?_ok h
  exact List.map_map

end Plan

end RecordMapping.Declaration
