import RecordMapping.Declaration.Types
import RecordMapping.Proofs.Catalog.Consistent
import RecordMapping.Proofs.Lookup
/-!
What a declaration makes of a type: its blank entity has a slot for every field that is described,
in order, and the slot is of the shape that the descriptor promises.
-/
namespace RecordMapping

theorem map_eq_of_forall₂ {α β γ : Type} {f : α → γ} {g : β → γ} {xs : List α} {ys : List β}
    (h : List.Forall₂ (fun x y => f x = g y) xs ys) : xs.map f = ys.map g :=
  List.forall₂_eq_eq_eq ▸ List.forall₂_map_left_iff.2 (List.forall₂_map_right_iff.2 h)

/-- What a blank entity holds in a field with a given descriptor. -/
inductive FieldDescriptor.Fits (s : Schema) (f : FieldDescriptor) : Slot → Prop
  | data {t : DataType} : f.isNested = false → f.target = none → f.valueKind = t.valueKind →
    Fits s f (.data t t.blank)
  | single {t : EntityType} : f.isNested = true → f.target = some t.metadata.type →
    s.type? t.metadata.type = some t → Fits s f (.single t.blank)
  | optional {target : String} : f.isNested = true → f.target = some target →
    Fits s f (.optional target none)
  | many {target : String} : f.kind = .collection → f.target = some target →
    Fits s f (.many target [])

/-- A blank entity that has what its metadata describes. -/
structure EntityMetadata.Coherent (s : Schema) (m : EntityMetadata) (blank : Entity) : Prop where
  type : blank.type = m.type
  fields : List.Forall₂ (fun f slot => slot.name = f.name ∧ f.Fits s slot.value) m.fields
    blank.slots
  rooted : ∀ i, m.inheritance = some i → m.collection = i.root

namespace FieldDescriptor

variable {s : Schema} {f : FieldDescriptor} {slot : Slot}

theorem Fits.withDefaultPolicy (h : f.Fits s slot) (p : EmbeddedPolicy) :
    (f.withDefaultPolicy p).Fits s slot := by
  have hkind := f.of_withDefaultPolicy p (·.kind) fun _ => rfl
  have hvalue := f.of_withDefaultPolicy p (·.valueKind) fun _ => rfl
  have hnested := f.of_withDefaultPolicy p (·.isNested) fun _ => rfl
  have htarget := f.withDefaultPolicy_target p
  cases h with
  | data hn ht hv => exact .data (hnested.trans hn) (htarget.trans ht) (hvalue.trans hv)
  | single hn ht hs => exact .single (hnested.trans hn) (htarget.trans ht) hs
  | optional hn ht => exact .optional (hnested.trans hn) (htarget.trans ht)
  | many hk ht => exact .many (hkind.trans hk) (htarget.trans ht)

end FieldDescriptor

theorem EntityMetadata.Coherent.withDefaultPolicy {s : Schema} {m : EntityMetadata}
    {blank : Entity} (h : m.Coherent s blank) (p : EmbeddedPolicy) :
    (m.withDefaultPolicy p).Coherent s blank := by
  refine ⟨h.type, ?_, h.rooted⟩
  rw [EntityMetadata.withDefaultPolicy, List.forall₂_map_left_iff]
  refine h.fields.imp fun f slot hslot => ⟨?_, hslot.2.withDefaultPolicy p⟩
  rw [hslot.1, FieldDescriptor.withDefaultPolicy_name]

theorem Schema.type?_type {s : Schema} {type : String} {t : EntityType}
    (h : s.type? type = some t) : t.metadata.type = type := by
  simpa using List.find?_some h

theorem Schema.type?_append {s : Schema} {name : String} {t : EntityType}
    (h : s.type? name = some t) (others : List EntityType) :
    Schema.type? { s with types := s.types ++ others } name = some t := by
  rw [Schema.type?] at h
  rw [Schema.type?, List.find?_append, h]
  rfl

namespace Declaration

def Declared (s : Schema) (t : EntityType) : Prop :=
  ∃ (home : String) (d : StructDeclaration) (plan : Plan),
    d.plan = .ok plan ∧ plan.entityType? s home = some t

namespace FieldPlan

variable {s : Schema} {home : String} {p : FieldPlan} {f : FieldDescriptor} {slot : Slot}

theorem fits (hp : ∀ id many, p.shape = .value id many → many = (p.type.inner? "Vec").isSome)
    (hf : p.descriptor? home = some f) (hs : p.blankSlot? s home = some slot) :
    f.name = p.name ∧ f.Fits s slot := by
  cases hshape : p.shape with
  | value id many =>
    simp only [blankSlot?, hshape] at hs
    obtain ⟨t, ht, rfl⟩ := Option.map_eq_some_iff.1 hs
    cases id with
    | true =>
      simp only [descriptor?, kindType?, describe, hshape, ht, Option.map_some,
        Option.some.injEq] at hf
      subst hf
      exact ⟨rfl, .data rfl rfl rfl⟩
    | false =>
      cases many with
      | true =>
        obtain ⟨item, rfl⟩ := TypeExpr.dataType?_of_vec (hp false true hshape).symm ht
        simp only [descriptor?, kindType?, describe, hshape, Option.some.injEq] at hf
        subst hf
        exact ⟨rfl, .data rfl rfl rfl⟩
      | false =>
        simp only [descriptor?, kindType?, describe, hshape, ht, Option.map_some,
          Option.some.injEq] at hf
        subst hf
        exact ⟨rfl, .data rfl rfl rfl⟩
  | single target =>
    simp only [blankSlot?, hshape] at hs
    obtain ⟨t, ht, rfl⟩ := Option.map_eq_some_iff.1 hs
    have htype := Schema.type?_type ht
    simp only [descriptor?, kindType?, describe, hshape, Option.some.injEq] at hf
    subst hf
    split
    · exact ⟨rfl, .single rfl (congrArg some htype.symm) (htype.symm ▸ ht)⟩
    · exact ⟨rfl, .single rfl (congrArg some htype.symm) (htype.symm ▸ ht)⟩
  | optional target =>
    simp only [blankSlot?, hshape, Option.some.injEq] at hs
    simp only [descriptor?, kindType?, describe, hshape, Option.some.injEq] at hf
    subst hs hf
    split
    · exact ⟨rfl, .optional rfl rfl⟩
    · exact ⟨rfl, .optional rfl rfl⟩
  | many target =>
    simp only [blankSlot?, hshape, Option.some.injEq] at hs
    simp only [descriptor?, kindType?, describe, hshape, Option.some.injEq] at hf
    subst hs hf
    exact ⟨rfl, .many rfl rfl⟩

end FieldPlan

theorem FieldDeclaration.plan?_many {d : FieldDeclaration} {p : FieldPlan}
    (h : d.plan? = .ok (some p)) {id many : Bool} (hshape : p.shape = .value id many) :
    many = (p.type.inner? "Vec").isSome := by
  simp only [plan?, bind, Except.bind] at h
  split at h
  · cases h
  · next o ho =>
    split at h
    · cases h
    · obtain rfl := Option.some.inj (Except.ok.inj h)
      simp only at hshape ⊢
      split at hshape
      · split at hshape <;> cases hshape
      · exact (FieldShape.value.inj hshape).2.symm

theorem mapM_eq_ok_iff {ε α β : Type} {f : α → Except ε β} {xs : List α} {ys : List β} :
    xs.mapM f = .ok ys ↔ List.Forall₂ (fun x y => f x = .ok y) xs ys := by
  induction xs generalizing ys with
  | nil => simp [eq_comm, pure, Except.pure]
  | cons x rest ih =>
    rw [List.mapM_cons, List.forall₂_cons_left_iff]
    cases hx : f x with
    | error e => simp [bind, Except.bind]
    | ok y =>
      cases hrest : rest.mapM f with
      | error e => simp [bind, Except.bind, ← ih, hrest]
      | ok others => simp [bind, Except.bind, pure, Except.pure, ← ih, hrest, eq_comm]

theorem StructDeclaration.exists_plans {d : StructDeclaration} {plan : Plan}
    (h : d.plan = .ok plan) : ∃ plans : List (FieldDeclaration × Option FieldPlan),
      plans.map (·.1) = d.fields ∧ (∀ p ∈ plans, p.1.plan? = .ok p.2) ∧
      plan.fields = plans.filterMap (·.2) ∧
      plan.skipped =
        plans.filterMap fun (f, planned) => if planned.isNone then some f else none := by
  simp only [StructDeclaration.plan, bind, Except.bind] at h
  split at h
  · cases h
  · split at h
    · cases h
    · split at h
      · cases h
      · split at h
        · cases h
        · next plans hplans =>
          obtain rfl := Except.ok.inj h
          have hpairs : List.Forall₂ (fun f p => p.1 = f ∧ f.plan? = .ok p.2) d.fields plans := by
            refine (mapM_eq_ok_iff.1 hplans).imp fun f p hp => ?_
            cases hf : f.plan? with
            | error e => simp [hf, Except.map] at hp
            | ok planned =>
              rw [hf] at hp
              exact Except.ok.inj hp ▸ ⟨rfl, rfl⟩
          have hfields : d.fields = plans.map (·.1) := by
            rw [← map_eq_of_forall₂ (hpairs.imp fun _ _ hp => hp.1.symm), List.map_id']
          refine ⟨plans, hfields.symm, fun p hp => ?_, rfl, rfl⟩
          rw [hfields, List.forall₂_map_left_iff, List.forall₂_same] at hpairs
          exact (hpairs p hp).2

theorem StructDeclaration.exists_of_mem_plan {d : StructDeclaration} {plan : Plan}
    (h : d.plan = .ok plan) {p : FieldPlan} (hp : p ∈ plan.fields) :
    ∃ f ∈ d.fields, f.plan? = .ok (some p) := by
  obtain ⟨plans, hfields, hplans, hp', _⟩ := exists_plans h
  rw [hp'] at hp
  obtain ⟨⟨f, planned⟩, hmem, rfl⟩ := List.mem_filterMap.1 hp
  exact ⟨f, hfields ▸ List.mem_map_of_mem hmem, hplans _ hmem⟩

namespace Plan

variable {s : Schema} {home : String} {plan : Plan} {t : EntityType}

theorem entityType?_ok (h : plan.entityType? s home = some t) :
    ∃ descriptors slots inheritance,
      plan.fields.mapM (·.descriptor? home) = some descriptors ∧
      plan.fields.mapM (fun f => (f.blankSlot? s home).map (Named.mk f.name)) = some slots ∧
      plan.inheritance? s home = some inheritance ∧
      t = ⟨⟨(inheritance.map (·.root)).getD plan.collection, pathOf home plan.type, descriptors,
        inheritance⟩, .mk (pathOf home plan.type) slots
          (plan.skipped.map fun f => ⟨f.name, f.hiddenSlot⟩)⟩ := by
  obtain ⟨descriptors, hd, h⟩ := Option.bind_eq_some_iff.1 h
  obtain ⟨slots, hs, h⟩ := Option.bind_eq_some_iff.1 h
  obtain ⟨inheritance, hi, h⟩ := Option.bind_eq_some_iff.1 h
  refine ⟨descriptors, slots, inheritance, hd, hs, hi, ?_⟩
  rw [← Option.some.inj h]
  cases inheritance <;> rfl

theorem forall₂_fits {fields : List FieldPlan} {descriptors : List FieldDescriptor}
    {slots : List (Named Slot)}
    (hp : ∀ p ∈ fields, ∀ id many, p.shape = .value id many →
      many = (p.type.inner? "Vec").isSome)
    (hd : List.Forall₂ (fun p f => p.descriptor? home = some f) fields descriptors)
    (hs : List.Forall₂ (fun p slot => (p.blankSlot? s home).map (Named.mk p.name) = some slot)
      fields slots) :
    List.Forall₂ (fun f slot => slot.name = f.name ∧ f.Fits s slot.value) descriptors slots := by
  induction hd generalizing slots with
  | nil =>
    cases hs
    exact .nil
  | @cons p f rest others hf hrest ih =>
    cases hs with
    | cons hmap hslots =>
      obtain ⟨slot, hslot, rfl⟩ := Option.map_eq_some_iff.1 hmap
      obtain ⟨hname, hfits⟩ := FieldPlan.fits (hp p List.mem_cons_self) hf hslot
      exact .cons ⟨hname.symm, hfits⟩
        (ih (fun q hq => hp q (List.mem_cons_of_mem p hq)) hslots)

end Plan

theorem Declared.coherent {s : Schema} {t : EntityType} (h : Declared s t) :
    t.metadata.Coherent s t.blank := by
  obtain ⟨home, d, plan, hplan, ht⟩ := h
  obtain ⟨descriptors, slots, inheritance, hd, hs, _, rfl⟩ := Plan.entityType?_ok ht
  refine ⟨rfl, Plan.forall₂_fits ?_ (mapM_eq_some_iff.1 hd) (mapM_eq_some_iff.1 hs), ?_⟩
  · intro p hp id many hshape
    obtain ⟨f, _, hf⟩ := StructDeclaration.exists_of_mem_plan hplan hp
    exact FieldDeclaration.plan?_many hf hshape
  · rintro i rfl
    rfl

theorem Declared.append {s : Schema} {t : EntityType} (h : Declared s t)
    (others : List EntityType) : Declared { s with types := s.types ++ others } t := by
  obtain ⟨home, d, plan, hplan, ht⟩ := h
  refine ⟨home, d, plan, hplan, ?_⟩
  obtain ⟨descriptors, hd, ht⟩ := Option.bind_eq_some_iff.1 ht
  obtain ⟨slots, hs, ht⟩ := Option.bind_eq_some_iff.1 ht
  refine Option.bind_eq_some_iff.2 ⟨descriptors, hd, Option.bind_eq_some_iff.2 ⟨slots, ?_, ht⟩⟩
  refine mapM_eq_some_iff.2 ((mapM_eq_some_iff.1 hs).imp fun p slot hslot => ?_)
  obtain ⟨held, hheld, rfl⟩ := Option.map_eq_some_iff.1 hslot
  refine Option.map_eq_some_iff.2 ⟨held, ?_, rfl⟩
  rw [FieldPlan.blankSlot?] at hheld ⊢
  split at hheld
  · exact hheld
  · obtain ⟨inner, hinner, rfl⟩ := Option.map_eq_some_iff.1 hheld
    rw [Schema.type?_append hinner others]
    rfl
  · exact hheld
  · exact hheld

theorem declared_of_addStruct? {home : String} {s s' : Schema} {d : StructDeclaration}
    (h : addStruct? home s d = some s') (hs : ∀ t ∈ s.types, Declared s t) :
    ∀ t ∈ s'.types, Declared s' t := by
  obtain ⟨plan, hplan, h⟩ := Option.bind_eq_some_iff.1 h
  obtain ⟨type, htype, h⟩ := Option.bind_eq_some_iff.1 h
  obtain rfl := Option.some.inj h
  have hok : d.plan = .ok plan := by
    cases hd : d.plan with
    | error e => simp [hd, Except.toOption] at hplan
    | ok p => simpa [hd, Except.toOption] using hplan
  have hnew : Declared s type := ⟨home, d, plan, hok, htype⟩
  intro t ht
  rcases List.mem_append.1 ht with ht | ht
  · exact (hs t ht).append [type]
  · obtain rfl := List.mem_singleton.1 ht
    exact hnew.append [t]

theorem addRoot?_types {home : String} {s s' : Schema} {d : RootDeclaration}
    (h : addRoot? home s d = some s') : s'.types = s.types := by
  obtain ⟨plan, _, h⟩ := Option.bind_eq_some_iff.1 h
  rw [← Option.some.inj h]

theorem foldlM_option {α β : Type} {step : β → α → Option β} {P : β → Prop}
    (hstep : ∀ b a b', step b a = some b' → P b → P b') {xs : List α} {b b' : β}
    (h : xs.foldlM step b = some b') (hb : P b) : P b' := by
  induction xs generalizing b with
  | nil => exact Option.some.inj h ▸ hb
  | cons x rest ih =>
    rw [List.foldlM_cons] at h
    obtain ⟨next, hnext, h⟩ := Option.bind_eq_some_iff.1 h
    exact ih h (hstep _ _ _ hnext hb)

/-- All types in the schema of a module are declared. -/
theorem declared_of_schema? {home : String} {roots : List RootDeclaration}
    {structs : List StructDeclaration} {s : Schema} (h : schema? home roots structs = some s) :
    ∀ t ∈ s.types, Declared s t := by
  obtain ⟨start, hstart, h⟩ := Option.bind_eq_some_iff.1 h
  have hnil : start.types = [] :=
    foldlM_option (P := fun s => s.types = []) (fun _ _ _ hadd hs => (addRoot?_types hadd).trans hs)
      hstart rfl
  refine foldlM_option (P := fun s => ∀ t ∈ s.types, Declared s t)
    (fun _ _ _ hadd hs => declared_of_addStruct? hadd hs) h ?_
  simp [hnil]

def mailStruct (name : String) : StructDeclaration :=
  ⟨name, [⟨"text", ⟨[.name "String"]⟩, []⟩], [⟨"extends", some "Mail"⟩], .fields, ""⟩

def mailType (name path : String) : EntityType :=
  ⟨⟨"Mail", path, [{ FieldDescriptor.plain "text" with valueKind := some .text }],
    some ⟨"dtype", name, "Mail"⟩⟩, .mk path [⟨"text", .data .text ""⟩] []⟩

def mail : Schema :=
  ⟨[mailType "Letter" "post::Letter", mailType "Card" "post::Card"],
    [⟨"post::Mail", "Mail", "dtype", [⟨"Letter", "post::Letter"⟩, ⟨"Card", "post::Card"⟩]⟩]⟩

theorem parse_mail : (TypeExpr.parse "Mail").text = "Mail" := by
  have hnext : Token.next 'M' ['a', 'i', 'l'] = ([.name "Mail"], 3) := by rfl
  have hflat : Token.flat ['M', 'a', 'i', 'l'] = [.name "Mail"] := by
    rw [Token.flat, Token.chop_cons, hnext]
    simp [Token.chop_nil]
  have htokens : Token.ofText "Mail" = [.name "Mail"] := congrArg (Token.nest ⟨.round, []⟩ []) hflat
  rw [TypeExpr.parse, htokens]
  cbv

theorem mailStruct_plan (name : String) : (mailStruct name).plan = .ok ⟨name, name,
    some ("Mail", name), [⟨"text", ⟨[.name "String"]⟩, .value false false, false, none, none⟩],
    []⟩ := by
  have hoptions : TypeOptions.ofMarkers (mailStruct name).markers =
      .ok ⟨none, some "Mail", none⟩ := by
    simp [mailStruct, TypeOptions.ofMarkers, TypeOptions.add, Marker.needValue, parse_mail,
      TypeOptions.check, Except.map, bind, Except.bind, pure, Except.pure]
  have hfield : FieldDeclaration.plan? ⟨"text", ⟨[.name "String"]⟩, []⟩ =
      .ok (some ⟨"text", ⟨[.name "String"]⟩, .value false false, false, none, none⟩) := by rfl
  have hgeneric : (mailStruct name).isGeneric = false := by
    simp [StructDeclaration.isGeneric, mailStruct, Token.ofText, Token.flat, Token.chop_nil,
      Token.nest]
  simp only [StructDeclaration.plan, hoptions, hgeneric]
  simp [mailStruct, hfield, bind, Except.bind, Except.map, pure, Except.pure]

def stopStruct : StructDeclaration :=
  ⟨"Stop", [⟨"city", ⟨[.name "String"]⟩, []⟩], [], .fields, ""⟩

def stopType : EntityType :=
  ⟨⟨"Stop", "post::Stop", [{ FieldDescriptor.plain "city" with valueKind := some .text }], none⟩,
    .mk "post::Stop" [⟨"city", .data .text ""⟩] []⟩

def parcelStruct : StructDeclaration :=
  ⟨"Parcel", [⟨"label", ⟨[.name "String"]⟩, []⟩,
    ⟨"pickup", ⟨[.name "Option", .group .angle [.name "Stop"]]⟩,
      [⟨"embedded", none⟩, ⟨"flatten", none⟩]⟩,
    ⟨"weight", ⟨[.name "u64"]⟩, [⟨"skip", none⟩]⟩,
    ⟨"legs", ⟨[.name "Vec", .group .angle [.name "Stop"]]⟩, [⟨"entity", none⟩]⟩], [], .fields, ""⟩

def parcelType : EntityType :=
  ⟨⟨"Parcel", "post::Parcel", [{ FieldDescriptor.plain "label" with valueKind := some .text },
      { FieldDescriptor.embedded "pickup" "post::Stop" with declaredPolicy := some .flattened },
      FieldDescriptor.entityCollection "legs" "post::Stop"], none⟩,
    .mk "post::Parcel" [⟨"label", .data .text ""⟩, ⟨"pickup", .optional "post::Stop" none⟩,
      ⟨"legs", .many "post::Stop" []⟩]
      [⟨"weight", .data (.int (.unsigned .w64)) (IntType.zero _)⟩]⟩

def parcel (label : String) (weight : IntType.Carrier (.unsigned .w64)) : Entity :=
  .mk "post::Parcel" [⟨"label", .data .text label⟩, ⟨"pickup", .optional "post::Stop" none⟩,
    ⟨"legs", .many "post::Stop" []⟩] [⟨"weight", .data (.int (.unsigned .w64)) weight⟩]

end Declaration

open Declaration

/-- Whether metadata comes with a declared type. -/
def Schema.Declares (s : Schema) (metadata : EntityMetadata) : Prop :=
  ∃ t, s.type? metadata.type = some t ∧ t.metadata = metadata ∧ Declared s t

theorem Schema.declares_of_schema? {s : Schema} {home : String} {roots : List RootDeclaration}
    {structs : List StructDeclaration} (h : schema? home roots structs = some s)
    (hn : (s.types.map (·.metadata.type)).Nodup) :
    ∀ metadata ∈ s.types.map (·.metadata), s.Declares metadata := by
  intro metadata hm
  obtain ⟨t, ht, rfl⟩ := List.mem_map.1 hm
  exact ⟨t, (find?_key_iff hn).2 ⟨ht, rfl⟩, rfl, declared_of_schema? h t ht⟩

theorem mail_declares : ∀ metadata ∈ mail.types.map (·.metadata), mail.Declares metadata := by
  intro metadata h
  simp only [mail, List.map_cons, List.map_nil, List.mem_cons, List.not_mem_nil, or_false] at h
  rcases h with rfl | rfl
  · exact ⟨_, rfl, rfl, "post", mailStruct "Letter", _, mailStruct_plan "Letter", by cbv⟩
  · exact ⟨_, rfl, rfl, "post", mailStruct "Card", _, mailStruct_plan "Card", by cbv⟩

end RecordMapping
