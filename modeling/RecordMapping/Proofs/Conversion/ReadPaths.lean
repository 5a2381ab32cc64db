import RecordMapping.Proofs.Conversion.Selection
/-!
The ways to read a record of a hierarchy: as whatever its collection holds, as a sibling of some
subtype, as a value of a root, and as one subtype. All of them take the subtype that the
discriminator names, or fail for the same reason, and none ever takes another one.
-/
namespace RecordMapping

open Catalog

def Value.discriminatorText (v : Value) : String :=
  match v.coerce .text with
  | .ok (.text s) => s
  | _ => v.describe

/-- What the discriminator of a record among the siblings of a subtype says: the attribute is
missing, its text belongs to no registered subtype, or it names one. -/
inductive Catalog.Resolves (c : Catalog) (i : Inheritance) (r : Record) :
    Except MappingError CatalogEntry → Prop
  | missing : (r.find? i.discriminator = none ∨ r.find? i.discriminator = some .null) →
    Resolves c i r (.error (.missingDiscriminator i.root i.discriminator))
  | unmapped {v : Value} : r.find? i.discriminator = some v → v ≠ .null →
    (∀ y ∈ c.entries, ∀ j, y.metadata.inheritance = some j → j.root = i.root →
      j.value ≠ v.discriminatorText) →
    Resolves c i r (.error (.unmappedDiscriminator i.root i.discriminator v.discriminatorText))
  | subtype {v : Value} {y : CatalogEntry} {j : Inheritance} : r.find? i.discriminator = some v →
    v ≠ .null → y ∈ c.entries → y.metadata.inheritance = some j → j.root = i.root →
    j.value = v.discriminatorText → Resolves c i r (.ok y)

theorem exists_of_bind_ok {ε α β : Type} {x : Except ε α} {f : α → Except ε β} {b : β}
    (h : x.bind f = .ok b) : ∃ a, x = .ok a ∧ f a = .ok b := by
  cases x with
  | error e => cases h
  | ok a => exact ⟨a, rfl, h⟩

namespace Entity

variable {e inner : Entity} {name : String}

@[simp] theorem type_assign (slot : Slot) : (e.assign name slot).type = e.type := by
  cases e
  rfl

@[simp] theorem type_putNested : (e.putNested name inner).type = e.type := by
  rw [putNested]
  split <;> simp

@[simp] theorem type_append : (e.append name inner).type = e.type := by
  rw [append]
  split <;> simp

theorem type_write {v : Value} {filled : Entity} (h : e.write name v = .ok filled) :
    filled.type = e.type := by
  rw [write] at h
  split at h
  · split at h
    · rw [← Except.ok.inj h, type_assign]
    · cases h
  · cases h

variable {blank : String → Entity} {owner : String} {fill : Entity → Filling}

theorem type_fillNested : (e.fillNested blank owner name fill).entity.type = e.type := by
  rw [fillNested]
  split
  · rfl
  · exact type_putNested

theorem type_fillElement : (e.fillElement blank owner name fill).entity.type = e.type := by
  rw [fillElement]
  split
  · rfl
  · exact type_append

theorem type_fillPlain {f : FieldDescriptor} {attributes : List Attribute} :
    (e.fillPlain owner f attributes).entity.type = e.type := by
  rw [fillPlain]
  split
  · rfl
  · cases f.valueKind
    all_goals
      dsimp only
      split
      · next filled h =>
        obtain ⟨v, _, hv⟩ := exists_of_bind_ok h
        exact type_write hv
      · rfl

end Entity

theorem Filling.type_andThen {r : Filling} {next : Entity → Filling} {type : String}
    (hr : r.entity.type = type) (hnext : ∀ e, e.type = type → (next e).entity.type = type) :
    (r.andThen next).entity.type = type := by
  rw [andThen]
  split
  · exact hnext _ hr
  · exact hr

namespace Catalog

variable {c : Catalog} {blank : String → Entity} {owner : String} {attributes : List Attribute}

theorem type_fillElements {field : String} {entry : CatalogEntry} (values : List Value)
    (e : Entity) : (c.fillElements blank owner field entry values e).entity.type = e.type := by
  induction values generalizing e with
  | nil => rw [fillElements]; rfl
  | cons v rest ih =>
    cases v with
    | record inner =>
      rw [fillElements]
      exact Filling.type_andThen Entity.type_fillElement fun other h => (ih other).trans h
    | _ => rw [fillElements] <;> simp [Filling.fail]

theorem type_fillItem (item : LayoutItem) (e : Entity) :
    (c.fillItem blank owner attributes item e).entity.type = e.type := by
  cases item with
  | group f target items =>
    rw [fillItem]
    split
    · exact Entity.type_fillNested
    · rfl
  | detached f =>
    rw [fillItem]
    exact Entity.type_fillPlain
  | stored f =>
    rw [fillItem]
    split
    · split
      · rfl
      · rfl
      · split
        · rfl
        · split
          · exact Entity.type_fillNested
          · rfl
    · split
      · rfl
      · rfl
      · split
        · rfl
        · split
          · exact Entity.type_fillNested
          · rfl
    · split
      · rfl
      · rfl
      · split
        · rfl
        · split
          · exact type_fillElements _ e
          · rfl
    · exact Entity.type_fillPlain

theorem type_fill (items : List LayoutItem) (e : Entity) :
    (c.fill blank owner attributes items e).entity.type = e.type := by
  induction items generalizing e with
  | nil => rw [fill]; rfl
  | cons item rest ih =>
    rw [fill]
    exact Filling.type_andThen (type_fillItem item e) fun other h => (ih other).trans h

end Catalog

theorem Hierarchy.select_cases (h : Hierarchy) (attributes : List Attribute) :
    ((Named.lookup h.discriminator attributes = none ∨
        Named.lookup h.discriminator attributes = some .null) ∧
      h.select attributes = .error (.missingDiscriminator h.root h.discriminator)) ∨
    ∃ v, Named.lookup h.discriminator attributes = some v ∧ v ≠ .null ∧
      h.select attributes = match h.subtype? v.discriminatorText with
        | some y => .ok y
        | none => .error (.unmappedDiscriminator h.root h.discriminator v.discriminatorText) := by
  rw [select]
  split
  · next hnone => exact .inl ⟨.inl hnone, rfl⟩
  · next hnull => exact .inl ⟨.inr hnull, rfl⟩
  · next v hnull hv => exact .inr ⟨v, hv, hnull, rfl⟩

theorem Catalog.Consistent.resolves_select {c : Catalog} (hc : c.Consistent) {x : CatalogEntry}
    (hx : x ∈ c.entries) {i : Inheritance} (hi : x.metadata.inheritance = some i) :
    ∃ h, c.hierarchy? i.root = some h ∧ ∀ r : Record, c.Resolves i r (h.select r.attributes) := by
  obtain ⟨h, hh, hroot, hdiscriminator, hsubtype⟩ := hc.hierarchy?_spec hx hi
  refine ⟨h, hh, fun r => ?_⟩
  rcases h.select_cases r.attributes with ⟨hmissing, hselect⟩ | ⟨v, hv, hnull, hselect⟩
  · rw [hselect, hroot, hdiscriminator]
    exact .missing (hdiscriminator ▸ hmissing)
  · rw [hdiscriminator] at hv
    rw [hselect, hroot, hdiscriminator]
    cases hy : h.subtype? v.discriminatorText with
    | none =>
      refine .unmapped hv hnull fun y hmem j hj hjroot hvalue => ?_
      rw [(hsubtype _ y).2 ⟨hmem, j, hj, hjroot, hvalue⟩] at hy
      cases hy
    | some y =>
      obtain ⟨hmem, j, hj, hjroot, hvalue⟩ := (hsubtype _ y).1 hy
      exact .subtype hv hnull hmem hj hjroot hvalue

namespace Mapping

variable {m : Mapping}

theorem type_of_instantiate {x : CatalogEntry} {attributes : List Attribute} {e : Entity}
    (h : m.instantiate x attributes = .ok e) : e.type = (m.schema.blank x.metadata.type).type := by
  rw [instantiate, Filling.result] at h
  split at h
  · rw [← Except.ok.inj h]
    exact type_fill x.items _
  · cases h

theorem toDynamic_eq {h : Hierarchy} {r : Record} (hh : m.catalog.hierarchy? r.name = some h) :
    m.toDynamic r = (h.select r.attributes).bind (m.instantiate · r.attributes) := by
  rw [toDynamic, hh]
  rfl

theorem toInherited_eq {h : Hierarchy} {r : Record} {member : EntityMetadata} {i : Inheritance}
    (hi : member.inheritance = some i) (hh : m.catalog.hierarchy? i.root = some h) :
    m.toInherited member r = (h.select r.attributes).bind (m.instantiate · r.attributes) := by
  rw [toInherited, subtypeOf_eq r hi hh]
  rfl

theorem toEntity_eq (hc : m.catalog.Consistent) {x : CatalogEntry} (hx : x ∈ m.catalog.entries)
    {h : Hierarchy} {r : Record} {i : Inheritance} (hi : x.metadata.inheritance = some i)
    (hh : m.catalog.hierarchy? i.root = some h) :
    m.toEntity x.metadata.type r = (h.select r.attributes).bind fun y =>
      if y.metadata.type = x.metadata.type then m.instantiate x r.attributes
      else .error (.subtypeMismatch x.metadata.type y.metadata.type) := by
  have hentry : m.entry x.metadata.type = .ok x := by rw [entry, hc.entry?_type hx]
  have hsubtype := subtypeOf_eq r hi hh
  cases hselect : h.select r.attributes with
  | error e => simp [toEntity, hentry, hi, hsubtype, hselect, bind, Except.bind]
  | ok y =>
    by_cases hy : y.metadata.type = x.metadata.type
    · simp [toEntity, hentry, hi, hsubtype, hselect, hy, bind, Except.bind]
    · simp [toEntity, hentry, hi, hsubtype, hselect, hy, bind, Except.bind, throw, throwThe,
        MonadExceptOf.throw]

theorem toRoot_error {root : Root} {h : Hierarchy} {r : Record} {e : MappingError}
    (hh : m.catalog.hierarchy? root.collection = some h)
    (hselect : h.select r.attributes = .error e) : m.toRoot root r = .error e := by
  simp only [toRoot, hh, hselect]
  rfl

theorem exists_toRoot {root : Root} {h : Hierarchy} {r : Record} {y : CatalogEntry}
    (hh : m.catalog.hierarchy? root.collection = some h) (hselect : h.select r.attributes = .ok y)
    (hy : ∃ v ∈ root.variants, v.value = y.metadata.type) :
    ∃ v ∈ root.variants, v.value = y.metadata.type ∧
      m.toRoot root r = (m.instantiate y r.attributes).map (⟨v.name, ·⟩) := by
  obtain ⟨v, hv, htype⟩ := hy
  have hsome : (root.variants.find? (·.value == y.metadata.type)).isSome :=
    List.find?_isSome.2 ⟨v, hv, beq_iff_eq.2 htype⟩
  obtain ⟨w, hw⟩ := Option.isSome_iff_exists.1 hsome
  have hvariant : m.schema.instantiate? root y.metadata.type =
      some ⟨w.name, m.schema.blank y.metadata.type⟩ := by
    rw [Schema.instantiate?, hw]
    rfl
  refine ⟨w, List.mem_of_find?_eq_some hw, by simpa using List.find?_some hw, ?_⟩
  simp only [toRoot, hh, hselect, hvariant, bind, Except.bind]
  rw [instantiate]
  cases (m.catalog.fillBy m.schema.blank y r.attributes
    (m.schema.blank y.metadata.type)).result <;> rfl

/-- A record of a hierarchy is read alike along all paths: what its discriminator resolves to
decides between one entity of the named subtype, filled from the attributes or failing on them, and
one error. A subtype that is not named only ever says so. -/
theorem read_paths_agree {settings : Settings} {given : List EntityMetadata}
    (hb : Catalog.build settings given = .ok m.catalog) {root : Root}
    (hv : ∀ y ∈ m.catalog.entries, ∀ j, y.metadata.inheritance = some j →
      j.root = root.collection → ∃ v ∈ root.variants, v.value = y.metadata.type)
    {x : CatalogEntry} (hx : x ∈ m.catalog.entries) {i : Inheritance}
    (hi : x.metadata.inheritance = some i) (hroot : i.root = root.collection) {r : Record}
    (hr : r.name = root.collection) :
    ∃ outcome, m.catalog.Resolves i r outcome ∧
      m.toDynamic r = outcome.bind (m.instantiate · r.attributes) ∧
      m.toInherited x.metadata r = m.toDynamic r ∧
      (m.toRoot root r).map (·.entity) = m.toDynamic r ∧
      m.toEntity x.metadata.type r = (outcome.bind fun y =>
        if y.metadata.type = x.metadata.type then m.toDynamic r
        else .error (.subtypeMismatch x.metadata.type y.metadata.type)) ∧
      ∀ e, m.toDynamic r = .ok e → ∃ y, outcome = .ok y ∧
        e.type = (m.schema.blank y.metadata.type).type ∧
        ∃ v ∈ root.variants, v.value = y.metadata.type ∧ m.toRoot root r = .ok ⟨v.name, e⟩ := by
  obtain ⟨_, _, hc⟩ := Catalog.build_spec hb
  obtain ⟨h, hh, hresolves⟩ := hc.resolves_select hx hi
  have hdynamic := toDynamic_eq (m := m) (r := r) (hr.trans hroot.symm ▸ hh)
  have hinherited := toInherited_eq (m := m) (r := r) hi hh
  have hentity := toEntity_eq (r := r) hc hx hi hh
  rw [hroot] at hh
  refine ⟨_, hresolves r, hdynamic, hinherited.trans hdynamic.symm, ?_⟩
  have hspec := hresolves r
  cases hselect : h.select r.attributes with
  | error e =>
    rw [hselect] at hdynamic hentity
    rw [toRoot_error hh hselect, hdynamic, hentity]
    refine ⟨rfl, rfl, fun e he => by cases he⟩
  | ok y =>
    rw [hselect] at hdynamic hentity hspec
    obtain ⟨hy, j, hj, hjroot⟩ : y ∈ m.catalog.entries ∧ ∃ j,
        y.metadata.inheritance = some j ∧ j.root = i.root := by
      cases hspec with
      | subtype _ _ hy hj hjroot _ => exact ⟨hy, _, hj, hjroot⟩
    obtain ⟨v, hvariant, hvalue, htoRoot⟩ :=
      exists_toRoot hh hselect (hv y hy j hj (hjroot.trans hroot))
    have hnew : m.toDynamic r = m.instantiate y r.attributes := hdynamic
    refine ⟨?_, ?_, fun e he => ?_⟩
    · rw [htoRoot, hnew]
      cases m.instantiate y r.attributes <;> rfl
    · rw [hentity, hnew]
      change (if _ then _ else _) = if _ then _ else _
      by_cases hxy : y.metadata.type = x.metadata.type
      · rw [if_pos hxy, if_pos hxy, hc.eq_of_type_eq hy hx hxy]
      · rw [if_neg hxy, if_neg hxy]
    · rw [hnew] at he
      refine ⟨y, rfl, type_of_instantiate he, v, hvariant, hvalue, ?_⟩
      rw [htoRoot, he]
      rfl

def mailRoot : Root :=
  ⟨"post::Mail", "Mail", "dtype", [⟨"Letter", "post::Letter"⟩, ⟨"Card", "post::Card"⟩]⟩

def cardRecord : Record :=
  ⟨"Mail", [⟨"dtype", .text "Card"⟩, ⟨"text", .int 5⟩, ⟨"dtype", .text "Letter"⟩]⟩

theorem card_read_alike : mailing.toDynamic cardRecord =
      .ok (.mk "post::Card" [⟨"text", .data .text "5"⟩] []) ∧
    mailing.toInherited (Declaration.mailType "Letter" "post::Letter").metadata cardRecord =
      mailing.toDynamic cardRecord ∧
    mailing.toRoot mailRoot cardRecord =
      .ok ⟨"Card", .mk "post::Card" [⟨"text", .data .text "5"⟩] []⟩ ∧
    mailing.toEntity "post::Letter" cardRecord =
      .error (.subtypeMismatch "post::Letter" "post::Card") := by
  have hx : ⟨(Declaration.mailType "Letter" "post::Letter").metadata,
      (Declaration.mailType "Letter" "post::Letter").metadata.fields.map .stored⟩ ∈
        mailing.catalog.entries := List.mem_cons_self
  have hcovers : ∀ y ∈ mailing.catalog.entries, ∀ j, y.metadata.inheritance = some j →
      j.root = mailRoot.collection → ∃ v ∈ mailRoot.variants, v.value = y.metadata.type := by
    intro y hy _ _ _
    simp only [mailing, Declaration.mail, List.map_cons, List.map_nil, List.mem_cons,
      List.not_mem_nil, or_false] at hy
    rcases hy with rfl | rfl
    · exact ⟨_, List.mem_cons_self, rfl⟩
    · exact ⟨_, List.mem_cons_of_mem _ List.mem_cons_self, rfl⟩
  have hnew : mailing.toDynamic cardRecord =
      .ok (.mk "post::Card" [⟨"text", .data .text "5"⟩] []) := by cbv
  obtain ⟨outcome, _, _, hinherited, _, hentity, hok⟩ :=
    read_paths_agree mailing_accepted hcovers hx rfl rfl (r := cardRecord) rfl
  obtain ⟨y, rfl, htype, v, hv, hvalue, hroot⟩ := hok _ hnew
  rw [← hvalue] at htype
  simp only [mailRoot, List.mem_cons, List.not_mem_nil, or_false] at hv
  rcases hv with rfl | rfl
  · exact absurd htype (by decide)
  · refine ⟨hnew, hinherited, hroot, ?_⟩
    change _ = if _ then _ else _ at hentity
    rw [← hvalue, if_neg (by decide)] at hentity
    exact hentity

end Mapping
end RecordMapping
