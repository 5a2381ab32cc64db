import RecordMapping.Proofs.Catalog.Registration
import RecordMapping.Proofs.Conversion.Extension
import RecordMapping.Proofs.Conversion.ReadPaths
/-!
Conversion after more types were registered. Entities of the types that were there are written as
before, and a record that could be read is read as the same entity, along every path. A record that
could not be read may become readable, say when its subtype is registered.
-/
namespace RecordMapping

theorem Hierarchy.select_of_subtypes {h other : Hierarchy}
    (hdiscriminator : other.discriminator = h.discriminator)
    (hsubtypes : ∀ value x, h.subtype? value = some x → other.subtype? value = some x)
    {attributes : List Attribute} {x : CatalogEntry} (hx : h.select attributes = .ok x) :
    other.select attributes = .ok x := by
  rcases h.select_cases attributes with ⟨_, herror⟩ | ⟨v, hv, hnull, hselect⟩
  · rw [herror] at hx
    cases hx
  · rw [hselect] at hx
    rcases other.select_cases attributes with ⟨hmissing, _⟩ | ⟨w, hw, _, hother⟩
    · rw [hdiscriminator, hv] at hmissing
      simp [hnull] at hmissing
    · rw [hdiscriminator, hv] at hw
      obtain rfl := Option.some.inj hw
      rw [hother]
      cases hy : h.subtype? v.discriminatorText with
      | none => simp [hy] at hx
      | some y =>
        rw [hsubtypes _ y hy]
        simpa only [hy] using hx

namespace Mapping

variable {m : Mapping} {r : Record} {e : Entity}

theorem toEntity_eq_ok_iff {type : String} : m.toEntity type r = .ok e ↔
    ∃ x, m.catalog.entry? type = some x ∧
      (x.metadata.inheritance = none ∨
        ∃ y, m.subtypeOf x.metadata r = .ok y ∧ y.metadata.type = x.metadata.type) ∧
      m.instantiate x r.attributes = .ok e := by
  cases hx : m.catalog.entry? type with
  | none => simp [toEntity, entry, hx, bind, Except.bind]
  | some x =>
    cases hi : x.metadata.inheritance with
    | none => simp [toEntity, entry, hx, hi, bind, Except.bind]
    | some i =>
      cases hsubtype : m.subtypeOf x.metadata r with
      | error error => simp [toEntity, entry, hx, hi, hsubtype, bind, Except.bind]
      | ok y =>
        by_cases hy : y.metadata.type = x.metadata.type
        · simp [toEntity, entry, hx, hi, hsubtype, hy, bind, Except.bind]
        · simp [toEntity, entry, hx, hi, hsubtype, hy, bind, Except.bind, throw, throwThe,
            MonadExceptOf.throw]

theorem toInherited_eq_ok_iff {member : EntityMetadata} : m.toInherited member r = .ok e ↔
    ∃ y, m.subtypeOf member r = .ok y ∧ m.instantiate y r.attributes = .ok e := by
  cases hsubtype : m.subtypeOf member r <;> simp [toInherited, hsubtype, bind, Except.bind]

theorem toRoot_eq_ok_iff {root : Root} {v : RootValue} : m.toRoot root r = .ok v ↔
    ∃ h, m.catalog.hierarchy? root.collection = some h ∧ ∃ y, h.select r.attributes = .ok y ∧
      ∃ new, m.schema.instantiate? root y.metadata.type = some new ∧
        m.catalog.fillBy m.schema.blank y r.attributes new.entity = .done v.entity ∧
        new.variant = v.variant := by
  obtain ⟨variant, filled⟩ := v
  cases hh : m.catalog.hierarchy? root.collection with
  | none => simp [toRoot, hh, throw, throwThe, MonadExceptOf.throw]
  | some h =>
    cases hselect : h.select r.attributes with
    | error error => simp [toRoot, hh, hselect, bind, Except.bind]
    | ok y =>
      cases hnew : m.schema.instantiate? root y.metadata.type with
      | none =>
        simp [toRoot, hh, hselect, hnew, bind, Except.bind, throw, throwThe, MonadExceptOf.throw]
      | some new =>
        simp only [toRoot, hh, hselect, hnew, bind, Except.bind, Option.some.injEq,
          Except.ok.injEq, exists_eq_left', ← Filling.result_eq_ok_iff]
        cases (m.catalog.fillBy m.schema.blank y r.attributes new.entity).result <;>
          simp [pure, Except.pure, and_comm]

theorem toDynamic_eq_ok_iff : m.toDynamic r = .ok e ↔
    (∃ h y, m.catalog.hierarchy? r.name = some h ∧ h.select r.attributes = .ok y ∧
      m.instantiate y r.attributes = .ok e) ∨
    ∃ x, m.catalog.hierarchy? r.name = none ∧ m.catalog.inCollection? r.name = some x ∧
      m.instantiate x r.attributes = .ok e := by
  cases hh : m.catalog.hierarchy? r.name with
  | some h =>
    cases hselect : h.select r.attributes <;>
      simp [toDynamic, hh, hselect, bind, Except.bind]
  | none =>
    cases hx : m.catalog.inCollection? r.name <;>
      simp [toDynamic, hh, hx, throw, throwThe, MonadExceptOf.throw]

end Mapping

namespace Catalog.Extends

variable {m : Mapping} {c : Catalog} (hext : m.catalog.Extends c) (hs : c.Consistent)
  (hl : m.catalog.Consistent) {r : Record}
include hext hs hl

theorem select {root : String} {h : Hierarchy} (hh : c.hierarchy? root = some h)
    {attributes : List Attribute} {x : CatalogEntry} (hx : h.select attributes = .ok x) :
    ∃ h', m.catalog.hierarchy? root = some h' ∧ h'.select attributes = .ok x := by
  obtain ⟨h', hh', _, hdiscriminator, hsubtypes⟩ := hext.exists_hierarchy hs hl hh
  exact ⟨h', hh', Hierarchy.select_of_subtypes hdiscriminator hsubtypes hx⟩

theorem subtypeOf {member : EntityMetadata} {x : CatalogEntry}
    (hx : Mapping.subtypeOf ⟨m.schema, c⟩ member r = .ok x) : m.subtypeOf member r = .ok x := by
  rw [Mapping.subtypeOf] at hx
  split at hx
  · next h hh =>
    obtain ⟨i, hi, hroot⟩ := Option.bind_eq_some_iff.1 hh
    obtain ⟨h', hh', hselect⟩ := hext.select hs hl hroot hx
    rw [Mapping.subtypeOf_eq r hi hh', hselect]
  · cases hx

theorem toEntity {type : String} {e : Entity}
    (h : Mapping.toEntity ⟨m.schema, c⟩ type r = .ok e) : m.toEntity type r = .ok e := by
  obtain ⟨x, hx, hsubtype, hnew⟩ := Mapping.toEntity_eq_ok_iff.1 h
  refine Mapping.toEntity_eq_ok_iff.2 ⟨x, hext hx, hsubtype.imp_right ?_, hext.instantiate hnew⟩
  exact fun ⟨y, hy, htype⟩ => ⟨y, hext.subtypeOf hs hl hy, htype⟩

theorem toInherited {member : EntityMetadata} {e : Entity}
    (h : Mapping.toInherited ⟨m.schema, c⟩ member r = .ok e) : m.toInherited member r = .ok e := by
  obtain ⟨y, hy, hnew⟩ := Mapping.toInherited_eq_ok_iff.1 h
  exact Mapping.toInherited_eq_ok_iff.2 ⟨y, hext.subtypeOf hs hl hy, hext.instantiate hnew⟩

theorem toRoot {root : Root} {v : RootValue}
    (h : Mapping.toRoot ⟨m.schema, c⟩ root r = .ok v) : m.toRoot root r = .ok v := by
  obtain ⟨h, hh, y, hselect, new, hnew, hfill, hvariant⟩ := Mapping.toRoot_eq_ok_iff.1 h
  obtain ⟨h', hh', hselect'⟩ := hext.select hs hl hh hselect
  exact Mapping.toRoot_eq_ok_iff.2
    ⟨h', hh', y, hselect', new, hnew, hext.fill _ _ y.items hfill, hvariant⟩

theorem toDynamic {e : Entity} (h : Mapping.toDynamic ⟨m.schema, c⟩ r = .ok e) :
    m.toDynamic r = .ok e := by
  rcases Mapping.toDynamic_eq_ok_iff.1 h with ⟨h, y, hh, hselect, hnew⟩ | ⟨x, _, hx, hnew⟩
  · obtain ⟨h', hh', hselect'⟩ := hext.select hs hl hh hselect
    exact Mapping.toDynamic_eq_ok_iff.2 (.inl ⟨h', y, hh', hselect', hext.instantiate hnew⟩)
  · obtain ⟨hnone, hlarge⟩ := hext.inCollection? hs hl hx
    exact Mapping.toDynamic_eq_ok_iff.2 (.inr ⟨x, hnone, hlarge, hext.instantiate hnew⟩)

end Catalog.Extends

namespace Mapping

/-- What was converted before more types were registered is converted in the same way afterwards: an
entity of a registered type whose metadata is declared, and every record that could be read. -/
theorem registered_convert_alike (schema : Schema) {settings : Settings}
    {given others : List EntityMetadata} {small large : Catalog}
    (hsmall : Catalog.build settings given = .ok small)
    (hlarge : Catalog.build settings others = .ok large)
    (hsub : ∀ metadata ∈ given, metadata ∈ others) :
    (∀ e, schema.Typed e → (∃ x, small.entry? e.type = some x) →
      (∀ metadata ∈ given, small.Leads e.type metadata.type → schema.Declares metadata) →
      ∃ r, toRecord ⟨schema, small⟩ e = .ok r ∧ toRecord ⟨schema, large⟩ e = .ok r) ∧
    (∀ e r, toRecord ⟨schema, small⟩ e = .ok r → toRecord ⟨schema, large⟩ e = .ok r) ∧
    ∀ r, (∀ type e, toEntity ⟨schema, small⟩ type r = .ok e →
        toEntity ⟨schema, large⟩ type r = .ok e) ∧
      (∀ member e, toInherited ⟨schema, small⟩ member r = .ok e →
        toInherited ⟨schema, large⟩ member r = .ok e) ∧
      (∀ root v, toRoot ⟨schema, small⟩ root r = .ok v →
        toRoot ⟨schema, large⟩ root r = .ok v) ∧
      ∀ e, toDynamic ⟨schema, small⟩ r = .ok e → toDynamic ⟨schema, large⟩ r = .ok e := by
  obtain ⟨_, _, hs⟩ := Catalog.build_spec hsmall
  obtain ⟨_, _, hl⟩ := Catalog.build_spec hlarge
  have hext : Catalog.Extends (Mapping.mk schema large).catalog small :=
    Catalog.extends_of_build hsmall hlarge hsub
  refine ⟨fun e he hx hd => ?_, fun _ _ => hext.toRecord, fun r => ⟨fun _ _ => hext.toEntity hs hl,
    fun _ _ => hext.toInherited hs hl, fun _ _ => hext.toRoot hs hl, fun _ => hext.toDynamic hs hl⟩⟩
  -- the types that the entity can hold agree with their metadata, whatever the others are
  obtain ⟨c, hpart, hm, hsame⟩ := exists_sound_leads (m := ⟨schema, small⟩) hsmall hd
  obtain ⟨x, hx⟩ := hx
  obtain ⟨attributes, ha⟩ := (he.agrees hm ⟨x, hsame.trans hx⟩).encodes
  have hr : toRecord ⟨schema, small⟩ e = .ok ⟨x.metadata.collection, attributes⟩ :=
    hpart.toRecord (toRecord_eq_ok_iff.2 ⟨x, hsame.trans hx, ha, rfl⟩)
  exact ⟨_, hr, hext.toRecord hr⟩

def letters : Mapping :=
  let letter := Declaration.mailType "Letter" "post::Letter"
  ⟨Declaration.mail, Settings.standard, [⟨letter.metadata, letter.metadata.fields.map .stored⟩]⟩

theorem letters_then_cards :
    let record : Record := ⟨"Mail", [⟨"text", .text "hello"⟩, ⟨"dtype", .text "Letter"⟩]⟩
    letters.toRecord (letter "hello") = .ok record ∧
    mailing.toRecord (letter "hello") = .ok record ∧
    mailing.toEntity "post::Letter" record = .ok (letter "hello") ∧
    mailing.toInherited (Declaration.mailType "Card" "post::Card").metadata record =
      .ok (letter "hello") ∧
    mailing.toRoot mailRoot record = .ok ⟨"Letter", letter "hello"⟩ ∧
    mailing.toDynamic record = .ok (letter "hello") := by
  intro record
  have hsmall : Catalog.build Settings.standard
      [(Declaration.mailType "Letter" "post::Letter").metadata] = .ok letters.catalog := by cbv
  have hsub : ∀ metadata ∈ [(Declaration.mailType "Letter" "post::Letter").metadata],
      metadata ∈ Declaration.mail.types.map (·.metadata) :=
    fun _ h => List.mem_singleton.1 h ▸ List.mem_cons_self
  have htyped : Declaration.mail.Typed (letter "hello") :=
    .intro (t := Declaration.mailType "Letter" "post::Letter") (by rfl) (.cons .data .nil)
  obtain ⟨hwrite, _, hread⟩ :=
    registered_convert_alike Declaration.mail hsmall mailing_accepted hsub
  obtain ⟨hentity, hinherited, hroot, hdynamic⟩ := hread record
  obtain ⟨r, hr, hlarge⟩ := hwrite _ htyped ⟨_, by rfl⟩ fun metadata h _ =>
    mail_declares metadata (hsub metadata h)
  have hrecord : letters.toRecord (letter "hello") = .ok record := by cbv
  obtain rfl := Except.ok.inj (hr.symm.trans hrecord)
  exact ⟨hr, hlarge, hentity _ _ (by cbv), hinherited _ _ (by cbv), hroot _ _ (by cbv),
    hdynamic _ (by cbv)⟩

end Mapping
end RecordMapping
