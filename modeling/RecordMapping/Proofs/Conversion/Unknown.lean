import RecordMapping.Proofs.Conversion.Offered
import RecordMapping.Proofs.Conversion.Stepwise
/-!
Unknown fields. No field of a derived type is unknown to its entities, unless the entities are held
by a type that is not derived and does not hold what its descriptors point at.
-/
namespace RecordMapping

theorem Entity.write_eq_unknownField {e : Entity} {name : String} {v : Value}
    {owner field : String} (h : e.write name v = .error (.unknownField owner field)) :
    owner = e.type ∧ ∀ (t : DataType) (x : t.Carrier), e.slot? name ≠ some (.data t x) := by
  rw [write] at h
  split at h
  case h_1 t x hs =>
    split at h
    · cases h
    · cases h
  case h_2 hs =>
    obtain ⟨rfl, rfl⟩ := MappingError.unknownField.inj (Except.error.inj h)
    exact ⟨rfl, hs⟩

namespace Mapping

open Catalog

variable {m : Mapping}

section Steps

variable {type target : String} {e inner : Entity} {f : FieldDescriptor}

theorem Fit.nested? (h : m.Fit type e) (hc : m.catalog.Consistent) (hh : m.Honest type)
    (hf : f ∈ m.catalog.fieldsOf type) (ht : f.target = some target)
    (hinner : e.nested? m.schema.blank f.name = some inner) : m.Fit target inner := by
  rw [Entity.nested?] at hinner
  split at hinner
  case h_1 held hs =>
    obtain rfl := Option.some.inj hinner
    exact h.held hh hf ht hs (List.mem_singleton_self _)
  case h_2 made held hs =>
    obtain rfl := Option.some.inj hinner
    exact h.held hh hf ht hs (Option.mem_toList.2 rfl)
  case h_3 made hs =>
    obtain rfl := Option.some.inj hinner
    rw [h.made hh hf ht hs rfl]
    exact fit_blank hc target
  case h_4 => cases hinner

theorem Fit.element? (h : m.Fit type e) (hc : m.catalog.Consistent) (hh : m.Honest type)
    (hf : f ∈ m.catalog.fieldsOf type) (ht : f.target = some target)
    (hinner : e.element? m.schema.blank f.name = some inner) : m.Fit target inner := by
  rw [Entity.element?] at hinner
  split at hinner
  case h_1 made held hs =>
    obtain rfl := Option.some.inj hinner
    rw [h.made hh hf ht hs rfl]
    exact fit_blank hc target
  case h_2 => cases hinner

theorem eq_of_name_eq (hc : m.catalog.Consistent) (hf : f ∈ m.catalog.fieldsOf type)
    {g : FieldDescriptor} (hg : g ∈ m.catalog.fieldsOf type) (h : g.name = f.name) : g = f :=
  List.inj_on_of_nodup_map (hc.nodup_fieldsOf type) hg hf h

theorem Fit.putNested (h : m.Fit type e) (hc : m.catalog.Consistent)
    (hf : f ∈ m.catalog.fieldsOf type) (ht : f.target = some target) (hinner : m.Fit target inner) :
    m.Fit type (e.putNested f.name inner) := by
  have hheld : ∀ g ∈ m.catalog.fieldsOf type, g.name = f.name → ∀ made, g.target = some made →
      m.Fit made inner := by
    intro g hg hname made hmade
    obtain rfl := eq_of_name_eq hc hf hg hname
    exact Option.some.inj (ht.symm.trans hmade) ▸ hinner
  rw [Entity.putNested]
  split
  case h_1 held hs =>
    refine h.assign hs (fun g hg => ?_) rfl fun g hg hname made hmade i hi => ?_
    · cases hg with | single hn ht => exact .single hn ht
    · exact List.mem_singleton.1 hi ▸ hheld g hg hname made hmade
  case h_2 made held hs =>
    refine h.assign hs (fun g hg => ?_) rfl fun g hg hname made hmade i hi => ?_
    · cases hg with | optional hn ht => exact .optional hn ht
    · exact Option.some.inj (Option.mem_toList.1 hi) ▸ hheld g hg hname made hmade
  case h_3 => exact h

theorem Fit.append (h : m.Fit type e) (hc : m.catalog.Consistent) (hh : m.Honest type)
    (hf : f ∈ m.catalog.fieldsOf type) (ht : f.target = some target) (hinner : m.Fit target inner) :
    m.Fit type (e.append f.name inner) := by
  rw [Entity.append]
  split
  case h_1 made held hs =>
    refine h.assign hs (fun g hg => ?_) rfl fun g hg hname other hother i hi => ?_
    · cases hg with | many hk ht => exact .many hk ht
    · obtain rfl := eq_of_name_eq hc hf hg hname
      rcases List.mem_append.1 hi with hi | hi
      · exact h.held hh hg hother hs hi
      · exact List.mem_singleton.1 hi ▸ Option.some.inj (ht.symm.trans hother) ▸ hinner
  case h_2 => exact h

theorem Fit.write (h : m.Fit type e) {name : String} {v : Value} {filled : Entity}
    (hw : e.write name v = .ok filled) : m.Fit type filled := by
  rw [Entity.write] at hw
  split at hw
  case h_1 t x hs =>
    split at hw
    · obtain rfl := Except.ok.inj hw
      refine h.assign hs (fun g hg => ?_) rfl fun _ _ _ _ _ _ hi => by cases hi
      cases hg with | data ht => exact .data ht
    · cases hw
  case h_2 => cases hw

theorem Fit.named (h : m.Fit type e) (hh : m.Honest type) : e.type = type := by
  cases h with
  | intro htype _ _ _ => exact htype hh

theorem Fit.exists_data (h : m.Fit type e) (hd : m.Derives type)
    (hf : f ∈ m.catalog.fieldsOf type)
    (hplain : ¬ (f.target.isSome = true ∧ (f.isNested = true ∨ f.kind = .collection))) :
    ∃ (t : DataType) (x : t.Carrier), e.slot? f.name = some (.data t x) := by
  obtain ⟨slot, hslot, hserves⟩ := h.serves hd hf
  cases hserves with
  | data => exact ⟨_, _, hslot⟩
  | single hn ht => exact absurd ⟨ht, .inl hn⟩ hplain
  | optional hn ht => exact absurd ⟨ht, .inl hn⟩ hplain
  | many hk ht => exact absurd ⟨ht, .inr hk⟩ hplain

theorem Fit.exists_nested (h : m.Fit type e) (hd : m.Derives type)
    (hf : f ∈ m.catalog.fieldsOf type) (hn : f.isNested = true) (ht : f.target = some target) :
    ∃ inner, e.nested? m.schema.blank f.name = some inner := by
  obtain ⟨slot, hslot, hserves⟩ := h.serves hd hf
  rw [Entity.nested?, hslot]
  cases hserves with
  | data hnone => simp [ht] at hnone
  | @single inner _ _ => exact ⟨inner, rfl⟩
  | @optional _ o _ _ => cases o <;> exact ⟨_, rfl⟩
  | many hk _ => exact absurd hk (f.kind_of_isNested hn)

theorem Fit.exists_element (h : m.Fit type e) (hd : m.Derives type)
    (hf : f ∈ m.catalog.fieldsOf type) (hk : f.kind = .collection) (ht : f.target = some target) :
    ∃ inner, e.element? m.schema.blank f.name = some inner := by
  obtain ⟨slot, hslot, hserves⟩ := h.serves hd hf
  rw [Entity.element?, hslot]
  cases hserves with
  | data hnone => simp [ht] at hnone
  | single hn _ => exact absurd hk (f.kind_of_isNested hn)
  | optional hn _ => exact absurd hk (f.kind_of_isNested hn)
  | many => exact ⟨_, rfl⟩

end Steps

/-- Whether a way to fill entities keeps those of a type fit to be filled, and lets no field be
unknown unless other types mislead it. -/
def Tracked (m : Mapping) (type : String) (fill : Entity → Filling) : Prop :=
  ∀ e, m.Fit type e → m.Fit type (fill e).entity ∧
    ∀ owner field, (fill e).error? = some (.unknownField owner field) → m.Misled type owner

theorem misled_self {type : String} (h : ¬ m.Derives type) : m.Misled type type :=
  ⟨type, .self, h, .inl rfl⟩

theorem Misled.of_target {type target owner : String} {f : FieldDescriptor}
    (hf : f ∈ m.catalog.fieldsOf type) (ht : f.target = some target) (h : m.Misled target owner) :
    m.Misled type owner := by
  obtain ⟨foreign, hleads, hforeign⟩ := h
  exact ⟨foreign, (Leads.of_mem_fieldsOf hf ht).trans hleads, hforeign⟩

theorem tracked_of_not_honest (hc : m.catalog.Consistent) {type : String} (h : ¬ m.Honest type)
    (fill : Entity → Filling) : m.Tracked type fill :=
  fun _ _ => ⟨fit_of_not_honest hc h _,
    fun _ _ _ => ⟨type, .self, fun hd => h (hd.honest hc), .inr h⟩⟩

theorem tracked_plain {type : String} {f : FieldDescriptor} (attributes : List Attribute)
    (hh : m.Honest type) (hf : f ∈ m.catalog.fieldsOf type)
    (hplain : ¬ (f.target.isSome = true ∧ (f.isNested = true ∨ f.kind = .collection))) :
    m.Tracked type (Entity.fillPlain type f attributes) := by
  intro e he
  rcases Entity.fillPlain_cases type f attributes e with h | ⟨v, filled, hw, h⟩ |
    ⟨v, error, hw, h⟩ | ⟨source, h⟩
  · rw [h]
    exact ⟨he, fun _ _ herror => by cases herror⟩
  · rw [h]
    exact ⟨he.write hw, fun _ _ herror => by cases herror⟩
  · rw [h]
    refine ⟨he, fun owner field herror => ?_⟩
    obtain rfl := Option.some.inj herror
    obtain ⟨rfl, hdata⟩ := Entity.write_eq_unknownField hw
    rw [he.named hh]
    refine misled_self fun hd => ?_
    obtain ⟨t, x, hx⟩ := he.exists_data hd hf hplain
    exact hdata t x hx
  · rw [h]
    exact ⟨he, fun _ _ herror => by cases herror⟩

theorem tracked_part {type target : String} {f : FieldDescriptor} {fill : Entity → Filling}
    (hf : f ∈ m.catalog.fieldsOf type) (ht : f.target = some target) (hfill : m.Tracked target fill)
    {e : Entity} {inner? : Option Entity} {put : Entity → Entity} (he : m.Fit type e)
    (hknown : m.Derives type → ∃ inner, inner? = some inner)
    (hfit : ∀ inner, inner? = some inner → m.Fit target inner)
    (hput : ∀ inner, m.Fit target inner → m.Fit type (put inner)) :
    m.Fit type (e.fillPart type f.name inner? put fill).entity ∧
      ∀ owner field, (e.fillPart type f.name inner? put fill).error? =
        some (.unknownField owner field) → m.Misled type owner := by
  cases inner? with
  | none =>
    refine ⟨he, fun owner field herror => ?_⟩
    obtain ⟨rfl, rfl⟩ := MappingError.unknownField.inj (Option.some.inj herror)
    refine misled_self fun hd => ?_
    obtain ⟨inner, hsome⟩ := hknown hd
    cases hsome
  | some inner =>
    obtain ⟨hfilled, herrors⟩ := hfill inner (hfit inner rfl)
    exact ⟨hput _ hfilled, fun owner field h => (herrors owner field h).of_target hf ht⟩

/-- No step of a filling lets a field be unknown, unless other types mislead it. -/
theorem tracked_stepwise (hc : m.catalog.Consistent) :
    m.catalog.Stepwise m.schema.blank m.Tracked := by
  constructor
  case done => exact fun e he => ⟨he, fun _ _ h => by cases h⟩
  case refuse => exact fun _ _ _ e he => ⟨he, fun _ _ h => by cases h⟩
  case andThen =>
    intro type first next hfirst hnext e he
    obtain ⟨hfit, herrors⟩ := hfirst e he
    dsimp only [Filling.andThen]
    split
    · exact hnext _ hfit
    · exact ⟨hfit, herrors⟩
  -- The entities in a type that is not honest may be of any type; what they miss is its fault.
  case plain =>
    intro metadata f attributes hm hf hplain
    by_cases hh : m.Honest metadata.type
    · exact tracked_plain attributes hh (hc.fieldsOf_type hm ▸ hf) hplain
    · exact tracked_of_not_honest hc hh _
  case nested =>
    intro metadata f target fill hm hf hn ht hfill
    by_cases hh : m.Honest metadata.type
    · have hfield : f ∈ m.catalog.fieldsOf metadata.type := hc.fieldsOf_type hm ▸ hf
      intro e he
      simp only [Entity.fillNested_eq]
      exact tracked_part hfield ht hfill he (fun hd => he.exists_nested hd hfield hn ht)
        (fun _ => he.nested? hc hh hfield ht) fun _ => he.putNested hc hfield ht
    · exact tracked_of_not_honest hc hh _
  case element =>
    intro metadata f target fill hm hf hk ht hfill
    by_cases hh : m.Honest metadata.type
    · have hfield : f ∈ m.catalog.fieldsOf metadata.type := hc.fieldsOf_type hm ▸ hf
      intro e he
      simp only [Entity.fillElement_eq]
      exact tracked_part hfield ht hfill he (fun hd => he.exists_element hd hfield hk ht)
        (fun _ => he.element? hc hh hfield ht) fun _ => he.append hc hh hfield ht
    · exact tracked_of_not_honest hc hh _

theorem misled_of_populate (hc : m.catalog.Consistent) {e : Entity} (he : m.schema.Typed e)
    {r : Record} {owner field : String}
    (h : (m.populate e r).error? = some (.unknownField owner field)) : m.Misled e.type owner := by
  rw [populate, entry] at h
  cases hx : m.catalog.entry? e.type with
  | none =>
    rw [hx] at h
    cases h
  | some x =>
    rw [hx] at h
    obtain ⟨hmem, htype⟩ := entry?_mem hx
    have htracked := (tracked_stepwise hc).fillBy hc hmem r.attributes
    rw [htype] at htracked
    exact (htracked e (fit_of_typed hc he)).2 owner field h

theorem subtypeOf_ne_unknownField {member : EntityMetadata} {r : Record} {owner field : String} :
    m.subtypeOf member r ≠ .error (.unknownField owner field) := by
  intro h
  rw [subtypeOf] at h
  split at h
  case h_1 hierarchy _ =>
    rcases hierarchy.select_cases r.attributes with ⟨_, hselect⟩ | ⟨v, _, _, hselect⟩
    · rw [hselect] at h
      cases h
    · rw [hselect] at h
      cases hy : hierarchy.subtype? v.discriminatorText <;> rw [hy] at h <;> cases h
  case h_2 => cases h

theorem toEntity_cases {type : String} {x : CatalogEntry} (hx : m.catalog.entry? type = some x)
    (r : Record) : m.toEntity type r = m.instantiate x r.attributes ∨
      ∃ error, m.toEntity type r = .error error ∧
        ∀ owner field, error ≠ .unknownField owner field := by
  have hentry : m.entry type = .ok x := by rw [entry, hx]
  cases hi : x.metadata.inheritance with
  | none => exact .inl (by simp [toEntity, hentry, hi, bind, Except.bind])
  | some i =>
    cases hsubtype : m.subtypeOf x.metadata r with
    | error e =>
      refine .inr ⟨e, by simp [toEntity, hentry, hi, hsubtype, bind, Except.bind], ?_⟩
      rintro owner field rfl
      exact subtypeOf_ne_unknownField hsubtype
    | ok y =>
      by_cases hy : y.metadata.type = x.metadata.type
      · exact .inl (by simp [toEntity, hentry, hi, hsubtype, hy, bind, Except.bind])
      · refine .inr ⟨.subtypeMismatch x.metadata.type y.metadata.type, ?_, by simp⟩
        simp [toEntity, hentry, hi, hsubtype, hy, bind, Except.bind, throw, throwThe,
          MonadExceptOf.throw]

theorem misled_of_toEntity (hc : m.catalog.Consistent) {x : CatalogEntry}
    (hx : x ∈ m.catalog.entries) {r : Record} {owner field : String}
    (h : m.toEntity x.metadata.type r = .error (.unknownField owner field)) :
    m.Misled x.metadata.type owner := by
  rcases toEntity_cases (hc.entry?_type hx) r with hnew | ⟨error, herror, hother⟩
  · rw [hnew, instantiate, Filling.result] at h
    split at h
    case h_1 => cases h
    case h_2 error herror =>
      obtain rfl := Except.error.inj h
      have htracked := (tracked_stepwise hc).fillBy hc hx r.attributes
      exact (htracked _ (fit_blank hc x.metadata.type)).2 owner field herror
  · rw [herror] at h
    exact absurd (Except.error.inj h) (hother owner field)

end Mapping
end RecordMapping
