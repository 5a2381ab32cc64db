import RecordMapping.Proofs.Conversion.Unknown
/-!
Hidden fields. They are never read: entities that differ only in what they hold there have the same
record, and are filled alike. They are never written: the parts of an entity keep what they hold
there, and parts that are added hold there what parts of new entities do.
-/
namespace RecordMapping

mutual

/-- An entity without its hidden fields and those of the entities in it. -/
def Entity.bare : Entity → Entity
  | .mk type slots _ => .mk type (bareSlots slots) []

def bareSlots : List (Named Slot) → List (Named Slot)
  | [] => []
  | ⟨name, slot⟩ :: rest => ⟨name, slot.bare⟩ :: bareSlots rest

def Slot.bare : Slot → Slot
  | .data t x => .data t x
  | .single e => .single e.bare
  | .optional target none => .optional target none
  | .optional target (some e) => .optional target (some e.bare)
  | .many target es => .many target (bareAll es)

def bareAll : List Entity → List Entity
  | [] => []
  | e :: rest => e.bare :: bareAll rest

end

theorem bareAll_eq_map (es : List Entity) : bareAll es = es.map Entity.bare := by
  induction es with
  | nil => rfl
  | cons e rest ih => rw [bareAll, ih, List.map_cons]

def Reading.bare : Reading → Reading
  | .empty => .empty
  | .value v => .value v
  | .entity e => .entity e.bare
  | .entities es => .entities (bareAll es)

def Filling.bare (r : Filling) : Filling :=
  ⟨r.entity.bare, r.error?⟩

theorem lookup_bareSlots (name : String) (slots : List (Named Slot)) :
    Named.lookup name (bareSlots slots) = (Named.lookup name slots).map Slot.bare := by
  induction slots with
  | nil => rfl
  | cons slot rest ih =>
    rw [bareSlots, Named.lookup, Named.lookup]
    by_cases h : slot.name = name <;> simp [h, ih]

theorem assign_bareSlots (name : String) (slot : Slot) (slots : List (Named Slot)) :
    Named.assign name slot.bare (bareSlots slots) = bareSlots (Named.assign name slot slots) := by
  induction slots with
  | nil => rfl
  | cons first rest ih =>
    rw [bareSlots, Named.assign, Named.assign]
    by_cases h : first.name = name <;> simp [h, ih, bareSlots]

theorem Slot.read_bare (slot : Slot) : slot.bare.read = slot.read.bare := by
  cases slot with
  | data t x =>
    rw [bare, read, Reading.ofValue]
    split <;> rfl
  | single e => rfl
  | optional target o => cases o <;> rfl
  | many target es => rfl

namespace Entity

variable (e : Entity) (name : String)

@[simp] theorem type_bare : e.bare.type = e.type := by
  cases e
  rfl

theorem slot?_bare : e.bare.slot? name = (e.slot? name).map Slot.bare := by
  cases e
  exact lookup_bareSlots name _

theorem assign_bare (slot : Slot) :
    e.bare.assign name slot.bare = (e.assign name slot).bare := by
  cases e with
  | mk type slots hidden => exact congrArg (Entity.mk type · []) (assign_bareSlots name slot slots)

theorem read_bare : e.bare.read name = (e.read name).bare := by
  rw [read, read, slot?_bare]
  cases e.slot? name with
  | none => rfl
  | some slot => exact slot.read_bare

theorem write_bare (v : Value) : e.bare.write name v = (e.write name v).map bare := by
  rw [write, write, slot?_bare, type_bare]
  cases hs : e.slot? name with
  | none => rfl
  | some slot =>
    cases slot with
    | data t x =>
      simp only [Option.map_some, Slot.bare]
      cases t.ofValue? v with
      | none => rfl
      | some y => exact congrArg Except.ok (assign_bare e name (.data t y))
    | single inner => rfl
    | optional target o => cases o <;> rfl
    | many target es => rfl

variable (blank : String → Entity)

theorem nested?_bare : e.bare.nested? (fun type => (blank type).bare) name =
    (e.nested? blank name).map bare := by
  rw [nested?, nested?, slot?_bare]
  cases e.slot? name with
  | none => rfl
  | some slot =>
    cases slot with
    | data t x => rfl
    | single inner => rfl
    | optional target o => cases o <;> rfl
    | many target es => rfl

theorem putNested_bare (inner : Entity) :
    e.bare.putNested name inner.bare = (e.putNested name inner).bare := by
  rw [putNested, putNested, slot?_bare]
  cases e.slot? name with
  | none => rfl
  | some slot =>
    cases slot with
    | data t x => rfl
    | single held => exact assign_bare e name (.single inner)
    | optional target o => cases o <;> exact assign_bare e name (.optional target (some inner))
    | many target es => rfl

theorem element?_bare : e.bare.element? (fun type => (blank type).bare) name =
    (e.element? blank name).map bare := by
  rw [element?, element?, slot?_bare]
  cases e.slot? name with
  | none => rfl
  | some slot =>
    cases slot with
    | data t x => rfl
    | single inner => rfl
    | optional target o => cases o <;> rfl
    | many target es => rfl

theorem append_bare (inner : Entity) :
    e.bare.append name inner.bare = (e.append name inner).bare := by
  rw [append, append, slot?_bare]
  cases e.slot? name with
  | none => rfl
  | some slot =>
    cases slot with
    | data t x => rfl
    | single held => rfl
    | optional target o => cases o <;> rfl
    | many target es =>
      rw [← assign_bare]
      simp [Slot.bare, bareAll_eq_map]

end Entity

namespace Catalog

variable (c : Catalog)

mutual

theorem encode_bare (e : Entity) : c.encode e.bare = c.encode e := by
  rw [encode, encode, e.type_bare]
  cases c.entry? e.type with
  | none => rfl
  | some x => simp only [encodeFields_bare e x.metadata.fields]
termination_by (sizeOf e, 1, 0)

theorem encodeFields_bare (e : Entity) (fields : List FieldDescriptor) :
    c.encodeFields e.bare fields = c.encodeFields e fields := by
  match fields with
  | [] => rw [encodeFields_nil, encodeFields_nil]
  | f :: rest =>
    have hpart : c.part f (e.read f.name).bare = c.part f (e.read f.name) := by
      cases h : e.read f.name with
      | empty => rfl
      | value v => rfl
      | entity inner =>
        have := Entity.sizeOf_lt_of_read_entity h
        rw [Reading.bare, part, part, encode_bare inner]
      | entities es =>
        have := Entity.sizeOf_lt_of_read_entities h
        rw [Reading.bare, part, part, encodeItems_bare es]
    rw [encodeFields_cons, encodeFields_cons, e.read_bare, hpart, encodeFields_bare e rest]
termination_by (sizeOf e, 0, fields.length)

theorem encodeItems_bare (es : List Entity) : c.encodeItems (bareAll es) = c.encodeItems es := by
  match es with
  | [] => rfl
  | e :: rest => rw [bareAll, encodeItems, encodeItems, encode_bare e, encodeItems_bare rest]
termination_by (sizeOf es, 0, 0)

end

end Catalog

namespace Entity

section Blind

variable {blank : String → Entity} {fill : Entity → Filling}

theorem fillPlain_bare (owner : String) (f : FieldDescriptor) (attributes : List Attribute)
    (e : Entity) : e.bare.fillPlain owner f attributes = (e.fillPlain owner f attributes).bare := by
  rw [fillPlain, fillPlain]
  cases Named.lookup f.nativeName attributes with
  | none => rfl
  | some v =>
    cases f.valueKind with
    | none =>
      simp only [Except.bind, write_bare]
      cases e.write f.name v <;> rfl
    | some kind =>
      simp only [Except.bind, Except.mapError, write_bare]
      cases v.coerce kind with
      | error source => rfl
      | ok w =>
        dsimp only
        cases e.write f.name w <;> rfl

def Blind (fill : Entity → Filling) : Prop :=
  ∀ ⦃e other : Entity⦄, e.bare = other.bare → (fill e).bare = (fill other).bare

theorem bare_fillPart {e other : Entity} {owner field : String} {inner? other? : Option Entity}
    {put put' : Entity → Entity} (h : e.bare = other.bare)
    (hinner : inner?.map bare = other?.map bare)
    (hput : ∀ a b, a.bare = b.bare → (put a).bare = (put' b).bare) (hfill : Blind fill) :
    (e.fillPart owner field inner? put fill).bare =
      (other.fillPart owner field other? put' fill).bare := by
  cases inner? with
  | none =>
    obtain rfl := Option.map_eq_none_iff.1 hinner.symm
    exact congrArg (Filling.mk · _) h
  | some inner =>
    obtain ⟨held, rfl, hbare⟩ := Option.map_eq_some_iff.1 hinner.symm
    obtain ⟨hentity, herror⟩ := Filling.mk.inj (hfill hbare.symm)
    simp only [fillPart, Filling.bare, hput _ _ hentity, herror]

theorem blind_fillNested (owner name : String) (hfill : Blind fill) :
    Blind fun e => e.fillNested blank owner name fill := by
  intro e other h
  simp only [fillNested_eq]
  refine bare_fillPart h ?_ (fun a b hab => ?_) hfill
  · rw [← nested?_bare, ← nested?_bare, h]
  · rw [← putNested_bare, ← putNested_bare, h, hab]

theorem blind_fillElement (owner name : String) (hfill : Blind fill) :
    Blind fun e => e.fillElement blank owner name fill := by
  intro e other h
  simp only [fillElement_eq]
  refine bare_fillPart h ?_ (fun a b hab => ?_) hfill
  · rw [← element?_bare, ← element?_bare, h]
  · rw [← append_bare, ← append_bare, h, hab]

theorem Blind.andThen {first next : Entity → Filling} (hfirst : Blind first) (hnext : Blind next) :
    Blind fun e => (first e).andThen next := by
  intro e other h
  obtain ⟨hentity, herror⟩ := Filling.mk.inj (hfirst h)
  dsimp only [Filling.andThen]
  rw [← herror]
  cases (first e).error? with
  | none => exact hnext hentity
  | some error => exact hfirst h

/-- Hidden fields are not read by the decoder. -/
theorem blind_stepwise (c : Catalog) : c.Stepwise blank fun _ fill => Blind fill where
  done := fun h => congrArg (Filling.mk · none) h
  refuse := fun _ _ _ _ _ h => congrArg (Filling.mk · _) h
  andThen := Blind.andThen
  plain := fun attributes _ _ _ _ _ h => by rw [← fillPlain_bare, ← fillPlain_bare, h]
  nested := fun _ _ _ _ hfill => blind_fillNested _ _ hfill
  element := fun _ _ _ _ hfill => blind_fillElement _ _ hfill

end Blind

def part? : List (String × Nat) → Entity → Option Entity
  | [], e => some e
  | (name, i) :: rest, e => ((e.slot? name).bind (·.entities[i]?)).bind (part? rest)

/-- Whether hidden fields hold what they held: those of the parts of an entity what they held
before, and those of other parts what they hold in a new entity. -/
structure Keeps (blank : String → Entity) (e filled : Entity) : Prop where
  kept : ∀ path part, e.part? path = some part →
    ∃ later, filled.part? path = some later ∧ later.hidden = part.hidden
  made : ∀ path later, filled.part? path = some later → e.part? path = none →
    ∃ type inside part, (blank type).part? inside = some part ∧ later.hidden = part.hidden

section Keeps

theorem hidden_assign {e : Entity} {name : String} (slot : Slot) :
    (e.assign name slot).hidden = e.hidden := by
  cases e
  rfl

variable {blank : String → Entity} {e filled last : Entity} {name : String}

theorem Keeps.refl (blank : String → Entity) (e : Entity) : e.Keeps blank e :=
  ⟨fun _ part h => ⟨part, h, rfl⟩, fun _ _ h hnone => by simp [h] at hnone⟩

theorem Keeps.trans (h : e.Keeps blank filled) (h' : filled.Keeps blank last) :
    e.Keeps blank last := by
  constructor
  · intro path part hpart
    obtain ⟨later, hlater, hhidden⟩ := h.kept path part hpart
    obtain ⟨final, hfinal, hsame⟩ := h'.kept path later hlater
    exact ⟨final, hfinal, hsame.trans hhidden⟩
  · intro path final hfinal hnone
    cases hlater : filled.part? path with
    | none => exact h'.made path final hfinal hlater
    | some later =>
      obtain ⟨type, inside, part, hpart, hhidden⟩ := h.made path later hlater hnone
      obtain ⟨other, hother, hsame⟩ := h'.kept path later hlater
      obtain rfl := Option.some.inj (hfinal.symm.trans hother)
      exact ⟨type, inside, part, hpart, hsame.trans hhidden⟩

theorem Keeps.of_blank {type : String} (h : (blank type).Keeps blank filled)
    {path : List (String × Nat)} {later : Entity} (hlater : filled.part? path = some later) :
    ∃ type inside part, (blank type).part? inside = some part ∧ later.hidden = part.hidden := by
  cases hpart : (blank type).part? path with
  | none => exact h.made path later hlater hpart
  | some part =>
    obtain ⟨other, hother, hsame⟩ := h.kept path part hpart
    obtain rfl := Option.some.inj (hlater.symm.trans hother)
    exact ⟨type, path, part, hpart, hsame⟩

theorem part?_cons {i : Nat} {rest : List (String × Nat)} {slot : Slot}
    (h : e.slot? name = some slot) :
    e.part? ((name, i) :: rest) = slot.entities[i]?.bind (part? rest) := by
  rw [part?, h]
  rfl

theorem keeps_assign {old new : Slot} (hold : e.slot? name = some old)
    (hkept : ∀ (i : Nat) inner, old.entities[i]? = some inner →
      ∃ later, new.entities[i]? = some later ∧ inner.Keeps blank later)
    (hmade : ∀ (i : Nat) later, new.entities[i]? = some later → old.entities[i]? = none →
      ∃ type, (blank type).Keeps blank later) : e.Keeps blank (e.assign name new) := by
  have hself : (e.assign name new).slot? name = some new := slot?_assign_self hold new
  have hother : ∀ other, other ≠ name → ∀ i rest,
      (e.assign name new).part? ((other, i) :: rest) = e.part? ((other, i) :: rest) := by
    intro other hne i rest
    rw [part?, part?, slot?_assign_of_ne hne new]
  constructor
  · intro path part hpart
    match path with
    | [] =>
      obtain rfl := Option.some.inj hpart
      exact ⟨_, rfl, hidden_assign new⟩
    | (other, i) :: rest =>
      by_cases hname : other = name
      · subst hname
        rw [part?_cons hold] at hpart
        obtain ⟨inner, hinner, hrest⟩ := Option.bind_eq_some_iff.1 hpart
        obtain ⟨later, hlater, hkeeps⟩ := hkept i inner hinner
        rw [part?_cons hself, hlater]
        exact hkeeps.kept rest part hrest
      · exact ⟨part, (hother other hname i rest).trans hpart, rfl⟩
  · intro path later hlater hnone
    match path with
    | [] => cases hnone
    | (other, i) :: rest =>
      by_cases hname : other = name
      · subst hname
        rw [part?_cons hold] at hnone
        rw [part?_cons hself] at hlater
        obtain ⟨inner, hinner, hrest⟩ := Option.bind_eq_some_iff.1 hlater
        -- The part is in an entity that was added, or was added to one that was there before.
        cases hbefore : old.entities[i]? with
        | none =>
          obtain ⟨type, hkeeps⟩ := hmade i inner hinner hbefore
          exact hkeeps.of_blank hrest
        | some before =>
          obtain ⟨same, hsame, hkeeps⟩ := hkept i before hbefore
          obtain rfl := Option.some.inj (hinner.symm.trans hsame)
          rw [hbefore] at hnone
          exact hkeeps.made rest later hrest hnone
      · rw [hother other hname, hnone] at hlater
        cases hlater

theorem keeps_replace {old new : Slot} {inner later : Entity} (hold : e.slot? name = some old)
    (hbefore : old.entities = [inner]) (hafter : new.entities = [later])
    (h : inner.Keeps blank later) : e.Keeps blank (e.assign name new) := by
  refine keeps_assign hold (fun i held hheld => ?_) fun i other hother hnone => ?_
  · rw [hbefore, List.getElem?_singleton] at hheld
    rw [hafter, List.getElem?_singleton]
    split at hheld
    · next hi =>
      obtain rfl := Option.some.inj hheld
      exact ⟨later, if_pos hi, h⟩
    · cases hheld
  · rw [hbefore, List.getElem?_singleton] at hnone
    rw [hafter, List.getElem?_singleton] at hother
    split at hnone
    · cases hnone
    · next hi =>
      rw [if_neg hi] at hother
      cases hother

theorem keeps_add {old new : Slot} {type : String} {later : Entity}
    (hold : e.slot? name = some old) (hafter : new.entities = old.entities ++ [later])
    (h : (blank type).Keeps blank later) : e.Keeps blank (e.assign name new) := by
  refine keeps_assign hold (fun i held hheld => ?_) fun i other hother hnone => ?_
  · obtain ⟨hi, _⟩ := List.getElem?_eq_some_iff.1 hheld
    rw [hafter, List.getElem?_append_left hi]
    exact ⟨held, hheld, .refl blank held⟩
  · rw [hafter, List.getElem?_append_right (List.getElem?_eq_none_iff.1 hnone),
      List.getElem?_singleton] at hother
    split at hother
    · obtain rfl := Option.some.inj hother
      exact ⟨type, h⟩
    · cases hother

theorem keeps_write {v : Value} (h : e.write name v = .ok filled) : e.Keeps blank filled := by
  rw [write] at h
  split at h
  case h_1 t x hs =>
    split at h
    · obtain rfl := Except.ok.inj h
      exact keeps_assign hs (fun i _ h => by simp [Slot.entities] at h)
        (fun i _ h => by simp [Slot.entities] at h)
    · cases h
  case h_2 => cases h

variable {fill : Entity → Filling}

theorem keeps_fillNested (owner : String)
    (hfill : ∀ inner : Entity, inner.Keeps blank (fill inner).entity) (e : Entity) :
    e.Keeps blank (e.fillNested blank owner name fill).entity := by
  cases hs : e.slot? name with
  | none =>
    simp only [fillNested, nested?, hs]
    exact .refl blank e
  | some slot =>
    cases slot with
    | data t x =>
      simp only [fillNested, nested?, hs]
      exact .refl blank e
    | single inner =>
      simp only [fillNested, nested?, putNested, hs]
      exact keeps_replace hs rfl rfl (hfill inner)
    | optional target o =>
      cases o with
      | none =>
        simp only [fillNested, nested?, putNested, hs]
        exact keeps_add hs rfl (hfill (blank target))
      | some inner =>
        simp only [fillNested, nested?, putNested, hs]
        exact keeps_replace hs rfl rfl (hfill inner)
    | many target es =>
      simp only [fillNested, nested?, hs]
      exact .refl blank e

theorem keeps_fillElement (owner : String)
    (hfill : ∀ inner : Entity, inner.Keeps blank (fill inner).entity) (e : Entity) :
    e.Keeps blank (e.fillElement blank owner name fill).entity := by
  rw [fillElement, element?]
  split
  case h_1 => exact .refl blank e
  case h_2 inner hinner =>
    split at hinner
    case h_1 target es hs =>
      obtain rfl := Option.some.inj hinner
      simp only [append, hs]
      exact keeps_add hs rfl (hfill (blank target))
    case h_2 => cases hinner

/-- Hidden fields are not written by the decoder. -/
theorem keeps_stepwise (c : Catalog) (blank : String → Entity) :
    c.Stepwise blank fun _ fill => ∀ e : Entity, e.Keeps blank (fill e).entity where
  done := fun e => .refl blank e
  refuse := fun _ _ _ e => .refl blank e
  andThen := fun {_ first next} hfirst hnext e => by
    dsimp only [Filling.andThen]
    cases (first e).error? with
    | none => exact (hfirst e).trans (hnext _)
    | some error => exact hfirst e
  plain := fun {metadata f} attributes _ _ _ e => by
    rcases fillPlain_cases metadata.type f attributes e with h | ⟨v, filled, hw, h⟩ |
      ⟨v, error, _, h⟩ | ⟨source, h⟩
    · rw [h]
      exact .refl blank e
    · rw [h]
      exact keeps_write hw
    · rw [h]
      exact .refl blank e
    · rw [h]
      exact .refl blank e
  nested := fun {metadata _ _ _} _ _ _ _ hfill => keeps_fillNested metadata.type hfill
  element := fun {metadata _ _ _} _ _ _ _ hfill => keeps_fillElement metadata.type hfill

end Keeps

end Entity

namespace Mapping

variable {m : Mapping}

theorem toRecord_eq_of_bare {e other : Entity} (h : e.bare = other.bare) :
    m.toRecord e = m.toRecord other := by
  have htype : e.type = other.type := by rw [← e.type_bare, h, other.type_bare]
  have hencode : m.catalog.encode e = m.catalog.encode other := by
    rw [← m.catalog.encode_bare e, h, m.catalog.encode_bare other]
  rw [toRecord, toRecord, htype, hencode]

theorem populate_eq_of_bare (hc : m.catalog.Consistent) {e other : Entity}
    (h : e.bare = other.bare) (r : Record) : (m.populate e r).bare = (m.populate other r).bare := by
  have htype : e.type = other.type := by rw [← e.type_bare, h, other.type_bare]
  rw [populate, populate, entry, entry, htype]
  cases hx : m.catalog.entry? other.type with
  | none => exact congrArg (Filling.mk · _) h
  | some x =>
    have hmem := (Catalog.entry?_mem hx).1
    exact (Entity.blind_stepwise m.catalog).fillBy hc hmem r.attributes h

theorem keeps_populate (hc : m.catalog.Consistent) (e : Entity) (r : Record) :
    e.Keeps m.schema.blank (m.populate e r).entity := by
  rw [populate, entry]
  cases hx : m.catalog.entry? e.type with
  | none => exact .refl m.schema.blank e
  | some x =>
    have hmem := (Catalog.entry?_mem hx).1
    exact (Entity.keeps_stepwise m.catalog m.schema.blank).fillBy hc hmem r.attributes e

theorem keeps_toEntity (hc : m.catalog.Consistent) {x : CatalogEntry} (hx : x ∈ m.catalog.entries)
    {r : Record} {e : Entity} (h : m.toEntity x.metadata.type r = .ok e) :
    (m.schema.blank x.metadata.type).Keeps m.schema.blank e := by
  rcases toEntity_cases (hc.entry?_type hx) r with hnew | ⟨error, herror, _⟩
  · rw [hnew, instantiate, Filling.result] at h
    split at h
    · obtain rfl := Except.ok.inj h
      exact (Entity.keeps_stepwise m.catalog m.schema.blank).fillBy hc hx r.attributes _
    · cases h
  · rw [herror] at h
    cases h

end Mapping
end RecordMapping
