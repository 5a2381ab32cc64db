import Mathlib
import RecordMapping.Proofs.Catalog.Expansion
import RecordMapping.Proofs.Catalog.Search
import RecordMapping.Proofs.Conversion.Stepwise
/-!
How deep filling goes. Here it is a matter of calls that follow the fields of the types and know no
layouts. A flattened field hands on the very attributes of its owner, so what bounds the calls is
the catalog: there are at most as many inside each other as there are types, and as many again for
each record inside a record. They fill what the layouts fill.
-/
namespace RecordMapping

namespace Value

mutual

def nesting : Value → Nat
  | .list items => nestingOfItems items
  | .record attributes => nestingOfAttributes attributes + 1
  | _ => 0

def nestingOfItems : List Value → Nat
  | [] => 0
  | v :: rest => max (nesting v) (nestingOfItems rest)

def nestingOfAttributes : List (Named Value) → Nat
  | [] => 0
  | ⟨_, v⟩ :: rest => max (nesting v) (nestingOfAttributes rest)

end

theorem nesting_le_of_lookup {name : String} {v : Value} {attributes : List Attribute}
    (h : Named.lookup name attributes = some v) : v.nesting ≤ nestingOfAttributes attributes := by
  induction attributes with
  | nil => cases h
  | cons a rest ih =>
    rw [Named.lookup] at h
    rw [nestingOfAttributes]
    split at h
    · obtain rfl := Option.some.inj h
      exact Nat.le_max_left _ _
    · exact Nat.le_trans (ih h) (Nat.le_max_right _ _)

end Value

def Filling.thenTo (r : Filling) (next : Entity → Option Filling) : Option Filling :=
  match r.error? with
  | none => next r.entity
  | some _ => some r

theorem Filling.thenTo_eq {r : Filling} {next : Entity → Option Filling} {f : Entity → Filling}
    (h : ∀ e, next e = some (f e)) : r.thenTo next = some (r.andThen f) := by
  rw [thenTo, andThen]
  cases r.error? with
  | none => exact h r.entity
  | some error => rfl

def Entity.fillPartTo (owner field : String) (e : Entity) (inner? : Option Entity)
    (put : Entity → Entity) (fill : Entity → Option Filling) : Option Filling :=
  match inner? with
  | none => some (.fail e (.unknownField owner field))
  | some inner => (fill inner).map fun r => ⟨put r.entity, r.error?⟩

theorem Entity.fillPartTo_eq {owner field : String} {e : Entity} {inner? : Option Entity}
    {put : Entity → Entity} {fill : Entity → Option Filling} {f : Entity → Filling}
    (h : ∀ inner, fill inner = some (f inner)) :
    e.fillPartTo owner field inner? put fill = some (e.fillPart owner field inner? put f) := by
  cases inner? with
  | none => rfl
  | some inner => simp only [fillPartTo, fillPart, h, Option.map_some]

namespace Catalog

open LayoutItem EntityMetadata Value

section Calls

variable (c : Catalog)

def target? (f : FieldDescriptor) : Option EntityMetadata :=
  f.target.bind fun t => c.types.find? (·.type == t)

def presentFields (attributes : List Attribute) (deeper : EntityMetadata → Option Bool) :
    List FieldDescriptor → Option Bool
  | [] => some false
  | f :: rest =>
    if f.isFlattened then
      match c.target? f with
      | none => presentFields attributes deeper rest
      | some m =>
        match deeper m with
        | some false => presentFields attributes deeper rest
        | found => found
    else if isPresent attributes f.nativeName then some true
    else presentFields attributes deeper rest

/-- Whether any attribute of a type is present, asked in at most the given number of calls inside
each other; without an answer if they are too few. -/
def presentTo (attributes : List Attribute) : Nat → EntityMetadata → Option Bool
  | 0, _ => none
  | depth + 1, m => c.presentFields attributes (presentTo attributes depth) m.fields

variable (blank : String → Entity)

def fillElementsTo (owner field : String) (deeper : List Attribute → Entity → Option Filling) :
    List Value → Entity → Option Filling
  | [], e => some (.done e)
  | .record inner :: rest, e =>
    (e.fillPartTo owner field (e.element? blank field) (e.append field) (deeper inner)).bind
      (·.thenTo (fillElementsTo owner field deeper rest))
  | _ :: _, e => some (.fail e (.unexpectedValue owner field .record))

/-- Fills one field of an entity of type `m`; `present` asks whether a flattened type is there, and
`deeper` fills the entities of other types. -/
def fillField (m : EntityMetadata) (attributes : List Attribute)
    (present : EntityMetadata → Option Bool)
    (deeper : EntityMetadata → List Attribute → Entity → Option Filling) (f : FieldDescriptor)
    (e : Entity) : Option Filling :=
  if f.isFlattened ∧ f.target.isSome then
    match c.target? f with
    | none => some (.fail e (.unknownEntity (m.type ++ "::" ++ f.name)))
    | some t => (present t).bind fun
      | true => e.fillPartTo m.type f.name (e.nested? blank f.name) (e.putNested f.name)
          (deeper t attributes)
      | false => some (.done e)
  else
    match f.kind, f.target with
    | .embedded, some _ | .entity, some _ =>
      match Named.lookup f.nativeName attributes with
      | none | some .null => some (.done e)
      | some v =>
        match c.target? f, v with
        | none, _ => some (.fail e (.unknownEntity (m.type ++ "::" ++ f.name)))
        | some t, .record inner =>
          e.fillPartTo m.type f.name (e.nested? blank f.name) (e.putNested f.name)
            (deeper t inner)
        | some _, _ => some (.fail e (.unexpectedValue m.type f.name .record))
    | .collection, some _ =>
      match Named.lookup f.nativeName attributes with
      | none | some .null => some (.done e)
      | some v =>
        match c.target? f, v with
        | none, _ => some (.fail e (.unknownEntity (m.type ++ "::" ++ f.name)))
        | some t, .list values => fillElementsTo blank m.type f.name (deeper t) values e
        | some _, _ => some (.fail e (.unexpectedValue m.type f.name .list))
    | _, _ => some (e.fillPlain m.type f attributes)

def fillFields (m : EntityMetadata) (attributes : List Attribute)
    (present : EntityMetadata → Option Bool)
    (deeper : EntityMetadata → List Attribute → Entity → Option Filling) :
    List FieldDescriptor → Entity → Option Filling
  | [], e => some (.done e)
  | f :: rest, e =>
    (c.fillField blank m attributes present deeper f e).bind
      (·.thenTo (fillFields m attributes present deeper rest))

/-- Fills an entity of a type in at most the given number of calls inside each other; without an
answer if they are too few. -/
def fillTo : Nat → EntityMetadata → List Attribute → Entity → Option Filling
  | 0, _, _, _ => none
  | depth + 1, m, attributes, e =>
    c.fillFields blank m attributes (c.presentTo attributes depth) (fillTo depth) m.fields e

end Calls

variable {c : Catalog}

theorem target?_eq {f : FieldDescriptor} {target : String} {x : CatalogEntry}
    (ht : f.target = some target) (hx : c.entry? target = some x) :
    c.target? f = some x.metadata := by
  rw [target?, ht, Option.bind_some]
  exact find?_types_iff.2 ⟨x, hx, rfl⟩

section Presence

variable {attributes : List Attribute} {depth : Nat}

theorem presentFields_eq (hc : c.Consistent) {deeper : EntityMetadata → Option Bool}
    (hdeeper : ∀ y ∈ c.entries, heightOfAll y.items < depth →
      deeper y.metadata = some ((LayoutItem.allNames y.items).any (isPresent attributes)))
    (items : List LayoutItem) {fields : List FieldDescriptor}
    (hd : DescribesAll c.types items fields) (hheight : heightOfAll items ≤ depth) :
    c.presentFields attributes deeper fields =
      some ((LayoutItem.allNames items).any (isPresent attributes)) := by
  induction items generalizing fields with
  | nil =>
    cases fields with
    | nil => rfl
    | cons => exact hd.elim
  | cons item rest ih =>
    cases fields with
    | nil => exact hd.elim
    | cons f fields =>
      rw [heightOfAll, Nat.max_le] at hheight
      have hrest := ih hd.2 hheight.2
      rw [presentFields, LayoutItem.allNames, List.any_append]
      cases item with
      | stored g =>
        obtain ⟨rfl, hflat⟩ := hd.1
        cases hp : isPresent attributes g.nativeName <;> simp [hflat, hp, hrest, names]
      | detached g =>
        obtain ⟨rfl, hflat, hnone⟩ := hd.1
        have htarget : c.target? g = none := hnone
        simp [hflat, htarget, hrest, names]
      | group g t items =>
        -- The layout in the place of the field is an entry's own, so that its type can be asked.
        obtain ⟨y, hy, rfl, rfl⟩ := hc.exists_entry_of_group hd.1
        obtain ⟨rfl, hflat, ht, _⟩ := hd.1
        have htarget : c.target? g = some y.metadata := ht
        have hinner := hdeeper y hy (by simpa [height, Nat.succ_le_iff] using hheight.1)
        simp only [hflat, htarget, hinner, if_true, names]
        cases (LayoutItem.allNames y.items).any (isPresent attributes) <;> simp [hrest]

theorem presentTo_eq (hc : c.Consistent) {x : CatalogEntry} (hx : x ∈ c.entries)
    (hheight : heightOfAll x.items < depth) :
    c.presentTo attributes depth x.metadata =
      some ((LayoutItem.allNames x.items).any (isPresent attributes)) := by
  induction depth generalizing x with
  | zero => cases hheight
  | succ depth ih =>
    exact presentFields_eq hc (fun y hy => ih hy) x.items (hc.described x hx)
      (Nat.lt_succ_iff.1 hheight)

end Presence

section Filling

variable {blank : String → Entity}

theorem fillElementsTo_eq {owner field : String} {x : CatalogEntry}
    {deeper : List Attribute → Entity → Option Filling} (values : List Value)
    (hdeeper : ∀ inner e, nestingOfAttributes inner < nestingOfItems values →
      deeper inner e = some (c.fillBy blank x inner e)) (e : Entity) :
    fillElementsTo blank owner field deeper values e =
      some (c.fillElements blank owner field x values e) := by
  induction values generalizing e with
  | nil => simp [fillElementsTo, fillElements]
  | cons v rest ih =>
    cases v with
    | record inner =>
      rw [fillElementsTo, fillElements, Entity.fillElement_eq,
        Entity.fillPartTo_eq fun e => hdeeper inner e ?_, Option.bind_some]
      · refine Filling.thenTo_eq fun e => ih (fun inner e hless => hdeeper inner e ?_) e
        exact Nat.lt_of_lt_of_le hless (Nat.le_max_right _ _)
      · rw [nestingOfItems, nesting]
        exact Nat.le_max_left _ _
    | _ => simp [fillElementsTo, fillElements]

section Field

variable {m : EntityMetadata} {attributes : List Attribute}
  {present : EntityMetadata → Option Bool}
  {deeper : EntityMetadata → List Attribute → Entity → Option Filling} {f : FieldDescriptor}

theorem fillField_value (hf : f.IsValue) (e : Entity) :
    c.fillField blank m attributes present deeper f e =
      some (e.fillPlain m.type f attributes) := by
  rw [fillField, if_neg hf.not_flattened]
  cases hkind : f.kind <;> cases ht : f.target <;>
    simp_all [FieldDescriptor.IsValue, FieldDescriptor.isNested]

theorem fillField_null (hflat : f.isFlattened = false) (hf : ¬ f.IsValue)
    (h : Named.lookup f.nativeName attributes = some .null) (e : Entity) :
    c.fillField blank m attributes present deeper f e = some (.done e) := by
  obtain ⟨hsome, hk⟩ := not_not.1 hf
  obtain ⟨target, ht⟩ := Option.isSome_iff_exists.1 hsome
  simp only [FieldDescriptor.isNested, Bool.or_eq_true, beq_iff_eq] at hk
  rw [fillField, if_neg (by simp [hflat])]
  rcases hk with (hk | hk) | hk <;> simp only [hk, ht, h]

theorem fillField_absent (hflat : f.isFlattened = false)
    (h : Named.lookup f.nativeName attributes = none) (e : Entity) :
    c.fillField blank m attributes present deeper f e = some (.done e) := by
  rw [fillField, if_neg (by simp [hflat])]
  cases f.kind <;> cases f.target <;> simp [h, Entity.fillPlain_absent h]

theorem fillField_of_isNested (hflat : f.isFlattened = false) (hn : f.isNested = true)
    {target : String} (ht : f.target = some target) {x : CatalogEntry}
    (hx : c.entry? target = some x) {v : Value}
    (h : Named.lookup f.nativeName attributes = some v) (hv : v ≠ .null) (e : Entity) :
    c.fillField blank m attributes present deeper f e =
      match v with
      | .record inner =>
        e.fillPartTo m.type f.name (e.nested? blank f.name) (e.putNested f.name)
          (deeper x.metadata inner)
      | _ => some (.fail e (.unexpectedValue m.type f.name .record)) := by
  simp only [FieldDescriptor.isNested, Bool.or_eq_true, beq_iff_eq] at hn
  rw [fillField, if_neg (by simp [hflat])]
  rcases hn with hk | hk <;> simp only [hk, ht, h, target?_eq ht hx] <;> cases v <;> rfl

theorem fillField_of_collection (hflat : f.isFlattened = false) (hk : f.kind = .collection)
    {target : String} (ht : f.target = some target) {x : CatalogEntry}
    (hx : c.entry? target = some x) {v : Value}
    (h : Named.lookup f.nativeName attributes = some v) (hv : v ≠ .null) (e : Entity) :
    c.fillField blank m attributes present deeper f e =
      match v with
      | .list values => fillElementsTo blank m.type f.name (deeper x.metadata) values e
      | _ => some (.fail e (.unexpectedValue m.type f.name .list)) := by
  rw [fillField, if_neg (by simp [hflat])]
  simp only [hk, ht, h, target?_eq ht hx]
  cases v <;> rfl

end Field

section Fields

variable {depth : Nat}
  (hheights : ∀ y ∈ c.entries, heightOfAll y.items < c.entries.length)
  (hdeeper : ∀ y ∈ c.entries, ∀ inner e,
    heightOfAll y.items + nestingOfAttributes inner * c.entries.length < depth →
      c.fillTo blank depth y.metadata inner e = some (c.fillBy blank y inner e))
include hheights hdeeper

/-- A record inside the attributes leaves as many calls as any layout takes. -/
theorem fillTo_of_nesting_lt {attributes inner : List Attribute}
    (hdepth : nestingOfAttributes attributes * c.entries.length ≤ depth)
    (hless : nestingOfAttributes inner < nestingOfAttributes attributes) {y : CatalogEntry}
    (hy : y ∈ c.entries) (e : Entity) :
    c.fillTo blank depth y.metadata inner e = some (c.fillBy blank y inner e) := by
  refine hdeeper y hy inner e ?_
  have hroom := Nat.mul_le_mul_right c.entries.length (Nat.succ_le_of_lt hless)
  rw [Nat.succ_mul] at hroom
  have := hheights y hy
  omega

theorem fillField_stored (hc : c.Consistent) {m : EntityMetadata} (hm : m ∈ c.types)
    {attributes : List Attribute}
    (hdepth : nestingOfAttributes attributes * c.entries.length ≤ depth) {f : FieldDescriptor}
    (hf : f ∈ m.fields) (hflat : f.isFlattened = false) (e : Entity) :
    c.fillField blank m attributes (c.presentTo attributes depth) (c.fillTo blank depth) f e =
      some (c.fillItem blank m.type attributes (.stored f) e) := by
  cases f.filledFrom attributes with
  | value hvalue => rw [fillField_value hvalue, fillItem_value hvalue]
  | absent hv => rw [fillField_absent hflat hv, fillItem_absent hv]
  | null hentity hv => rw [fillField_null hflat hentity hv, fillItem_null hentity hv]
  | @nested target v hn ht hv hnull =>
    -- A record found here is one deeper than those that the call may still meet.
    have hnesting := nesting_le_of_lookup hv
    obtain ⟨x, hx⟩ := hc.target hm hf ht
    have hmem := (entry?_mem hx).1
    rw [fillField_of_isNested hflat hn ht hx hv hnull, fillItem_of_isNested hn ht hv hnull, hx]
    cases v with
    | record inner =>
      rw [nesting] at hnesting
      simp only [Entity.fillNested_eq]
      exact Entity.fillPartTo_eq fun e =>
        fillTo_of_nesting_lt hheights hdeeper hdepth hnesting hmem e
    | _ => rfl
  | @collection target v hk ht hv hnull =>
    have hnesting := nesting_le_of_lookup hv
    obtain ⟨x, hx⟩ := hc.target hm hf ht
    have hmem := (entry?_mem hx).1
    rw [fillField_of_collection hflat hk ht hx hv hnull,
      fillItem_of_collection hk ht hv hnull, hx]
    cases v with
    | list values =>
      rw [nesting] at hnesting
      exact fillElementsTo_eq values (fun inner e hless => fillTo_of_nesting_lt hheights
        hdeeper hdepth (Nat.lt_of_lt_of_le hless hnesting) hmem e) e
    | _ => rfl

theorem fillField_eq (hc : c.Consistent) {m : EntityMetadata} (hm : m ∈ c.types)
    {attributes : List Attribute} {item : LayoutItem}
    (hdepth : item.height + nestingOfAttributes attributes * c.entries.length ≤ depth)
    {f : FieldDescriptor} (hf : f ∈ m.fields) (hd : item.Describes c.types f) (e : Entity) :
    c.fillField blank m attributes (c.presentTo attributes depth) (c.fillTo blank depth) f e =
      some (c.fillItem blank m.type attributes item e) := by
  match item with
  | .stored g =>
    obtain ⟨rfl, hflat⟩ := hd
    exact fillField_stored hheights hdeeper hc hm (by simpa [height] using hdepth) hf hflat e
  | .detached g =>
    obtain ⟨rfl, _, hnone⟩ := hd
    have hvalue := FieldDescriptor.isValue_of_target (Stepwise.target_of_detached hc hm hf hnone)
    rw [fillField_value hvalue, fillItem]
  | .group g t items =>
    obtain ⟨y, hy, rfl, rfl⟩ := hc.exists_entry_of_group hd
    obtain ⟨rfl, hflat, ht, _⟩ := hd
    obtain ⟨t, hsome, _⟩ := Option.bind_eq_some_iff.1 ht
    have htarget : c.target? g = some y.metadata := ht
    rw [height] at hdepth
    have hpresent : c.presentTo attributes depth y.metadata =
        some ((LayoutItem.allNames y.items).any (isPresent attributes)) :=
      presentTo_eq hc hy (by omega)
    rw [fillField, if_pos ⟨hflat, by simp [hsome]⟩, htarget]
    simp only [hpresent, Option.bind_some]
    cases hany : (LayoutItem.allNames y.items).any (isPresent attributes) with
    | false => rw [fillItem_group_absent hany]
    | true =>
      rw [fillItem_group hany, Entity.fillNested_eq]
      exact Entity.fillPartTo_eq fun inner => hdeeper y hy attributes inner (by omega)

theorem fillFields_eq (hc : c.Consistent) {m : EntityMetadata} (hm : m ∈ c.types)
    {attributes : List Attribute} (items : List LayoutItem)
    (hdepth : heightOfAll items + nestingOfAttributes attributes * c.entries.length ≤ depth)
    {fields : List FieldDescriptor} (hfields : ∀ f ∈ fields, f ∈ m.fields)
    (hd : DescribesAll c.types items fields) (e : Entity) :
    c.fillFields blank m attributes (c.presentTo attributes depth) (c.fillTo blank depth) fields e =
      some (c.fill blank m.type attributes items e) := by
  induction items generalizing fields e with
  | nil =>
    cases fields with
    | nil => rw [fillFields, fill_nil]
    | cons => exact hd.elim
  | cons item rest ih =>
    cases fields with
    | nil => exact hd.elim
    | cons f fields =>
      rw [heightOfAll] at hdepth
      rw [fillFields, fill, fillField_eq hheights hdeeper hc hm (by omega)
        (hfields f List.mem_cons_self) hd.1, Option.bind_some]
      exact Filling.thenTo_eq fun e =>
        ih (by omega) (fun g hg => hfields g (List.mem_cons_of_mem f hg)) hd.2 e

end Fields

theorem fillTo_eq (hc : c.Consistent)
    (hheights : ∀ y ∈ c.entries, heightOfAll y.items < c.entries.length) {depth : Nat}
    {x : CatalogEntry} (hx : x ∈ c.entries) {attributes : List Attribute}
    (hdepth : heightOfAll x.items + nestingOfAttributes attributes * c.entries.length < depth)
    (e : Entity) :
    c.fillTo blank depth x.metadata attributes e = some (c.fillBy blank x attributes e) := by
  induction depth generalizing x attributes e with
  | zero => cases hdepth
  | succ depth ih =>
    exact fillFields_eq hheights (fun y hy inner e h => ih hy h e) hc (mem_types hx) x.items
      (Nat.lt_succ_iff.1 hdepth) (fun _ hf => hf) (hc.described x hx) e

end Filling

/-- Filling an entity ends, whatever types it is made of and whatever the attributes hold, and so
does asking whether anything of a type is present: the number of calls inside each other is bounded
by the types and the records inside records. The search for layouts ends for all types that are
registered, whether or not the catalog is accepted. -/
theorem conversion_ends (settings : Settings) (given : List EntityMetadata) :
    (∀ types, register settings.embedded [] given = .ok types → ∀ m ∈ types,
      ∀ depth ≥ types.length,
        collectTo types m.type depth [m.type] m (discriminatorNames m) =
          some ((entryOf types m).map fun x =>
            discriminatorNames m ++ LayoutItem.allNames x.items)) ∧
    ∀ c, build settings given = .ok c → ∀ x ∈ c.entries, ∀ attributes,
      (∀ depth ≥ c.entries.length, c.presentTo attributes depth x.metadata =
        some ((LayoutItem.allNames x.items).any (isPresent attributes))) ∧
      ∀ blank e, ∀ depth ≥ (nestingOfAttributes attributes + 1) * c.entries.length,
        c.fillTo blank depth x.metadata attributes e = some (c.fillBy blank x attributes e) := by
  refine ⟨fun types htypes m hm depth hdepth =>
    collectTo_eq (nodup_of_register htypes) hm hdepth, fun c hbuild x hx attributes => ?_⟩
  have hc := (build_spec hbuild).2.2
  have hheights : ∀ y ∈ c.entries, heightOfAll y.items < c.entries.length :=
    fun y hy => heightOfAll_lt_of_build hbuild hy
  refine ⟨fun depth hdepth => ?_, fun blank e depth hdepth => ?_⟩
  · exact presentTo_eq hc hx (Nat.lt_of_lt_of_le (hheights x hx) hdepth)
  · refine fillTo_eq hc hheights hx (Nat.lt_of_lt_of_le ?_ hdepth) e
    rw [Nat.succ_mul, Nat.add_comm]
    exact Nat.add_lt_add_left (hheights x hx) _

def heightField : FieldDescriptor := .plain "height"

def placeField : FieldDescriptor :=
  { FieldDescriptor.embedded "place" "Place" with declaredPolicy := some .flattened }

def placeType : EntityMetadata :=
  ⟨"places", "Place", [heightField], none⟩

def branchType : EntityMetadata :=
  ⟨"branches", "Branch",
    [.plain "name", placeField, .entity "trunk" "Branch", .entityCollection "twigs" "Branch"], none⟩

def branches : Catalog :=
  ⟨Settings.standard, [
    ⟨branchType, [.stored (.plain "name"), .group placeField placeType [.stored heightField],
      .stored (.entity "trunk" "Branch"), .stored (.entityCollection "twigs" "Branch")]⟩,
    ⟨placeType, [.stored heightField]⟩]⟩

def branchAttributes : List Attribute :=
  [⟨"height", .uint 3⟩, ⟨"twigs", .list [.record [⟨"name", .text "a"⟩,
    ⟨"twigs", .list [.record [⟨"height", .null⟩]]⟩]]⟩]

def ringType : EntityMetadata :=
  ⟨"rings", "Ring",
    [{ FieldDescriptor.embedded "next" "Ring" with declaredPolicy := some .flattened }], none⟩

theorem branches_end :
    collectTo [ringType] "Ring" 1 ["Ring"] ringType [] =
      some (.error (.duplicateField "Ring" "next")) ∧
    build Settings.standard [branchType, placeType] = .ok branches ∧
    branches.presentTo branchAttributes 2 branchType = some true ∧
    ∃ x ∈ branches.entries, x.metadata = branchType ∧ ∀ blank e,
      branches.fillTo blank 6 branchType branchAttributes e =
        some (branches.fillBy blank x branchAttributes e) := by
  have hring : register .nested [] [ringType] = .ok [ringType] := by cbv
  have hrefused : entryOf [ringType] ringType = .error (.duplicateField "Ring" "next") := by cbv
  have hsearch := (conversion_ends Settings.standard [ringType]).1 [ringType] hring ringType
    List.mem_cons_self 1 (Nat.le_refl 1)
  rw [hrefused] at hsearch
  have hbuild : build Settings.standard [branchType, placeType] = .ok branches := by cbv
  obtain ⟨hpresent, hfill⟩ := (conversion_ends Settings.standard [branchType, placeType]).2
    branches hbuild _ List.mem_cons_self branchAttributes
  exact ⟨hsearch, hbuild, hpresent 2 (Nat.le_refl 2), _, List.mem_cons_self, rfl,
    fun blank e => hfill blank e 6 (by decide)⟩

end Catalog
end RecordMapping
