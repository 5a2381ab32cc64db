import RecordMapping.Proofs.Conversion.Filling
import RecordMapping.Proofs.Conversion.Normal
/-!
Filling a blank entity from what another entity wrote. The attributes may stand among others, as
those of a flattened entity do, as long as every look-up for a name of the layout is answered in the
same way.
-/
namespace RecordMapping

open Catalog

def AnswersLike (names : List String) (attributes own : List Attribute) : Prop :=
  ∀ name ∈ names, Named.lookup name attributes = Named.lookup name own

theorem AnswersLike.any_isPresent {names : List String} {attributes own : List Attribute}
    (h : AnswersLike names attributes own) (hnames : ∀ a ∈ own, a.name ∈ names)
    (hnull : ∀ a ∈ own, a.value.isNull = false) :
    names.any (isPresent attributes) = true ↔ own ≠ [] := by
  constructor
  · rintro hany rfl
    obtain ⟨name, hname, hpresent⟩ := List.any_eq_true.1 hany
    simp [isPresent, h name hname, Named.lookup] at hpresent
  · intro hne
    cases own with
    | nil => exact absurd rfl hne
    | cons a rest =>
      have ha : a ∈ a :: rest := List.mem_cons_self
      refine List.any_eq_true.2 ⟨a.name, hnames a ha, ?_⟩
      rw [isPresent, h a.name (hnames a ha), Named.lookup, if_pos rfl]
      simp [hnull a ha]

namespace Mapping

variable {m : Mapping}

def Restores (m : Mapping) (e back : Entity) : Prop :=
  ∀ x items own owner attributes, m.catalog.entry? e.type = some x →
    LayoutItem.DescribesAll m.catalog.types items x.metadata.fields →
    (LayoutItem.allNames items).Nodup → m.catalog.encodeFields e x.metadata.fields = .ok own →
    AnswersLike (LayoutItem.allNames items) attributes own →
    m.catalog.fill m.schema.blank owner attributes items (m.schema.blank e.type) = .done back

theorem Restores.record (hm : m.Sound) {e back : Entity} (h : m.Restores e back)
    {x : CatalogEntry} (hx : m.catalog.entry? e.type = some x) {attributes : List Attribute}
    (ha : m.catalog.encode e = .ok attributes) :
    m.catalog.fill m.schema.blank x.metadata.type attributes x.items (m.schema.blank e.type) =
      .done back := by
  obtain ⟨own, hown, rfl⟩ := encode_ok hx ha
  have hmem := (entry?_mem hx).1
  have hdistinct := hm.consistent.namesDistinct x hmem
  obtain ⟨_, hnames, hapart⟩ := List.nodup_append.1 hdistinct
  refine h x x.items own _ _ hx (hm.consistent.described x hmem) hnames hown fun name hname => ?_
  rw [Named.lookup_append_left]
  rw [names_discriminator]
  exact fun hin => hapart name hin name hname rfl

theorem fillItem_empty (hm : m.Sound) {x : CatalogEntry} (hx : x ∈ m.catalog.entries)
    {f : FieldDescriptor} (hf : f ∈ x.metadata.fields) {item : LayoutItem}
    (hd : item.Describes m.catalog.types f) {owner : String} {attributes : List Attribute}
    (hl : AnswersLike item.names attributes []) (e : Entity) :
    m.catalog.fillItem m.schema.blank owner attributes item e = .done e := by
  cases hflat : f.isFlattened with
  | false =>
    obtain rfl := hd.eq_stored hflat
    exact fillItem_absent (hl f.nativeName List.mem_cons_self)
  | true =>
    obtain ⟨y, hy, items, rfl, _, _⟩ := hm.eq_group (mem_types hx) hf hflat hd
    refine fillItem_group_absent (Bool.eq_false_iff.2 fun hany => ?_)
    exact (hl.any_isPresent (by simp) (by simp)).1 hany rfl

theorem fill_absent (hm : m.Sound) {x : CatalogEntry} (hx : x ∈ m.catalog.entries)
    {items : List LayoutItem} {fields : List FieldDescriptor}
    (hf : ∀ f ∈ fields, f ∈ x.metadata.fields)
    (hd : LayoutItem.DescribesAll m.catalog.types items fields) {owner : String}
    {attributes : List Attribute} (h : AnswersLike (LayoutItem.allNames items) attributes [])
    (e : Entity) : m.catalog.fill m.schema.blank owner attributes items e = .done e := by
  induction items generalizing fields with
  | nil => exact fill_nil
  | cons item rest ih =>
    cases fields with
    | nil => exact hd.elim
    | cons f fields =>
      have hrest : AnswersLike (LayoutItem.allNames rest) attributes [] :=
        fun name hname => h name (List.mem_append_right _ hname)
      have hfirst : AnswersLike item.names attributes [] :=
        fun name hname => h name (List.mem_append_left _ hname)
      rw [fill_cons (fillItem_empty hm hx (hf f List.mem_cons_self) hd.1 hfirst e)]
      exact ih (fun g hg => hf g (List.mem_cons_of_mem f hg)) hd.2 hrest

section Item

variable {x : CatalogEntry} {f : FieldDescriptor} {item : LayoutItem} {e back : Entity}
  {own attributes : List Attribute}

/-- A flattened entity is restored from the attributes of its owner, where some of them are present
unless the entity has none. -/
theorem Restores.group (hm : m.Sound) (hp : m.catalog.FlattensPlain)
    (hx : x ∈ m.catalog.entries) (hf : f ∈ x.metadata.fields) (hflat : f.isFlattened = true)
    (hd : item.Describes m.catalog.types f) (hn : item.names.Nodup) (he : m.catalog.Agrees e)
    (ht : f.target = some e.type) (h : m.Restores e back) (hown : m.catalog.encode e = .ok own)
    (hl : AnswersLike item.names attributes own) :
    ∃ y items, item = .group f y items ∧
      ((LayoutItem.allNames items).any (isPresent attributes) = true ↔ own ≠ []) ∧
      m.catalog.fill m.schema.blank y.type attributes items (m.schema.blank e.type) =
        .done back ∧
      (own = [] → back = m.schema.blank e.type) := by
  obtain ⟨y, hy, items, rfl, htarget, hitems⟩ := hm.eq_group (mem_types hx) hf hflat hd
  have htype : e.type = y.metadata.type := Option.some.inj (ht.symm.trans htarget)
  have hentry : m.catalog.entry? e.type = some y := htype ▸ hm.consistent.entry?_type hy
  have hplain : discriminator y.metadata = [] := by
    rw [discriminator, hp x hx f hf hflat y hy htarget]
  obtain ⟨inside, hinside, hadd⟩ := encode_ok hentry hown
  rw [hplain, List.append_nil] at hadd
  subst hadd
  have hnames : ∀ a ∈ own, a.name ∈ LayoutItem.allNames items := by
    intro a ha
    have hsub := names_encodeFields_sublist items hitems (he.suits hentry) hinside
    rw [allWrites_eq_allNames hm hp items hy (fun f hf => hf) hitems] at hsub
    exact hsub.subset (List.mem_map_of_mem ha)
  have hfill := h y items own y.metadata.type attributes hentry hitems hn hinside hl
  refine ⟨y.metadata, items, rfl, hl.any_isPresent hnames (isNull_encode hown), hfill, ?_⟩
  rintro rfl
  rw [fill_absent hm hy (fun f hf => hf) hitems hl] at hfill
  exact (congrArg Filling.entity hfill).symm

variable {type owner : String} {before after hidden : List (Named Slot)}

theorem fillItem_data {t : DataType} {content : t.Carrier}
    (hnested : f.isNested = false) (htarget : f.target = none) (hkind : f.valueKind = t.valueKind)
    (hd : item.Describes m.catalog.types f)
    (hown : m.catalog.part f (Slot.data t content).read = .ok own)
    (hl : AnswersLike item.names attributes own) (hname : f.name ∉ Named.names before) :
    m.catalog.fillItem m.schema.blank owner attributes item
        (.mk type (before ++ ⟨f.name, .data t t.blank⟩ :: after) hidden) =
      .done (.mk type (before ++ ⟨f.name, .data t (t.reread content)⟩ :: after) hidden) := by
  have hflat : f.isFlattened = false := by
    rw [← Bool.not_eq_true]
    intro hflat
    rw [f.isNested_of_isFlattened hflat] at hnested
    cases hnested
  obtain rfl := hd.eq_stored hflat
  have hlookup := hl f.nativeName List.mem_cons_self
  rw [Slot.read, Reading.ofValue] at hown
  by_cases hnull : (t.toValue content).isNull = true
  · rw [if_pos hnull] at hown
    obtain rfl := Except.ok.inj hown
    rw [fillItem_absent hlookup, DataType.reread_of_isNull hnull]
  · rw [if_neg hnull] at hown
    obtain rfl := Except.ok.inj hown
    rw [Named.lookup, if_pos rfl] at hlookup
    rw [fillItem_value (FieldDescriptor.isValue_of_target htarget)]
    exact Entity.fillPlain_written (Bool.eq_false_iff.2 hnull) hkind hname hlookup

section Nested

variable (hm : m.Sound) (hp : m.catalog.FlattensPlain) (hx : x ∈ m.catalog.entries)
  (hf : f ∈ x.metadata.fields) (hnested : f.isNested = true)
  (hd : item.Describes m.catalog.types f) (hn : item.names.Nodup) (he : m.catalog.Agrees e)
  (ht : f.target = some e.type) (h : m.Restores e back)
  (hown : m.catalog.part f (.entity e) = .ok own) (hl : AnswersLike item.names attributes own)
include hm hp hx hf hnested hd hn he ht h hown hl

theorem fillItem_entity (owner : String) (holder : Entity) :
    ((f.isFlattened && m.isSilent e) = true ∧ back = m.schema.blank e.type ∧
      m.catalog.fillItem m.schema.blank owner attributes item holder = .done holder) ∨
    ((f.isFlattened && m.isSilent e) = false ∧ ∃ fill,
      fill (m.schema.blank e.type) = .done back ∧
      m.catalog.fillItem m.schema.blank owner attributes item holder =
        holder.fillNested m.schema.blank owner f.name fill) := by
  obtain ⟨own', hencode, hadd⟩ := part_entity_ok hown
  cases hflat : f.isFlattened with
  | false =>
    rw [hflat, if_neg Bool.false_ne_true] at hadd
    subst hadd
    obtain rfl := hd.eq_stored hflat
    obtain ⟨y, hy⟩ := he.registered
    have hlookup := hl f.nativeName List.mem_cons_self
    rw [Named.lookup, if_pos rfl] at hlookup
    exact .inr ⟨rfl, _, h.record hm hy hencode, fillItem_nested hnested ht hy hlookup⟩
  | true =>
    rw [hflat, if_pos rfl] at hadd
    subst hadd
    obtain ⟨y, items, rfl, hany, hfill, hsilent⟩ :=
      h.group hm hp hx hf hflat hd hn he ht hencode hl
    rw [Bool.true_and]
    by_cases hempty : own = []
    · have habsent := Bool.eq_false_iff.2 fun hpresent => hany.1 hpresent hempty
      exact .inl ⟨(isSilent_iff hencode).2 hempty, hsilent hempty, fillItem_group_absent habsent⟩
    · have hsome := Bool.eq_false_iff.2 fun hs => hempty ((isSilent_iff hencode).1 hs)
      exact .inr ⟨hsome, _, hfill, fillItem_group (hany.2 hempty)⟩

theorem fillItem_single (hname : f.name ∉ Named.names before) :
    m.catalog.fillItem m.schema.blank owner attributes item
        (.mk type (before ++ ⟨f.name, .single (m.schema.blank e.type)⟩ :: after) hidden) =
      .done (.mk type (before ++ ⟨f.name, .single back⟩ :: after) hidden) := by
  rcases fillItem_entity hm hp hx hf hnested hd hn he ht h hown hl owner
    (.mk type (before ++ ⟨f.name, .single (m.schema.blank e.type)⟩ :: after) hidden) with
    ⟨_, hblank, hdone⟩ | ⟨_, fill, hfill, hnext⟩
  · rw [hdone, hblank]
  · rw [hnext]
    exact Entity.fillNested_single hname hfill

theorem fillItem_optional (hname : f.name ∉ Named.names before) :
    m.catalog.fillItem m.schema.blank owner attributes item
        (.mk type (before ++ ⟨f.name, .optional e.type none⟩ :: after) hidden) =
      .done (.mk type (before ++ ⟨f.name, .optional e.type
        (if f.isFlattened && m.isSilent e then none else some back)⟩ :: after) hidden) := by
  rcases fillItem_entity hm hp hx hf hnested hd hn he ht h hown hl owner
    (.mk type (before ++ ⟨f.name, .optional e.type none⟩ :: after) hidden) with
    ⟨hsilent, _, hdone⟩ | ⟨hsome, fill, hfill, hnext⟩
  · rw [hdone, if_pos hsilent]
  · rw [hnext, if_neg (Bool.eq_false_iff.1 hsome)]
    exact Entity.fillNested_missing hname hfill

end Nested

theorem fillElements_eq (hm : m.Sound) {target field : String} {y : CatalogEntry}
    (hy : m.catalog.entry? target = some y) {es backs : List Entity}
    (htypes : ∀ e ∈ es, e.type = target) (h : List.Forall₂ m.Restores es backs)
    {values : List Value} (hvalues : m.catalog.encodeItems es = .ok values) (hname : field ∉ Named.names before)
    (earlier : List Entity) :
    m.catalog.fillElements m.schema.blank owner field y values
        (.mk type (before ++ ⟨field, .many target earlier⟩ :: after) hidden) =
      .done (.mk type (before ++ ⟨field, .many target (earlier ++ backs)⟩ :: after) hidden) := by
  induction h generalizing values earlier with
  | nil =>
    rw [encodeItems] at hvalues
    obtain rfl := Except.ok.inj hvalues
    rw [fillElements, List.append_nil]
  | @cons e back rest backs hfirst _ ih =>
    have htype := htypes e List.mem_cons_self
    rw [encodeItems] at hvalues
    cases hencode : m.catalog.encode e with
    | error err => simp [hencode] at hvalues
    | ok attributes =>
      cases hothers : m.catalog.encodeItems rest with
      | error err => simp [hencode, hothers, Except.map] at hvalues
      | ok others =>
        simp only [hencode, hothers, Except.map] at hvalues
        obtain rfl := Except.ok.inj hvalues
        have hfill := hfirst.record hm (htype.symm ▸ hy) hencode
        rw [htype] at hfill
        rw [fillElements, Entity.fillElement_many hname hfill]
        have hrest := ih (fun e he => htypes e (List.mem_cons_of_mem _ he)) hothers
          (earlier ++ [back])
        rw [List.append_assoc] at hrest
        exact hrest

theorem exists_backs {es : List Entity} (h : ∀ e ∈ es, ∃ back, m.Restores e back ∧
      (m.schema.Faithful e.type → back = m.normal e)) :
    ∃ backs, List.Forall₂ m.Restores es backs ∧
      ((∀ e ∈ es, m.schema.Faithful e.type) → backs = m.normalAll es) := by
  induction es with
  | nil => exact ⟨[], .nil, fun _ => by rw [normalAll]⟩
  | cons e rest ih =>
    obtain ⟨back, hback, hnormal⟩ := h e List.mem_cons_self
    obtain ⟨backs, hbacks, hnormals⟩ := ih fun e he => h e (List.mem_cons_of_mem _ he)
    refine ⟨back :: backs, .cons hback hbacks, fun hfaith => ?_⟩
    rw [normalAll, hnormal (hfaith e List.mem_cons_self),
      hnormals fun e he => hfaith e (List.mem_cons_of_mem _ he)]

theorem fillItem_entities (hm : m.Sound) {target : String} {es backs : List Entity}
    {y : CatalogEntry} (hk : f.kind = .collection) (hd : item.Describes m.catalog.types f)
    (ht : f.target = some target) (hy : m.catalog.entry? target = some y)
    (htypes : ∀ e ∈ es, e.type = target) (h : List.Forall₂ m.Restores es backs)
    (hown : m.catalog.part f (.entities es) = .ok own)
    (hl : AnswersLike item.names attributes own) (hname : f.name ∉ Named.names before) :
    m.catalog.fillItem m.schema.blank owner attributes item
        (.mk type (before ++ ⟨f.name, .many target []⟩ :: after) hidden) =
      .done (.mk type (before ++ ⟨f.name, .many target backs⟩ :: after) hidden) := by
  have hflat : f.isFlattened = false := by simp [FieldDescriptor.isFlattened, hk]
  obtain rfl := hd.eq_stored hflat
  obtain ⟨values, hvalues, rfl⟩ := part_entities_ok hown
  have hlookup := hl f.nativeName List.mem_cons_self
  rw [Named.lookup, if_pos rfl] at hlookup
  rw [fillItem_many hk ht hy hlookup]
  exact fillElements_eq hm hy htypes h hvalues hname []

end Item

theorem exists_parts (hm : m.Sound) (hp : m.catalog.FlattensPlain) {x : CatalogEntry}
    (hx : x ∈ m.catalog.entries) {e : Entity}
    (hs : ∀ f ∈ x.metadata.fields, m.catalog.Suits f (e.read f.name)) {items : List LayoutItem}
    (hd : LayoutItem.DescribesAll m.catalog.types items x.metadata.fields)
    (hn : (LayoutItem.allNames items).Nodup) {own attributes : List Attribute}
    (hown : m.catalog.encodeFields e x.metadata.fields = .ok own)
    (hl : AnswersLike (LayoutItem.allNames items) attributes own) :
    ∀ p ∈ items.zip x.metadata.fields, ∃ part,
      m.catalog.part p.2 (e.read p.2.name) = .ok part ∧ AnswersLike p.1.names attributes part := by
  rintro ⟨item, f⟩ hmem
  have hf := (List.of_mem_zip hmem).2
  have hwrites := allWrites_eq_allNames hm hp items hx (fun f hf => hf) hd
  obtain ⟨part, hpart⟩ := (hs f hf).hasPart
  refine ⟨part, hpart, fun name hname => ?_⟩
  rw [← writes_eq_names hm hp item hx hf (hd.of_mem_zip hmem)] at hname
  rw [hl name (hwrites ▸ mem_allWrites hmem hname)]
  exact lookup_encodeFields hd hs hown (hwrites ▸ hn) hmem hpart hname

def RestoresSlot (m : Mapping) (f : FieldDescriptor) (slot blank back : Slot) : Prop :=
  ∀ item own attributes owner type before after hidden, item.Describes m.catalog.types f →
    item.names.Nodup → m.catalog.part f slot.read = .ok own →
    AnswersLike item.names attributes own → f.name ∉ Named.names before →
    m.catalog.fillItem m.schema.blank owner attributes item
        (.mk type (before ++ ⟨f.name, blank⟩ :: after) hidden) =
      .done (.mk type (before ++ ⟨f.name, back⟩ :: after) hidden)

inductive RestoresSlots (m : Mapping) :
    List FieldDescriptor → List (Named Slot) → List (Named Slot) → List (Named Slot) → Prop
  | nil : RestoresSlots m [] [] [] []
  | cons {f : FieldDescriptor} {slot blank back : Slot} {fields : List FieldDescriptor}
    {slots blanks backs : List (Named Slot)} : m.RestoresSlot f slot blank back →
    RestoresSlots m fields slots blanks backs →
    RestoresSlots m (f :: fields) (⟨f.name, slot⟩ :: slots) (⟨f.name, blank⟩ :: blanks)
      (⟨f.name, back⟩ :: backs)

/-- The slots are filled from left to right; those before are full, those after still blank. -/
theorem RestoresSlots.fill {type : String} {e : Entity} {fields : List FieldDescriptor}
    {slots blanks backs : List (Named Slot)} (h : m.RestoresSlots fields slots blanks backs)
    {items : List LayoutItem} (hd : LayoutItem.DescribesAll m.catalog.types items fields)
    (hn : (LayoutItem.allNames items).Nodup) {attributes : List Attribute}
    (hread : ∀ slot ∈ slots, e.read slot.name = slot.value.read)
    (hparts : ∀ p ∈ items.zip fields, ∃ own, m.catalog.part p.2 (e.read p.2.name) = .ok own ∧
      AnswersLike p.1.names attributes own)
    (owner : String) (before hidden : List (Named Slot))
    (hdistinct : (Named.names before ++ Named.names slots).Nodup) :
    m.catalog.fill m.schema.blank owner attributes items (.mk type (before ++ blanks) hidden) =
      .done (.mk type (before ++ backs) hidden) := by
  induction h generalizing items before with
  | nil =>
    cases items with
    | nil => rw [fill_nil]
    | cons item rest => exact hd.elim
  | @cons f slot blank back fields slots blanks backs hslot _ ih =>
    cases items with
    | nil => exact hd.elim
    | cons item rest =>
      obtain ⟨own, hown, hl⟩ := hparts (item, f) List.mem_cons_self
      rw [hread _ List.mem_cons_self] at hown
      obtain ⟨hnitem, hnrest, _⟩ := List.nodup_append.1 hn
      have hname : f.name ∉ Named.names before := by
        intro hin
        exact (List.nodup_append.1 hdistinct).2.2 _ hin _ List.mem_cons_self rfl
      have hnext : (Named.names (before ++ [⟨f.name, back⟩]) ++ Named.names slots).Nodup := by
        simpa using hdistinct
      have hrest := ih hd.2 hnrest (fun s hs => hread s (List.mem_cons_of_mem _ hs))
        (fun p hp => hparts p (List.mem_cons_of_mem _ hp)) _ hnext
      have hfirst := hslot item own attributes owner type before blanks hidden hd.1
        hnitem hown hl hname
      rw [fill_cons hfirst]
      simpa using hrest

end Mapping
end RecordMapping
