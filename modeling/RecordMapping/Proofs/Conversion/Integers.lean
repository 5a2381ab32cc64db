import RecordMapping.Proofs.Conversion.Populating
import RecordMapping.Proofs.Number.Integral
import RecordMapping.Proofs.Text.Numeral
import RecordMapping.Proofs.Value.Coercion
/-!
Integers as they are read. A field for one integer holds exactly the number that its attribute
stands for, or is refused. The items of a list are not coerced: integers are read from numbers of
any kind, and of a fraction only the integer part is left.
-/
namespace RecordMapping

open RecordMapping.Number RecordMapping.Text

namespace Value

def Denotes : Value → ℚ → Prop
  | .int n, q => q = n.toInt
  | .uint n, q => q = n.toNat
  | .float x, q => x.rational? = some q
  | .text s, q => ∃ n, Numeral (trim s.toList) n ∧ q = n
  | .bool b, q => q = if b then 1 else 0
  | _, _ => False

def IsNumber (v : Value) : Prop :=
  v.kind? = some .int ∨ v.kind? = some .uint ∨ v.kind? = some .float

/-- Whether a value stands for an integer. -/
def IsInteger (v : Value) (n : Int) : Prop :=
  v.Denotes n

/-- Whether a value is a number with the given integer part. -/
def HasPart (v : Value) (n : Int) : Prop :=
  v.IsNumber ∧ ∃ q, v.Denotes q ∧ n = towardZero q

variable {v w : Value} {n : Int} {kind : ValueKind}

theorem eq_of_int? {m : Int} (h : int? m = some w) (hw : w.IsInteger n) : m = n := by
  obtain ⟨k, rfl, rfl⟩ := int?_eq_some_iff.1 h
  exact (Rat.intCast_inj.1 hw).symm

theorem eq_of_uint? {m : Int} (h : uint? m = some w) (hw : w.IsInteger n) : m = n := by
  obtain ⟨k, rfl, rfl⟩ := uint?_eq_some_iff.1 h
  exact (Rat.intCast_inj.1 hw).symm

theorem isInteger_of_convert? (hk : kind = .int ∨ kind = .uint) (h : v.convert? kind = some w)
    (hw : w.IsInteger n) : v.IsInteger n := by
  rcases hk with rfl | rfl
  · cases v with
    | uint k =>
      obtain rfl := eq_of_int? h hw
      rfl
    | float x =>
      obtain ⟨m, hm, h⟩ := Option.bind_eq_some_iff.1 h
      obtain rfl := eq_of_int? h hw
      exact Binary64.integer?_eq_some_iff.1 hm
    | text s =>
      obtain ⟨m, hm, h⟩ := Option.bind_eq_some_iff.1 h
      obtain rfl := eq_of_int? h hw
      exact ⟨m, integer?_eq_some_iff.1 hm, rfl⟩
    | bool b =>
      obtain rfl := Option.some.inj h
      cases b <;> exact hw
    | int _ | blob _ | list _ | null | record _ => cases h
  · cases v with
    | int k =>
      obtain rfl := eq_of_uint? h hw
      rfl
    | float x =>
      obtain ⟨m, hm, h⟩ := Option.bind_eq_some_iff.1 h
      obtain rfl := eq_of_uint? h hw
      exact Binary64.integer?_eq_some_iff.1 hm
    | text s =>
      obtain ⟨m, hm, h⟩ := Option.bind_eq_some_iff.1 h
      obtain rfl := eq_of_uint? h hw
      exact ⟨m, (unsigned?_eq_some_iff.1 hm).1, rfl⟩
    | bool b =>
      obtain rfl := Option.some.inj h
      cases b <;> exact hw
    | uint _ | blob _ | list _ | null | record _ => cases h

/-- Whether none of the numbers in a value has a fraction. -/
def IsWhole (v : Value) : Prop :=
  ∀ x, .float x ∈ v.leaves → ∃ n : Int, x.rational? = some (n : ℚ)

theorem isWhole_list_iff {items : List Value} :
    (list items).IsWhole ↔ ∀ v ∈ items, v.IsWhole := by
  simp only [IsWhole, leaves, mem_allLeaves]
  constructor
  · exact fun h v hv x hx => h x ⟨v, hv, hx⟩
  · rintro h x ⟨v, hv, hx⟩
    exact h v hv x hx

/-- The integer part of a number is the number itself unless it has a fraction. -/
theorem isInteger_iff_isWhole (h : v.HasPart n) : v.IsInteger n ↔ v.IsWhole := by
  obtain ⟨hnumber, q, hq, rfl⟩ := h
  cases v with
  | int k =>
    obtain rfl := hq
    simp [IsInteger, Denotes, IsWhole, leaves]
  | uint k =>
    obtain rfl := hq
    simp [IsInteger, Denotes, IsWhole, leaves]
  | float x =>
    have hwhole : (float x).IsWhole ↔ ∃ n : Int, x.rational? = some (n : ℚ) := by
      simp [IsWhole, leaves]
    rw [hwhole]
    constructor
    · exact fun h => ⟨_, h⟩
    · rintro ⟨k, hk⟩
      obtain rfl := Option.some.inj (hq.symm.trans hk)
      rw [towardZero_intCast]
      exact hk
  | _ => simp [IsNumber, kind?] at hnumber

theorem HasPart.isInteger (h : v.HasPart n)
    (hkind : v.kind? = some .int ∨ v.kind? = some .uint) : v.IsInteger n := by
  refine (isInteger_iff_isWhole h).2 ?_
  cases v with
  | int k => simp [IsWhole, leaves]
  | uint k => simp [IsWhole, leaves]
  | _ => simp [kind?] at hkind

theorem isInteger_of_coerce (hk : kind = .int ∨ kind = .uint) (h : v.coerce kind = .ok w)
    (hw : w.HasPart n) : v.IsInteger n := by
  have hlist : kind ≠ .list := by rcases hk with rfl | rfl <;> decide
  have hkinds : w.kind? = some kind → w.IsInteger n := by
    intro hkind
    rcases hk with rfl | rfl
    · exact hw.isInteger (.inl hkind)
    · exact hw.isInteger (.inr hkind)
  cases recast_of_coerce hlist h with
  | null => simp [HasPart, IsNumber, kind?] at hw
  | list => simp [HasPart, IsNumber, kind?] at hw
  | leaf hnull hleaf hkind =>
    rcases coerce_leaf kind hnull hleaf with ⟨_, hok⟩ | ⟨found, hfound, hok⟩ | ⟨e, herror⟩
    · obtain rfl := Except.ok.inj (h.symm.trans hok)
      exact hkinds hkind
    · obtain rfl := Except.ok.inj (h.symm.trans hok)
      exact isInteger_of_convert? hk hfound (hkinds hkind)
    · cases h.symm.trans herror

end Value

namespace DataType

/-- Whether a type is one of integers, of options of integers, of lists of them and so on. -/
def IsInteger : DataType → Prop
  | int _ => True
  | option t => t.IsInteger
  | list t => t.IsInteger
  | _ => False

def OptionMatches {α : Type} (R : Value → α → Prop) (v : Value) : Option α → Prop
  | none => v = .null
  | some x => v ≠ .null ∧ R v x

def ListMatches {α : Type} (R : Value → α → Prop) (v : Value) (xs : List α) : Prop :=
  (v = .null ∧ xs = []) ∨ ∃ items, v = .list items ∧ List.Forall₂ R items xs

/-- Whether the integers of a content are related to the values in whose place they stand. -/
def Matches (R : Value → Int → Prop) : (t : DataType) → Value → t.Carrier → Prop
  | int _, v, n => R v n.val
  | option t, v, o => OptionMatches (t.Matches R) v o
  | list t, v, xs => ListMatches (t.Matches R) v xs
  | _, _, _ => False

variable {t : DataType} {v w : Value}

section Reading

variable {α : Type} {read : Value → Option α}

theorem readAll_eq_some_iff {items : List Value} {xs : List α} :
    readAll read items = some xs ↔ List.Forall₂ (fun v x => read v = some x) items xs := by
  induction items generalizing xs with
  | nil => simp [readAll, eq_comm]
  | cons v rest ih =>
    rw [readAll, List.forall₂_cons_left_iff]
    cases hv : read v with
    | none => simp
    | some x =>
      cases hrest : readAll read rest with
      | none => simp [← ih, hrest]
      | some others => simp [← ih, hrest, eq_comm]

theorem readOption_eq_some_iff {o : Option α} :
    readOption read v = some o ↔ OptionMatches (fun v x => read v = some x) v o := by
  rw [readOption.eq_def]
  cases o with
  | none => cases v <;> simp [OptionMatches]
  | some x => cases v <;> simp [OptionMatches]

theorem readList_eq_some_iff {xs : List α} :
    readList read v = some xs ↔ ListMatches (fun v x => read v = some x) v xs := by
  cases v with
  | list items => simp [readList, ListMatches, readAll_eq_some_iff]
  | null => simp [readList, ListMatches, eq_comm]
  | _ => simp [readList, ListMatches]

end Reading

theorem integerPart?_eq_some_iff {n : Int} : integerPart? v = some n ↔ v.HasPart n := by
  cases v with
  | int k => simp [integerPart?, Value.HasPart, Value.IsNumber, Value.kind?, Value.Denotes, eq_comm]
  | uint k =>
    simp [integerPart?, Value.HasPart, Value.IsNumber, Value.kind?, Value.Denotes, eq_comm]
  | float x =>
    simp [integerPart?, Value.HasPart, Value.IsNumber, Value.kind?, Value.Denotes,
      Binary64.truncate?_eq, eq_comm]
  | _ => simp [integerPart?, Value.HasPart, Value.IsNumber, Value.kind?]

theorem ofInt?_eq_some_iff {t : IntType} {n : Int} {x : t.Carrier} :
    t.ofInt? n = some x ↔ x.val = n := by
  rw [IntType.ofInt?]
  constructor
  · intro h
    split at h
    · rw [← Option.some.inj h]
    · cases h
  · rintro rfl
    rw [dif_pos x.property]
    rfl

theorem ofValue?_eq_some_iff (ht : t.IsInteger) {x : t.Carrier} :
    t.ofValue? v = some x ↔ t.Matches Value.HasPart v x := by
  induction t generalizing v with
  | int t =>
    refine Option.bind_eq_some_iff.trans ?_
    constructor
    · rintro ⟨n, hn, hx⟩
      obtain rfl := ofInt?_eq_some_iff.1 hx
      exact integerPart?_eq_some_iff.1 hn
    · exact fun h => ⟨_, integerPart?_eq_some_iff.2 h, ofInt?_eq_some_iff.2 rfl⟩
  | option t ih =>
    have hread : (fun v x => t.ofValue? v = some x) = t.Matches Value.HasPart :=
      funext₂ fun v x => propext (ih ht)
    rw [Matches, ← hread]
    exact readOption_eq_some_iff
  | list t ih =>
    have hread : (fun v x => t.ofValue? v = some x) = t.Matches Value.HasPart :=
      funext₂ fun v x => propext (ih ht)
    rw [Matches, ← hread]
    exact readList_eq_some_iff
  | _ => exact ht.elim

theorem exists_valueKind (ht : t.IsInteger) : ∃ kind, t.valueKind = some kind := by
  induction t with
  | int t => cases t <;> exact ⟨_, rfl⟩
  | option t ih => exact ih ht
  | list t _ => exact ⟨_, rfl⟩
  | _ => exact ht.elim

theorem matches_isInteger_of_coerce (ht : t.IsInteger) {kind : ValueKind}
    (hkind : t.valueKind = some kind) (hlist : kind ≠ .list) (h : v.coerce kind = .ok w)
    {x : t.Carrier} (hx : t.Matches Value.HasPart w x) : t.Matches Value.IsInteger v x := by
  induction t with
  | int t =>
    refine Value.isInteger_of_coerce ?_ h hx
    cases t with
    | signed width => exact .inl (Option.some.inj hkind).symm
    | unsigned width => exact .inr (Option.some.inj hkind).symm
  | option t ih =>
    cases ho : (x : Option t.Carrier) with
    | none =>
      subst ho
      obtain rfl : w = .null := hx
      cases Value.recast_of_coerce hlist h with
      | null => exact rfl
      | leaf _ _ hnull => cases hnull
    | some y =>
      subst ho
      obtain ⟨hnull, hy⟩ : w ≠ .null ∧ t.Matches Value.HasPart w y := hx
      refine ⟨?_, ih ht hkind hy⟩
      rintro rfl
      exact hnull (Except.ok.inj h).symm
  | list t _ => exact absurd (Option.some.inj hkind).symm hlist
  | _ => exact ht.elim

theorem matches_isInteger_iff (ht : t.IsInteger) {x : t.Carrier}
    (h : t.Matches Value.HasPart v x) : t.Matches Value.IsInteger v x ↔ v.IsWhole := by
  induction t generalizing v with
  | int t => exact Value.isInteger_iff_isWhole h
  | option t ih =>
    cases ho : (x : Option t.Carrier) with
    | none =>
      subst ho
      obtain rfl : v = .null := h
      exact iff_of_true rfl (by simp [Value.IsWhole, Value.leaves])
    | some y =>
      subst ho
      obtain ⟨hnull, hy⟩ : v ≠ .null ∧ t.Matches Value.HasPart v y := h
      exact (and_iff_right hnull).trans (ih ht hy)
  | list t ih =>
    rcases h with ⟨rfl, hx⟩ | ⟨items, rfl, hall⟩
    · exact iff_of_true (.inl ⟨rfl, hx⟩) (by simp [Value.IsWhole, Value.leaves])
    · have hitems : List.Forall₂ (t.Matches Value.IsInteger) items x ↔ ∀ v ∈ items, v.IsWhole :=
        forall₂_iff_of_imp (P := Value.IsWhole) (fun _ _ => ih ht) hall
      rw [Value.isWhole_list_iff, ← hitems]
      constructor
      · rintro (⟨h, _⟩ | ⟨_, ⟨⟩, h⟩)
        · cases h
        · exact h
      · exact fun h => .inr ⟨items, rfl, h⟩
  | _ => exact ht.elim

end DataType

namespace Mapping

open Catalog Declaration

variable {m : Mapping}

theorem Derives.descriptor_of_data (hc : m.catalog.Consistent) {e : Entity}
    (hd : m.Derives e.type) (he : m.schema.Typed e) {f : FieldDescriptor}
    (hf : f ∈ m.catalog.fieldsOf e.type) {t : DataType} {x : t.Carrier}
    (hs : e.slot? f.name = some (.data t x)) : f.target = none ∧ f.valueKind = t.valueKind := by
  obtain ⟨blank, hblank, hfits⟩ := hd.exists_slot hc hf
  obtain ⟨slot, hslot, htyped⟩ := he.slots.exists_slot hblank
  obtain rfl := Option.some.inj (hs.symm.trans hslot)
  cases htyped with
  | data =>
    cases hfits with
    | data _ ht hkind => exact ⟨ht, hkind⟩

theorem fillItem_data_eq_done_iff {c : Catalog} {blank : String → Entity} {owner : String}
    {f : FieldDescriptor} (htarget : f.target = none) {e filled : Entity} {t : DataType}
    {old : t.Carrier} (hs : e.slot? f.name = some (.data t old)) {attributes : List Attribute}
    {v : Value} (hv : Named.lookup f.nativeName attributes = some v) :
    c.fillItem blank owner attributes (.stored f) e = .done filled ↔
      ∃ w x, f.coerced v = .ok w ∧ t.ofValue? w = some x ∧
        filled = e.assign f.name (.data t x) := by
  rw [fillItem_value (FieldDescriptor.isValue_of_target htarget), Entity.fillPlain_eq_done_iff]
  constructor
  · rintro (⟨hnone, _⟩ | ⟨v', w, hv', hw, hwrite⟩)
    · cases hv.symm.trans hnone
    · obtain rfl := Option.some.inj (hv.symm.trans hv')
      obtain ⟨t', x, y, hs', hx, rfl⟩ := Entity.write_eq_ok_iff.1 hwrite
      obtain ⟨rfl, -⟩ := Slot.data.inj (Option.some.inj (hs.symm.trans hs'))
      exact ⟨w, x, hw, hx, rfl⟩
  · rintro ⟨w, x, hw, hx, rfl⟩
    exact .inr ⟨v, w, hv, hw, Entity.write_eq_ok_iff.2 ⟨t, x, old, hs, hx, rfl⟩⟩

/-- Integers are read without being altered, but for one gap. A field that is no list is filled only
with exactly the integer that its attribute stands for. A list is filled just if its items are
numbers whose integer parts can be held, and is left with these parts; so all its integers are exact
if and only if no item has a fraction. -/
theorem integers_exact_iff {settings : Settings} {given : List EntityMetadata}
    (hb : Catalog.build settings given = .ok m.catalog) {e : Entity} (hd : m.Derives e.type)
    (he : m.schema.Typed e) {f : FieldDescriptor} (hf : f ∈ m.catalog.fieldsOf e.type)
    {t : DataType} (ht : t.IsInteger) {old : t.Carrier}
    (hs : e.slot? f.name = some (.data t old)) {attributes : List Attribute} {v : Value}
    (hv : Named.lookup f.nativeName attributes = some v) :
    (t.valueKind ≠ some .list → ∀ filled,
      m.catalog.fillItem m.schema.blank e.type attributes (.stored f) e = .done filled →
      ∃ x, t.Matches Value.IsInteger v x ∧ filled = e.assign f.name (.data t x)) ∧
    (t.valueKind = some .list → ∃ w, v.coerce .list = .ok w ∧
      (∀ filled,
        m.catalog.fillItem m.schema.blank e.type attributes (.stored f) e = .done filled ↔
          ∃ x, t.Matches Value.HasPart w x ∧ filled = e.assign f.name (.data t x)) ∧
      ∀ x, t.Matches Value.HasPart w x → (t.Matches Value.IsInteger w x ↔ w.IsWhole)) := by
  obtain ⟨_, _, hc⟩ := Catalog.build_spec hb
  obtain ⟨htarget, hkind⟩ := hd.descriptor_of_data hc he hf hs
  have hcoerced : ∀ {kind : ValueKind}, t.valueKind = some kind → f.coerced v = v.coerce kind :=
    fun hk => by simp only [FieldDescriptor.coerced, hkind, hk]
  simp only [fillItem_data_eq_done_iff htarget hs hv]
  constructor
  · rintro hlist _ ⟨w, x, hw, hx, rfl⟩
    obtain ⟨kind, hk⟩ := DataType.exists_valueKind ht
    rw [hcoerced hk] at hw
    have hparts := (DataType.ofValue?_eq_some_iff ht).1 hx
    exact ⟨x, DataType.matches_isInteger_of_coerce ht hk (fun h => hlist (h ▸ hk)) hw hparts, rfl⟩
  · intro hlist
    obtain ⟨w, hw, _⟩ := v.exists_coerce_list
    refine ⟨w, hw, fun filled => ?_, fun x => DataType.matches_isInteger_iff ht⟩
    rw [hcoerced hlist, hw]
    simp [DataType.ofValue?_eq_some_iff ht]

end Mapping

namespace Declaration

def gaugeStruct : StructDeclaration :=
  ⟨"Gauge", [⟨"level", ⟨[.name "Option", .group .angle [.name "i8"]]⟩, []⟩,
    ⟨"marks", ⟨[.name "Vec", .group .angle [.name "i32"]]⟩, []⟩], [], .fields, ""⟩

def gauge (level : Option (IntType.Carrier (.signed .w8)))
    (marks : List (IntType.Carrier (.signed .w32))) : Entity :=
  .mk "lab::Gauge" [⟨"level", .data (.option (.int (.signed .w8))) level⟩,
    ⟨"marks", .data (.list (.int (.signed .w32))) marks⟩] []

def gaugeType : EntityType :=
  ⟨⟨"Gauge", "lab::Gauge", [{ FieldDescriptor.plain "level" with valueKind := some .int },
      FieldDescriptor.collection "marks"], none⟩, gauge none []⟩

end Declaration

namespace Mapping

open Declaration

def gauges : Mapping :=
  ⟨⟨[gaugeType], []⟩, Settings.standard,
    [⟨gaugeType.metadata, gaugeType.metadata.fields.map .stored⟩]⟩

theorem gauges_accepted : Catalog.build Settings.standard [gaugeType.metadata] =
    .ok gauges.catalog := by cbv

theorem gaugeStruct_planned : ∃ plan, gaugeStruct.plan = .ok plan ∧
    plan.entityType? gauges.schema "lab" = some gaugeType := ⟨_, by cbv, by cbv⟩

theorem gauges_derived : gauges.Derives "lab::Gauge" := by
  obtain ⟨plan, hplan, ht⟩ := gaugeStruct_planned
  exact derives_of_build (t := gaugeType) gauges_accepted hplan ht rfl (by simp)

/-- The mark at one and a half is read as one, while no level is. -/
theorem gauges_lose_fractions :
    let fraction : Value := .float ⟨0x3ff8000000000000⟩
    let level : FieldDescriptor := { FieldDescriptor.plain "level" with valueKind := some .int }
    let one : IntType.Carrier (.signed .w32) := ⟨1, by decide⟩
    Catalog.build Settings.standard [gaugeType.metadata] = .ok gauges.catalog ∧
    gauges.catalog.fillItem gauges.schema.blank "lab::Gauge" [⟨"marks", .list [fraction]⟩]
      (.stored (.collection "marks")) (gauge none []) = .done (gauge none [one]) ∧
    ¬ fraction.IsInteger 1 ∧
    ∀ filled, gauges.catalog.fillItem gauges.schema.blank "lab::Gauge" [⟨"level", fraction⟩]
      (.stored level) (gauge none []) ≠ .done filled := by
  intro fraction level one
  have hmem : gaugeType.metadata ∈ gauges.catalog.types := List.mem_cons_self
  obtain ⟨_, _, hc⟩ := Catalog.build_spec gauges_accepted
  have hfields : gauges.catalog.fieldsOf "lab::Gauge" = gaugeType.metadata.fields :=
    hc.fieldsOf_type hmem
  have htyped : gauges.schema.Typed (gauge none []) :=
    .intro (t := gaugeType) rfl (.cons .data (.cons .data .nil))
  have hpart : fraction.HasPart 1 := DataType.integerPart?_eq_some_iff.1 (by decide)
  have hwhole : ∀ n, ¬ fraction.IsInteger n := by
    intro n h
    have hnone : Binary64.integer? ⟨0x3ff8000000000000⟩ = none := by decide
    cases hnone.symm.trans (Binary64.integer?_eq_some_iff.2 h)
  refine ⟨gauges_accepted, ?_, hwhole 1, fun filled hfilled => ?_⟩
  · have hmarks : Named.lookup "marks" [⟨"marks", Value.list [fraction]⟩] =
        some (.list [fraction]) := rfl
    obtain ⟨_, hlist⟩ := integers_exact_iff gauges_accepted (e := gauge none []) gauges_derived
      htyped (f := .collection "marks") (hfields ▸ List.mem_cons_of_mem _ List.mem_cons_self)
      (t := .list (.int (.signed .w32))) trivial rfl hmarks
    obtain ⟨w, hw, hfilled, _⟩ := hlist rfl
    obtain rfl := Except.ok.inj ((Value.coerce_self (.inr rfl)).symm.trans hw)
    exact (hfilled _).2 ⟨[one], .inr ⟨_, rfl, .cons hpart .nil⟩, rfl⟩
  · have hlevel : Named.lookup "level" [⟨"level", fraction⟩] = some fraction := rfl
    obtain ⟨hscalar, _⟩ := integers_exact_iff gauges_accepted (e := gauge none []) gauges_derived
      htyped (f := level) (hfields ▸ List.mem_cons_self)
      (t := .option (.int (.signed .w8))) trivial rfl hlevel
    obtain ⟨x, hx, _⟩ := hscalar (by decide) filled hfilled
    cases ho : (x : Option (IntType.Carrier (.signed .w8))) with
    | none =>
      subst ho
      exact Value.noConfusion (show Value.float ⟨0x3ff8000000000000⟩ = .null from hx)
    | some n =>
      subst ho
      exact hwhole _ hx.2

end Mapping

end RecordMapping
