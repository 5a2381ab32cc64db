import RecordMapping.Proofs.Conversion.ReadPaths
import RecordMapping.Proofs.Repository.Operation
/-!
What the repository of a subtype sees against what can be read as the subtype. The repository asks
for a discriminator that is the very text of the subtype, while reading takes every value that is
written like this text. So what is seen can be read, and what can be read but is not seen has a
discriminator that is no text.
-/
namespace RecordMapping.Mapping

open Catalog

variable {m : Mapping} {x : CatalogEntry} {i : Inheritance} {r : Record}

theorem subtypeOf_eq_ok_iff (hc : m.catalog.Consistent) (hx : x ∈ m.catalog.entries)
    (hi : x.metadata.inheritance = some i) : m.subtypeOf x.metadata r = .ok x ↔
      ∃ v, r.find? i.discriminator = some v ∧ v ≠ .null ∧ v.discriminatorText = i.value := by
  obtain ⟨h, hh, _, hdiscriminator, hsubtype⟩ := hc.hierarchy?_spec hx hi
  have hvalue : ∀ value, h.subtype? value = some x ↔ value = i.value := by
    intro value
    rw [hsubtype]
    constructor
    · rintro ⟨_, j, hj, _, rfl⟩
      rw [Option.some.inj (hj.symm.trans hi)]
    · rintro rfl
      exact ⟨hx, i, hi, rfl, rfl⟩
  rw [subtypeOf_eq r hi hh, Record.find?, ← hdiscriminator]
  rcases h.select_cases r.attributes with ⟨hmissing, hselect⟩ | ⟨v, hv, hnull, hselect⟩
  · rw [hselect]
    rcases hmissing with hnone | hnull
    · simp [hnone]
    · simp [hnull]
  · simp only [hselect, hv, Option.some.injEq, exists_eq_left', ne_eq, hnull, not_false_eq_true,
      true_and, ← hvalue]
    cases h.subtype? v.discriminatorText <;> simp

theorem toEntity_of_subtypeOf_ne (hc : m.catalog.Consistent) (hx : x ∈ m.catalog.entries)
    (hi : x.metadata.inheritance = some i) (h : m.subtypeOf x.metadata r ≠ .ok x) :
    ∃ e, m.toEntity x.metadata.type r = .error e ∧ (m.subtypeOf x.metadata r = .error e ∨
      ∃ y, m.subtypeOf x.metadata r = .ok y ∧
        e = .subtypeMismatch x.metadata.type y.metadata.type) := by
  obtain ⟨hierarchy, hh, hresolves⟩ := hc.resolves_select hx hi
  have hentity := toEntity_eq (r := r) hc hx hi hh
  have hspec := hresolves r
  rw [subtypeOf_eq r hi hh] at h ⊢
  cases hselect : hierarchy.select r.attributes with
  | error e =>
    rw [hselect] at hentity
    exact ⟨e, hentity, .inl rfl⟩
  | ok y =>
    rw [hselect] at hentity h hspec
    have hy : y ∈ m.catalog.entries := by
      cases hspec with
      | subtype _ _ hy _ _ _ => exact hy
    have hne : y.metadata.type ≠ x.metadata.type := fun heq =>
      h (congrArg Except.ok (hc.eq_of_type_eq hy hx heq))
    exact ⟨_, hentity.trans (if_neg hne), .inr ⟨y, rfl, rfl⟩⟩

/-- The condition that a repository adds for a subtype holds of the records that select the subtype
by a text, whatever else is asked for. These are read as the subtype, and a record that does not
select it never is. -/
theorem seen_iff_selected_by_text {settings : Settings} {given : List EntityMetadata}
    (hb : Catalog.build settings given = .ok m.catalog) (hx : x ∈ m.catalog.entries)
    (hi : x.metadata.inheritance = some i) (r : Record) :
    (∀ condition, (x.metadata.scope condition).all (Memory.satisfies r) = true ↔
      condition.all (Memory.satisfies r) = true ∧ m.subtypeOf x.metadata r = .ok x ∧
        ∃ s, r.find? i.discriminator = some (.text s)) ∧
    (m.subtypeOf x.metadata r = .ok x →
      m.toEntity x.metadata.type r = m.instantiate x r.attributes) ∧
    (m.subtypeOf x.metadata r ≠ .ok x →
      ∃ e, m.toEntity x.metadata.type r = .error e ∧ (m.subtypeOf x.metadata r = .error e ∨
        ∃ y, m.subtypeOf x.metadata r = .ok y ∧
          e = .subtypeMismatch x.metadata.type y.metadata.type)) := by
  obtain ⟨_, _, hc⟩ := Catalog.build_spec hb
  refine ⟨fun condition => ?_, fun hselected => ?_, toEntity_of_subtypeOf_ne hc hx hi⟩
  · rw [EntityMetadata.all_scope_iff hi, subtypeOf_eq_ok_iff hc hx hi]
    refine and_congr_right fun _ => ?_
    constructor
    · exact fun htext => ⟨⟨_, htext, by simp, rfl⟩, _, htext⟩
    · rintro ⟨⟨v, hv, _, hvalue⟩, s, htext⟩
      obtain rfl := Option.some.inj (hv.symm.trans htext)
      rw [htext, ← hvalue]
      rfl
  · obtain ⟨h, hh, _⟩ := hc.exists_hierarchy hx hi
    rw [subtypeOf_eq r hi hh] at hselected
    rw [toEntity_eq hc hx hi hh, hselected]
    exact if_pos rfl

theorem card_seen :
    ((Declaration.mailType "Card" "post::Card").metadata.scope none).all
      (Memory.satisfies cardRecord) = true ∧
    mailing.toEntity "post::Card" cardRecord =
      .ok (.mk "post::Card" [⟨"text", .data .text "5"⟩] []) := by
  have hcard : ⟨(Declaration.mailType "Card" "post::Card").metadata,
      (Declaration.mailType "Card" "post::Card").metadata.fields.map .stored⟩ ∈
        mailing.catalog.entries := List.mem_cons_of_mem _ List.mem_cons_self
  obtain ⟨hseen, hread, _⟩ := seen_iff_selected_by_text mailing_accepted hcard rfl cardRecord
  have hscope : ((Declaration.mailType "Card" "post::Card").metadata.scope none).all
      (Memory.satisfies cardRecord) = true := by decide
  exact ⟨hscope, (hread ((hseen none).1 hscope).2.1).trans (by cbv)⟩

def numberedCards : Mapping :=
  let card := Declaration.mailType "1" "post::Card"
  ⟨⟨[card], []⟩, Settings.standard, [⟨card.metadata, card.metadata.fields.map .stored⟩]⟩

/-- A record with the number selects the subtype but is not seen. -/
theorem numbered_card_unseen :
    let card := (Declaration.mailType "1" "post::Card").metadata
    let record : Record := ⟨"Mail", [⟨"dtype", .int 1⟩]⟩
    Catalog.build Settings.standard [card] = .ok numberedCards.catalog ∧
    ¬((card.scope none).all (Memory.satisfies record) = true ↔
      ∃ x ∈ numberedCards.catalog.entries, x.metadata = card ∧
        numberedCards.subtypeOf card record = .ok x) := by
  refine ⟨by cbv, fun h => ?_⟩
  have hselected := h.2 ⟨_, List.mem_cons_self, rfl, by cbv⟩
  exact absurd hselected (by decide)

end RecordMapping.Mapping
