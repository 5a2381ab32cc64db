import RecordMapping.Proofs.Lookup
import RecordMapping.Value.Coercion
/-!
What coercion reaches. A value that was coerced to a kind is of that kind: it keeps its lists, and
holds `null` where it did and values of the kind everywhere else. Coercing it again changes nothing.
What cannot be coerced fails as the first of its leaves does that cannot.
-/
namespace RecordMapping.Value

@[elab_as_elim]
theorem listInduction {motive : Value → Prop}
    (leaf : ∀ v, (∀ items, v ≠ .list items) → motive v)
    (list : ∀ items, (∀ v ∈ items, motive v) → motive (.list items)) (v : Value) : motive v := by
  match v with
  | .list items =>
    refine list items fun v hv => ?_
    have := List.sizeOf_lt_of_mem hv
    exact listInduction leaf list v
  | .blob _ | .bool _ | .float _ | .int _ | .null | .record _ | .text _ | .uint _ =>
    exact leaf _ nofun

mutual

/-- What stands in the lists of a value, depth first; what is no list is its own leaf. -/
def leaves : Value → List Value
  | .list items => allLeaves items
  | v => [v]

def allLeaves : List Value → List Value
  | [] => []
  | v :: rest => leaves v ++ allLeaves rest

end

/-- Whether a value was recast to a kind: lists for lists of the same length, `null` for `null`, and
a value of the kind for every other leaf. -/
inductive Recast (kind : ValueKind) : Value → Value → Prop
  | null : Recast kind .null .null
  | leaf {v w : Value} : v ≠ .null → (∀ items, v ≠ .list items) → w.kind? = some kind →
    Recast kind v w
  | list {items others : List Value} : List.Forall₂ (Recast kind) items others →
    Recast kind (.list items) (.list others)

variable {kind : ValueKind} {v w : Value} {items others : List Value} {e : CoercionError}

theorem int?_eq_some_iff {n : Int} :
    int? n = some w ↔ ∃ k : Int64, w = .int k ∧ k.toInt = n := by
  rw [int?]
  constructor
  · intro h
    split at h
    · next hn =>
      refine ⟨Int64.ofInt n, (Option.some.inj h).symm, Int64.toInt_ofInt_of_le ?_ ?_⟩
      · simpa using hn.1
      · simpa using hn.2
    · cases h
  · rintro ⟨k, rfl, rfl⟩
    rw [if_pos ⟨by simpa using k.le_toInt, by simpa using k.toInt_lt⟩, Int64.ofInt_toInt]

theorem uint?_eq_some_iff {n : Int} :
    uint? n = some w ↔ ∃ k : UInt64, w = .uint k ∧ (k.toNat : Int) = n := by
  rw [uint?]
  constructor
  · intro h
    split at h
    · next hn =>
      refine ⟨UInt64.ofNat n.toNat, (Option.some.inj h).symm, ?_⟩
      rw [UInt64.toNat_ofNat_of_lt']
      · omega
      · simp only [UInt64.size]
        omega
    · cases h
  · rintro ⟨k, rfl, rfl⟩
    have := k.toNat_lt
    rw [if_pos (by omega), Int.toNat_natCast, UInt64.ofNat_toNat]

theorem kind?_of_int? {n : Int} (h : int? n = some v) : v.kind? = some .int := by
  obtain ⟨_, rfl, _⟩ := int?_eq_some_iff.1 h
  rfl

theorem kind?_of_uint? {n : Int} (h : uint? n = some v) : v.kind? = some .uint := by
  obtain ⟨_, rfl, _⟩ := uint?_eq_some_iff.1 h
  rfl

theorem kind?_of_ofText? {s : String} (h : ofText? s kind = some v) : v.kind? = some kind := by
  cases kind with
  | int =>
    obtain ⟨n, _, hn⟩ := Option.bind_eq_some_iff.1 h
    exact kind?_of_int? hn
  | uint =>
    obtain ⟨n, _, hn⟩ := Option.bind_eq_some_iff.1 h
    exact kind?_of_uint? hn
  | float =>
    obtain ⟨x, _, rfl⟩ := Option.map_eq_some_iff.1 h
    rfl
  | bool =>
    rw [ofText?] at h
    split at h
    · exact Option.some.inj h ▸ rfl
    · split at h
      · exact Option.some.inj h ▸ rfl
      · cases h
  | blob => exact Option.some.inj h ▸ rfl
  | list | record | text => cases h

theorem kind?_of_convert? (h : v.convert? kind = some w) : w.kind? = some kind := by
  cases v with
  | text s =>
    cases kind with
    | list => exact Option.some.inj h ▸ rfl
    | _ => exact kind?_of_ofText? (s := s) h
  | int n =>
    cases kind with
    | uint => exact kind?_of_uint? h
    | float | text | list => exact Option.some.inj h ▸ rfl
    | _ => cases h
  | uint n =>
    cases kind with
    | int => exact kind?_of_int? h
    | float | text | list => exact Option.some.inj h ▸ rfl
    | _ => cases h
  | float x =>
    cases kind with
    | int =>
      obtain ⟨n, _, hn⟩ := Option.bind_eq_some_iff.1 h
      exact kind?_of_int? hn
    | uint =>
      obtain ⟨n, _, hn⟩ := Option.bind_eq_some_iff.1 h
      exact kind?_of_uint? hn
    | text | list => exact Option.some.inj h ▸ rfl
    | _ => cases h
  | bool b =>
    cases kind with
    | int | uint | text | list => exact Option.some.inj h ▸ rfl
    | _ => cases h
  | blob _ | list _ | null | record _ =>
    cases kind with
    | list => exact Option.some.inj h ▸ rfl
    | _ => cases h

theorem coerce_self (h : v = .null ∨ v.kind? = some kind) : v.coerce kind = .ok v := by
  rcases h with rfl | h
  · rfl
  · cases v <;> simp_all [kind?, coerce]

theorem coerce_leaf (kind : ValueKind) (hnull : v ≠ .null) (hleaf : ∀ items, v ≠ .list items) :
    (v.kind? = some kind ∧ v.coerce kind = .ok v) ∨
      (∃ w, v.convert? kind = some w ∧ v.coerce kind = .ok w) ∨
      ∃ e, v.coerce kind = .error e := by
  cases v with
  | null => exact absurd rfl hnull
  | list items => exact absurd rfl (hleaf items)
  | _ =>
    simp only [coerce, kind?]
    split
    · next h => exact .inl ⟨congrArg some h, rfl⟩
    · split
      · next w hw => exact .inr (.inl ⟨w, hw, rfl⟩)
      · exact .inr (.inr ⟨_, rfl⟩)

theorem coerce_list_of_ne (hk : kind ≠ .list) (items : List Value) :
    (list items).coerce kind = (coerceItems kind items).map .list := by
  rw [coerce, if_neg hk]

theorem coerceItems_eq_ok_iff : coerceItems kind items = .ok others ↔
    List.Forall₂ (fun v w => v.coerce kind = .ok w) items others := by
  induction items generalizing others with
  | nil => simp [coerceItems, eq_comm]
  | cons v rest ih =>
    rw [coerceItems, List.forall₂_cons_left_iff]
    cases hv : v.coerce kind with
    | error e => simp
    | ok w =>
      cases hrest : coerceItems kind rest with
      | error e => simp [Except.map, ← ih, hrest]
      | ok ws =>
        constructor
        · rintro ⟨⟩
          exact ⟨w, ws, rfl, ih.1 hrest, rfl⟩
        · rintro ⟨_, us, ⟨⟩, hus, rfl⟩
          rw [Except.ok.inj (hrest.symm.trans (ih.2 hus))]
          rfl

theorem coerceItems_self (h : ∀ v ∈ items, v.coerce kind = .ok v) :
    coerceItems kind items = .ok items :=
  coerceItems_eq_ok_iff.2 (List.forall₂_same.2 h)

theorem coerceItems_eq_error_iff : coerceItems kind items = .error e ↔
    ∃ before v after, items = before ++ v :: after ∧
      (∀ u ∈ before, ∃ w, u.coerce kind = .ok w) ∧ v.coerce kind = .error e := by
  induction items with
  | nil =>
    refine iff_of_false (fun h => nomatch h) ?_
    rintro ⟨before, v, after, hsplit, _⟩
    cases before <;> cases hsplit
  | cons v rest ih =>
    rw [coerceItems]
    cases hv : v.coerce kind with
    | error cause =>
      constructor
      · rintro ⟨⟩
        exact ⟨[], v, rest, rfl, nofun, hv⟩
      · rintro ⟨before, u, after, hsplit, hbefore, herror⟩
        cases before with
        | nil =>
          obtain ⟨rfl, _⟩ := List.cons.inj hsplit
          exact congrArg Except.error (Except.error.inj (hv.symm.trans herror))
        | cons first before =>
          obtain ⟨rfl, _⟩ := List.cons.inj hsplit
          obtain ⟨w, hw⟩ := hbefore _ List.mem_cons_self
          cases hv.symm.trans hw
    | ok w =>
      have hrest : (coerceItems kind rest).map (w :: ·) = .error e ↔
          coerceItems kind rest = .error e := by
        cases coerceItems kind rest <;> simp [Except.map]
      rw [hrest, ih]
      constructor
      · rintro ⟨before, u, after, rfl, hbefore, herror⟩
        exact ⟨v :: before, u, after, rfl, List.forall_mem_cons.2 ⟨⟨w, hv⟩, hbefore⟩, herror⟩
      · rintro ⟨before, u, after, hsplit, hbefore, herror⟩
        cases before with
        | nil =>
          obtain ⟨rfl, _⟩ := List.cons.inj hsplit
          cases hv.symm.trans herror
        | cons first before =>
          obtain ⟨rfl, rfl⟩ := List.cons.inj hsplit
          exact ⟨before, u, after, rfl, (List.forall_mem_cons.1 hbefore).2, herror⟩

/-- Coercion recasts a value to the wanted kind. -/
theorem recast_of_coerce (hk : kind ≠ .list) (h : v.coerce kind = .ok w) : Recast kind v w := by
  induction v using listInduction generalizing w with
  | leaf v hleaf =>
    by_cases hnull : v = .null
    · subst hnull
      cases h
      exact .null
    · rcases coerce_leaf kind hnull hleaf with
        ⟨hkind, hok⟩ | ⟨found, hfound, hok⟩ | ⟨e, herror⟩
      · obtain rfl := Except.ok.inj (h.symm.trans hok)
        exact .leaf hnull hleaf hkind
      · obtain rfl := Except.ok.inj (h.symm.trans hok)
        exact .leaf hnull hleaf (kind?_of_convert? hfound)
      · cases h.symm.trans herror
  | list items ih =>
    rw [coerce_list_of_ne hk] at h
    cases hitems : coerceItems kind items with
    | error e => simp [hitems, Except.map] at h
    | ok others =>
      rw [hitems] at h
      obtain rfl := Except.ok.inj h
      have hall := (List.forall₂_and_left (p := fun v => ∀ w, v.coerce kind = .ok w →
        Recast kind v w) items others).2 ⟨fun v hv w => ih v hv, coerceItems_eq_ok_iff.1 hitems⟩
      exact .list (hall.imp fun v w h => h.1 w h.2)

theorem Recast.coerce_eq (hk : kind ≠ .list) (h : Recast kind v w) : w.coerce kind = .ok w := by
  induction v using listInduction generalizing w with
  | leaf v hleaf =>
    cases h with
    | null => rfl
    | leaf _ _ hkind => exact coerce_self (.inr hkind)
    | list => exact absurd rfl (hleaf _)
  | list items ih =>
    cases h with
    | leaf _ hleaf _ => exact absurd rfl (hleaf items)
    | @list _ others hall =>
      rw [coerce_list_of_ne hk, coerceItems_self fun w hw => ?_]
      · rfl
      · obtain ⟨v, hv, hrecast⟩ := exists_of_forall₂ hall.flip hw
        exact ih v hv hrecast

theorem Recast.isLeaf (hk : kind ≠ .list) (h : Recast kind v w)
    (hleaf : ∀ items, v ≠ .list items) (items : List Value) : w ≠ .list items := by
  cases h with
  | null => exact nofun
  | leaf _ _ hkind =>
    rintro rfl
    exact hk (Option.some.inj hkind).symm
  | list => exact absurd rfl (hleaf _)

theorem mem_allLeaves : w ∈ allLeaves items ↔ ∃ v ∈ items, w ∈ v.leaves := by
  induction items with
  | nil => simp [allLeaves]
  | cons v rest ih => simp [allLeaves, ih]

theorem leaves_of_isLeaf (h : ∀ items, v ≠ .list items) : v.leaves = [v] := by
  cases v with
  | list items => exact absurd rfl (h items)
  | _ => rfl

theorem coerceItems_append (xs ys : List Value) : coerceItems kind (xs ++ ys) =
    (coerceItems kind xs).bind fun us => (coerceItems kind ys).map (us ++ ·) := by
  induction xs with
  | nil =>
    rw [coerceItems, Except.bind, List.nil_append]
    cases coerceItems kind ys <;> rfl
  | cons v rest ih =>
    rw [List.cons_append, coerceItems, coerceItems, ih]
    cases v.coerce kind with
    | error e => rfl
    | ok w =>
      cases coerceItems kind rest with
      | error e => rfl
      | ok ws => cases coerceItems kind ys <;> rfl

theorem coerceItems_allLeaves
    (h : ∀ v ∈ items, coerceItems kind v.leaves = (v.coerce kind).map leaves) :
    coerceItems kind (allLeaves items) = (coerceItems kind items).map allLeaves := by
  induction items with
  | nil => rfl
  | cons v rest ih =>
    obtain ⟨hv, hrest⟩ := List.forall_mem_cons.1 h
    rw [allLeaves, coerceItems_append, hv, ih hrest, coerceItems]
    cases v.coerce kind with
    | error e => rfl
    | ok w => cases coerceItems kind rest <;> rfl

theorem coerceItems_leaves (hk : kind ≠ .list) (v : Value) :
    coerceItems kind v.leaves = (v.coerce kind).map leaves := by
  induction v using listInduction with
  | leaf v hleaf =>
    rw [leaves_of_isLeaf hleaf, coerceItems]
    cases h : v.coerce kind with
    | error e => rfl
    | ok w =>
      have hw := leaves_of_isLeaf ((recast_of_coerce hk h).isLeaf hk hleaf)
      exact congrArg Except.ok hw.symm
  | list items ih =>
    rw [leaves, coerce_list_of_ne hk, coerceItems_allLeaves ih]
    cases coerceItems kind items <;> rfl

theorem coerce_eq_error_iff (hk : kind ≠ .list) : v.coerce kind = .error e ↔
    ∃ before leaf after, v.leaves = before ++ leaf :: after ∧
      (∀ u ∈ before, ∃ w, u.coerce kind = .ok w) ∧ leaf.coerce kind = .error e := by
  rw [← coerceItems_eq_error_iff, coerceItems_leaves hk]
  cases v.coerce kind <;> simp [Except.map]

theorem exists_error_list_iff (hk : kind ≠ .list) :
    (∃ e, (list items).coerce kind = .error e) ↔ ∃ v ∈ items, ∃ e, v.coerce kind = .error e := by
  rw [coerce_list_of_ne hk]
  cases hitems : coerceItems kind items with
  | error e =>
    obtain ⟨before, v, after, rfl, _, herror⟩ := coerceItems_eq_error_iff.1 hitems
    exact iff_of_true ⟨e, rfl⟩ ⟨v, by simp, e, herror⟩
  | ok others =>
    refine iff_of_false (fun ⟨e, h⟩ => nomatch h) ?_
    rintro ⟨v, hv, e, herror⟩
    obtain ⟨w, _, hok⟩ := exists_of_forall₂ (coerceItems_eq_ok_iff.1 hitems) hv
    cases herror.symm.trans hok

theorem coerce_list_of_isLeaf (hnull : v ≠ .null) (hleaf : ∀ items, v ≠ .list items) :
    v.coerce .list = .ok (.list [v]) := by
  cases v with
  | null => exact absurd rfl hnull
  | list items => exact absurd rfl (hleaf items)
  | _ => rfl

theorem null_or_list_of_coerce (h : v.coerce .list = .ok w) :
    w = .null ∨ w.kind? = some .list := by
  cases v with
  | null => exact .inl (Except.ok.inj h).symm
  | _ => exact .inr (Except.ok.inj h ▸ rfl)

theorem exists_coerce_list (v : Value) : ∃ w, v.coerce .list = .ok w ∧ (w = .null ↔ v = .null) ∧
    (∀ items, v = .list items → w = v) ∧
    (v ≠ .null → (∀ items, v ≠ .list items) → w = .list [v]) := by
  by_cases hnull : v = .null
  · subst hnull
    exact ⟨.null, rfl, by simp, nofun, fun h => absurd rfl h⟩
  · by_cases hlist : ∃ items, v = .list items
    · obtain ⟨items, rfl⟩ := hlist
      exact ⟨.list items, coerce_self (.inr rfl), by simp, fun _ _ => rfl,
        fun _ h => absurd rfl (h items)⟩
    · rw [not_exists] at hlist
      exact ⟨.list [v], coerce_list_of_isLeaf hnull hlist, by simp [hnull],
        fun items h => absurd h (hlist items), fun _ _ => rfl⟩

/-- Coercion reaches the wanted kind, and does so once: coercing the result again changes nothing.
For a kind other than lists the result is the value recast, and a value fails as the first of its
leaves does that cannot be coerced. Aimed at a list, a value becomes the one item of a list, unless
it is one already or null. -/
theorem coerced_once (v : Value) (kind : ValueKind) :
    (∀ w, v.coerce kind = .ok w → w.coerce kind = .ok w) ∧
    (kind ≠ .list → (∀ w, v.coerce kind = .ok w → Recast kind v w) ∧
      (∀ e, v.coerce kind = .error e ↔ ∃ before leaf after, v.leaves = before ++ leaf :: after ∧
        (∀ u ∈ before, ∃ w, u.coerce kind = .ok w) ∧ leaf.coerce kind = .error e) ∧
      ∀ items, v = .list items → ((∃ e, v.coerce kind = .error e) ↔
        ∃ u ∈ items, ∃ e, u.coerce kind = .error e)) ∧
    (kind = .list → ∃ w, v.coerce kind = .ok w ∧ (w = .null ↔ v = .null) ∧
      (∀ items, v = .list items → w = v) ∧
      (v ≠ .null → (∀ items, v ≠ .list items) → w = .list [v])) := by
  refine ⟨fun w h => ?_, fun hk => ⟨fun w => recast_of_coerce hk, fun e => coerce_eq_error_iff hk,
    ?_⟩, ?_⟩
  · by_cases hk : kind = .list
    · subst hk
      exact coerce_self (null_or_list_of_coerce h)
    · exact (recast_of_coerce hk h).coerce_eq hk
  · rintro items rfl
    exact exists_error_list_iff hk
  · rintro rfl
    exact exists_coerce_list v

theorem readings_coerced :
    let readings : Value := .list [.text " 7 ", .list [.null, .uint 3], .list []]
    let faulty : Value := .list [.int 3, .list [.bool true, .text "x"], .record []]
    readings.coerce .int = .ok (.list [.int 7, .list [.null, .int 3], .list []]) ∧
    Value.coerce .int (.list [.int 7, .list [.null, .int 3], .list []]) =
      .ok (.list [.int 7, .list [.null, .int 3], .list []]) ∧
    faulty.coerce .int = .error ⟨.text, .int, "x"⟩ ∧
    (Value.text "x").coerce .list = .ok (.list [.text "x"]) := by
  intro readings faulty
  have hok : readings.coerce .int = .ok (.list [.int 7, .list [.null, .int 3], .list []]) := rfl
  have herror : (Value.text "x").coerce .int = .error ⟨.text, .int, "x"⟩ := rfl
  refine ⟨hok, (coerced_once readings .int).1 _ hok, ?_, ?_⟩
  · refine (((coerced_once faulty .int).2.1 (by decide)).2.1 _).2
      ⟨[.int 3, .bool true], .text "x", [.record []], rfl, ?_, herror⟩
    refine List.forall_mem_cons.2 ⟨⟨.int 3, rfl⟩, List.forall_mem_singleton.2 ⟨.int 1, rfl⟩⟩
  · obtain ⟨w, hw, _, _, hleaf⟩ := (coerced_once (.text "x") .list).2.2 rfl
    rw [hw, hleaf (by simp) (by simp)]

end RecordMapping.Value
