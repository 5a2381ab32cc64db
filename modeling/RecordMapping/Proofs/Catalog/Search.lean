import RecordMapping.Proofs.Catalog.Consistent
/-!
The search behind a layout, as calls that follow the flattened fields from type to type. It never
enters a type that it is in already, so the calls that are open at one time are no more than the
registered types. That holds whether or not the types are accepted, and it finds what the layouts
are made of.
-/
namespace RecordMapping

namespace LayoutItem

mutual

def height : LayoutItem → Nat
  | .stored _ => 0
  | .group _ _ items => heightOfAll items + 1
  | .detached _ => 0

def heightOfAll : List LayoutItem → Nat
  | [] => 0
  | item :: rest => max (height item) (heightOfAll rest)

end

theorem heightOfAll_le_of_expand {types : List EntityMetadata} (free seen : List String)
    (fields : List FieldDescriptor) {items : List LayoutItem}
    (h : expand types free seen fields = .ok items) : heightOfAll items ≤ free.length := by
  match fields with
  | [] =>
    rw [expand_nil] at h
    obtain rfl := Except.ok.inj h
    exact Nat.zero_le _
  | f :: rest =>
    cases hf : f.isFlattened with
    | false =>
      obtain ⟨_, others, rfl, ho⟩ := expand_stored hf h
      have hrest := heightOfAll_le_of_expand free _ rest ho
      simpa [heightOfAll, height] using hrest
    | true =>
      rcases expand_flattened hf h with
        ⟨_, others, rfl, ho⟩ | ⟨m, own, others, _, hfree, rfl, hown, ho⟩
      · have hrest := heightOfAll_le_of_expand free seen rest ho
        simpa [heightOfAll, height] using hrest
      · have hlength := List.length_erase_add_one hfree
        have hdown := heightOfAll_le_of_expand (free.erase m.type) seen m.fields hown
        have hrest := heightOfAll_le_of_expand free _ rest ho
        rw [heightOfAll, height]
        omega
termination_by (free.length, fields.length)

end LayoutItem

namespace Catalog

open LayoutItem EntityMetadata

/-- The names that fields add to those in `seen`, or what is declared twice by their owner. The
types on the path are not entered again; `deeper` enters another type. -/
def collectFields (types : List EntityMetadata) (owner : String) (path : List String)
    (deeper : EntityMetadata → List String → Option (Except CatalogError (List String))) :
    List String → List FieldDescriptor → Option (Except CatalogError (List String))
  | seen, [] => some (.ok seen)
  | seen, f :: rest =>
    if f.isFlattened then
      match f.target.bind fun t => types.find? (·.type == t) with
      | none => collectFields types owner path deeper seen rest
      | some m =>
        if m.type ∈ path then some (.error (.duplicateField owner f.name))
        else
          match deeper m seen with
          | some (.ok seen) => collectFields types owner path deeper seen rest
          | stopped => stopped
    else if f.nativeName ∈ seen then some (.error (.duplicateField owner f.nativeName))
    else collectFields types owner path deeper (seen ++ [f.nativeName]) rest

/-- The search in at most the given number of calls inside each other; without an answer if they
are too few. -/
def collectTo (types : List EntityMetadata) (owner : String) :
    Nat → List String → EntityMetadata → List String → Option (Except CatalogError (List String))
  | 0, _, _, _ => none
  | depth + 1, path, m, seen =>
    collectFields types owner path (fun t => collectTo types owner depth (path ++ [t.type]) t)
      seen m.fields

def collected (owner : String) (seen : List String) :
    Except String (List LayoutItem) → Except CatalogError (List String)
  | .ok items => .ok (seen ++ LayoutItem.allNames items)
  | .error field => .error (.duplicateField owner field)

variable {types : List EntityMetadata}

theorem collectFields_eq (owner : String) (free path seen : List String)
    (fields : List FieldDescriptor) {depth : Nat} (hdepth : free.length ≤ depth)
    (hfree : free.Nodup) (hpath : ∀ m ∈ types, m.type ∈ free ↔ m.type ∉ path) :
    collectFields types owner path
        (fun t => collectTo types owner depth (path ++ [t.type]) t) seen fields =
      some (collected owner seen (expand types free seen fields)) := by
  match fields with
  | [] => simp [collectFields, expand_nil, collected, LayoutItem.allNames]
  | f :: rest =>
    rw [collectFields, expand]
    cases hf : f.isFlattened with
    | false =>
      simp only [Bool.false_eq_true, if_false]
      by_cases hseen : f.nativeName ∈ seen
      · simp [hseen, collected]
      · have hrest := collectFields_eq owner free path (seen ++ [f.nativeName]) rest hdepth hfree
          hpath
        rw [if_neg hseen, if_neg hseen, hrest]
        cases expand types free (seen ++ [f.nativeName]) rest <;>
          simp [Except.map, collected, LayoutItem.allNames, names]
    | true =>
      simp only [if_true]
      cases ht : f.target.bind fun t => types.find? (·.type == t) with
      | none =>
        simp only [collectFields_eq owner free path seen rest hdepth hfree hpath]
        cases expand types free seen rest <;>
          simp [Except.map, collected, LayoutItem.allNames, names]
      | some m =>
        obtain ⟨t, _, hfind⟩ := Option.bind_eq_some_iff.1 ht
        have hm := hpath m (List.mem_of_find?_eq_some hfind)
        by_cases hmfree : m.type ∈ free
        · -- The call for `m` has one type fewer to enter and one call fewer to do it in.
          have hlength := List.length_erase_add_one hmfree
          obtain ⟨depth, rfl⟩ : ∃ d, depth = d + 1 := ⟨depth - 1, by omega⟩
          have hdown : collectTo types owner (depth + 1) (path ++ [m.type]) m seen =
              some (collected owner seen (expand types (free.erase m.type) seen m.fields)) := by
            refine collectFields_eq owner (free.erase m.type) (path ++ [m.type]) seen m.fields
              (by omega) (hfree.erase m.type) fun x hx => ?_
            rw [hfree.mem_erase_iff, hpath x hx]
            simp [and_comm]
          simp only [if_neg (hm.1 hmfree), dif_pos hmfree, hdown]
          cases expand types (free.erase m.type) seen m.fields with
          | error field => simp [collected]
          | ok own =>
            simp only [collected]
            rw [collectFields_eq owner free path (seen ++ LayoutItem.allNames own) rest hdepth
              hfree hpath]
            cases expand types free (seen ++ LayoutItem.allNames own) rest <;>
              simp [Except.map, collected, LayoutItem.allNames, names]
        · have hmem : m.type ∈ path := not_not.1 fun h => hmfree (hm.2 h)
          simp [hmem, hmfree, collected]
termination_by (free.length, fields.length)

theorem nodup_of_register {policy : EmbeddedPolicy} {given : List EntityMetadata}
    (h : register policy [] given = .ok types) : (types.map (·.type)).Nodup := by
  obtain ⟨_, hapart, _⟩ := (register_eq_ok_iff List.Pairwise.nil).1 h
  rw [List.Nodup, List.pairwise_map]
  exact hapart.imp fun h => h.1

/-- As many calls as there are types are enough to lay out any of them, or to refuse it. -/
theorem collectTo_eq (hn : (types.map (·.type)).Nodup) {m : EntityMetadata} (hm : m ∈ types)
    {depth : Nat} (hdepth : types.length ≤ depth) :
    collectTo types m.type depth [m.type] m (discriminatorNames m) =
      some ((entryOf types m).map fun x =>
        discriminatorNames m ++ LayoutItem.allNames x.items) := by
  have hmem : m.type ∈ types.map (·.type) := List.mem_map_of_mem hm
  have hlength := List.length_erase_add_one hmem
  rw [List.length_map] at hlength
  obtain ⟨depth, rfl⟩ : ∃ d, depth = d + 1 := ⟨depth - 1, by omega⟩
  rw [collectTo, collectFields_eq m.type _ [m.type] _ m.fields (by omega) (hn.erase m.type)
    fun x hx => ?_]
  · rw [entryOf, discriminatorNames]
    cases expand types ((types.map (·.type)).erase m.type)
      (m.inheritance.map (·.discriminator)).toList m.fields <;> rfl
  · rw [hn.mem_erase_iff]
    simp [List.mem_map_of_mem hx]

theorem exists_entryOf {given : List EntityMetadata} {entries : List CatalogEntry}
    (h : entriesOf types given = .ok entries) {x : CatalogEntry} (hx : x ∈ entries) :
    ∃ m ∈ given, entryOf types m = .ok x := by
  induction given generalizing entries with
  | nil =>
    obtain rfl := Except.ok.inj h
    cases hx
  | cons m rest ih =>
    rw [entriesOf] at h
    cases hm : entryOf types m with
    | error e => simp [hm, bind, Except.bind] at h
    | ok y =>
      cases hr : entriesOf types rest with
      | error e => simp [hm, hr, bind, Except.bind] at h
      | ok others =>
        simp only [hm, hr, bind, Except.bind, pure, Except.pure] at h
        obtain rfl := Except.ok.inj h
        rcases List.mem_cons.1 hx with rfl | hx
        · exact ⟨m, List.mem_cons_self, hm⟩
        · obtain ⟨n, hn, hxn⟩ := ih hr hx
          exact ⟨n, List.mem_cons_of_mem m hn, hxn⟩

theorem heightOfAll_lt_of_build {settings : Settings} {given : List EntityMetadata} {c : Catalog}
    (h : build settings given = .ok c) {x : CatalogEntry} (hx : x ∈ c.entries) :
    heightOfAll x.items < c.entries.length := by
  obtain ⟨all, _, _, hentries, _⟩ := build_eq_ok_iff.1 h
  have hlength := congrArg List.length (entriesOf_spec hentries).1
  obtain ⟨m, hm, hxm⟩ := exists_entryOf hentries hx
  have herase := List.length_erase_add_one (List.mem_map_of_mem hm : m.type ∈ all.map (·.type))
  simp only [List.length_map] at hlength herase
  rw [entryOf] at hxm
  split at hxm
  · next items hitems =>
    obtain rfl := Except.ok.inj hxm
    exact Nat.lt_of_le_of_lt (heightOfAll_le_of_expand _ _ _ hitems) (by omega)
  · cases hxm

end Catalog
end RecordMapping
