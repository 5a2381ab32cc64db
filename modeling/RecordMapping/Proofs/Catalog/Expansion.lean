import RecordMapping.Proofs.Catalog.Layout
import RecordMapping.Proofs.Lookup
import Mathlib.Data.List.Chain
/-!
What flattened fields stand for, said without the search that expands them: the names of the types
that they lead to. The search finds these names exactly if no type is met again on the way down and
no name is taken twice.
-/
namespace RecordMapping

def EntityMetadata.Flattens (types : List EntityMetadata) (a b : EntityMetadata) : Prop :=
  b ∈ types ∧ ∃ f ∈ a.fields, f.isFlattened = true ∧ f.target = some b.type

def EntityMetadata.Descends (types : List EntityMetadata) (m : EntityMetadata) : Prop :=
  ∀ path, (m :: path).IsChain (Flattens types) → ((m :: path).map (·.type)).Nodup

theorem EntityMetadata.Descends.mono {types others : List EntityMetadata}
    (h : ∀ m ∈ others, m ∈ types) {m : EntityMetadata} (hd : m.Descends types) :
    m.Descends others :=
  fun path hpath => hd path (hpath.imp fun _ b hstep => ⟨h b hstep.1, hstep.2⟩)

namespace LayoutItem

open EntityMetadata

/-- The names that fields stand for when the fields of its type are put in the place of each
flattened field; one without a type stands for nothing. -/
inductive Expands (types : List EntityMetadata) : List FieldDescriptor → List String → Prop
  | nil : Expands types [] []
  | own {f : FieldDescriptor} {rest : List FieldDescriptor} {names : List String} :
    f.isFlattened = false → Expands types rest names →
    Expands types (f :: rest) (f.nativeName :: names)
  | bare {f : FieldDescriptor} {rest : List FieldDescriptor} {names : List String} :
    f.isFlattened = true → f.target = none → Expands types rest names →
    Expands types (f :: rest) names
  | flattened {f : FieldDescriptor} {rest : List FieldDescriptor} {m : EntityMetadata}
      {inner names : List String} :
    f.isFlattened = true → m ∈ types → f.target = some m.type → Expands types m.fields inner →
    Expands types rest names → Expands types (f :: rest) (inner ++ names)

variable {types : List EntityMetadata}

theorem Expands.mono {others : List EntityMetadata} (h : ∀ m ∈ types, m ∈ others)
    {fields : List FieldDescriptor} {names : List String} (he : Expands types fields names) :
    Expands others fields names := by
  induction he with
  | nil => exact .nil
  | own hflat _ ih => exact .own hflat ih
  | bare hflat hnone _ ih => exact .bare hflat hnone ih
  | flattened hflat hm htarget _ _ ihinner ih => exact .flattened hflat (h _ hm) htarget ihinner ih

def TargetsIn (types : List EntityMetadata) (fields : List FieldDescriptor) : Prop :=
  ∀ f ∈ fields, ∀ t, f.target = some t → ∃ x ∈ types, x.type = t

mutual

theorem expands_of_describes (hc : ∀ m ∈ types, TargetsIn types m.fields) (item : LayoutItem)
    {f : FieldDescriptor} (hf : TargetsIn types [f]) (hd : item.Describes types f)
    {rest : List FieldDescriptor} {names : List String} (hrest : Expands types rest names) :
    Expands types (f :: rest) (item.names ++ names) := by
  match item with
  | .stored g =>
    obtain ⟨rfl, hflat⟩ := hd
    rw [LayoutItem.names]
    exact .own hflat hrest
  | .detached g =>
    obtain ⟨rfl, hflat, hnone⟩ := hd
    have htarget : g.target = none := by
      cases ht : g.target with
      | none => rfl
      | some t =>
        obtain ⟨x, hx, he⟩ := hf g List.mem_cons_self t ht
        rw [ht, Option.bind_some, List.find?_eq_none] at hnone
        exact absurd (beq_iff_eq.2 he) (hnone x hx)
    rw [LayoutItem.names]
    exact .bare hflat htarget hrest
  | .group g m items =>
    obtain ⟨rfl, hflat, hm, hitems⟩ := hd
    obtain ⟨t, ht, hfind⟩ := Option.bind_eq_some_iff.1 hm
    have hmem := List.mem_of_find?_eq_some hfind
    have htype : m.type = t := by simpa using List.find?_some hfind
    rw [LayoutItem.names]
    exact .flattened hflat hmem (htype ▸ ht)
      (expands_of_describesAll hc items (hc m hmem) hitems) hrest

theorem expands_of_describesAll (hc : ∀ m ∈ types, TargetsIn types m.fields)
    (items : List LayoutItem) {fields : List FieldDescriptor} (hf : TargetsIn types fields)
    (hd : DescribesAll types items fields) : Expands types fields (allNames items) := by
  match items, fields with
  | [], [] => exact .nil
  | [], _ :: _ => exact hd.elim
  | _ :: _, [] => exact hd.elim
  | item :: rest, f :: fields =>
    rw [allNames]
    refine expands_of_describes hc item (fun g hg => ?_) hd.1
      (expands_of_describesAll hc rest (fun g hg => hf g (List.mem_cons_of_mem f hg)) hd.2)
    exact hf g (List.mem_singleton.1 hg ▸ List.mem_cons_self)

end

def StaysWithin (types : List EntityMetadata) (free : List String)
    (fields : List FieldDescriptor) : Prop :=
  ∀ f ∈ fields, f.isFlattened = true → ∀ m ∈ types, f.target = some m.type → ∀ path,
    (m :: path).IsChain (Flattens types) →
      (∀ x ∈ m :: path, x.type ∈ free) ∧ ((m :: path).map (·.type)).Nodup

theorem type_ne_of_nodup {m : EntityMetadata} {path : List EntityMetadata}
    (h : ((m :: path).map (·.type)).Nodup) {x : EntityMetadata} (hx : x ∈ path) :
    x.type ≠ m.type := by
  intro he
  have hmem : x.type ∈ path.map (·.type) := List.mem_map_of_mem hx
  rw [he] at hmem
  exact (List.nodup_cons.1 h).1 hmem

theorem mem_of_isChain {m : EntityMetadata} {path : List EntityMetadata}
    (h : (m :: path).IsChain (Flattens types)) : ∀ x ∈ path, x ∈ types := by
  induction path generalizing m with
  | nil => simp
  | cons t rest ih =>
    obtain ⟨hstep, hrest⟩ := List.isChain_cons_cons.1 h
    intro x hx
    rcases List.mem_cons.1 hx with rfl | hx
    · exact hstep.1
    · exact ih hrest x hx

theorem descends_iff_staysWithin (hn : (types.map (·.type)).Nodup) {m : EntityMetadata} :
    m.Descends types ↔ StaysWithin types ((types.map (·.type)).erase m.type) m.fields := by
  constructor
  · intro h f hf hflat t ht htarget path hpath
    have hdown := h (t :: path) (List.isChain_cons_cons.2 ⟨⟨ht, f, hf, hflat, htarget⟩, hpath⟩)
    refine ⟨fun x hx => ?_, (List.nodup_cons.1 hdown).2⟩
    have hmem : x ∈ types := by
      rcases List.mem_cons.1 hx with rfl | hx
      · exact ht
      · exact mem_of_isChain hpath x hx
    exact (List.mem_erase_of_ne (type_ne_of_nodup hdown hx)).2 (List.mem_map_of_mem hmem)
  · intro h path hpath
    cases path with
    | nil => simp
    | cons t rest =>
      obtain ⟨⟨ht, f, hf, hflat, htarget⟩, hrest⟩ := List.isChain_cons_cons.1 hpath
      obtain ⟨hfree, hdistinct⟩ := h f hf hflat t ht htarget rest hrest
      refine List.nodup_cons.2 ⟨fun hmem => ?_, hdistinct⟩
      obtain ⟨x, hx, he⟩ := List.mem_map.1 hmem
      exact hn.not_mem_erase (he ▸ hfree x hx)

theorem staysWithin_of_expand (hn : (types.map (·.type)).Nodup) (free seen : List String)
    (fields : List FieldDescriptor) {items : List LayoutItem}
    (h : expand types free seen fields = .ok items) (hfree : free.Nodup) :
    StaysWithin types free fields := by
  match fields with
  | [] => exact fun f hf => absurd hf List.not_mem_nil
  | f :: rest =>
    intro g hg hflat t ht htarget path hpath
    cases hf : f.isFlattened with
    | false =>
      obtain ⟨_, others, _, ho⟩ := expand_stored hf h
      rcases List.mem_cons.1 hg with rfl | hg
      · rw [hf] at hflat
        cases hflat
      · exact staysWithin_of_expand hn free _ rest ho hfree g hg hflat t ht htarget path hpath
    | true =>
      rcases expand_flattened hf h with
        ⟨hnone, others, _, ho⟩ | ⟨m, own, others, hfound, hm, _, hown, ho⟩
      · rcases List.mem_cons.1 hg with rfl | hg
        · rw [htarget, Option.bind_some, (find?_key_iff hn).2 ⟨ht, rfl⟩] at hnone
          cases hnone
        · exact staysWithin_of_expand hn free _ rest ho hfree g hg hflat t ht htarget path hpath
      · rcases List.mem_cons.1 hg with rfl | hg
        · rw [htarget, Option.bind_some, (find?_key_iff hn).2 ⟨ht, rfl⟩] at hfound
          obtain rfl := Option.some.inj hfound
          have : (free.erase t.type).length < free.length := by
            rw [List.length_erase_of_mem hm]
            have := List.length_pos_of_mem hm
            omega
          have hbelow := staysWithin_of_expand hn (free.erase t.type) seen t.fields hown
            (hfree.erase t.type)
          cases path with
          | nil => simpa using hm
          | cons u path =>
            obtain ⟨⟨hu, k, hk, hkflat, hktarget⟩, hrest⟩ := List.isChain_cons_cons.1 hpath
            obtain ⟨hin, hdistinct⟩ := hbelow k hk hkflat u hu hktarget path hrest
            refine ⟨fun x hx => ?_, List.nodup_cons.2 ⟨fun hmem => ?_, hdistinct⟩⟩
            · rcases List.mem_cons.1 hx with rfl | hx
              · exact hm
              · exact List.mem_of_mem_erase (hin x hx)
            · obtain ⟨x, hx, he⟩ := List.mem_map.1 hmem
              exact hfree.not_mem_erase (he ▸ hin x hx)
        · exact staysWithin_of_expand hn free _ rest ho hfree g hg hflat t ht htarget path hpath
termination_by (free.length, fields.length)

theorem exists_expand (hn : (types.map (·.type)).Nodup) {fields : List FieldDescriptor}
    {names : List String} (h : Expands types fields names) {free seen : List String}
    (hseen : (seen ++ names).Nodup) (hfree : StaysWithin types free fields) :
    ∃ items, expand types free seen fields = .ok items ∧ allNames items = names := by
  induction h generalizing free seen with
  | nil => exact ⟨[], expand_nil free seen, rfl⟩
  | @own f rest names hflat _ ih =>
    have hfresh : f.nativeName ∉ seen := fun hmem =>
      (List.nodup_append.1 hseen).2.2 _ hmem _ List.mem_cons_self rfl
    obtain ⟨items, hitems, hnames⟩ := @ih free (seen ++ [f.nativeName]) (by simpa using hseen)
      fun g hg => hfree g (List.mem_cons_of_mem f hg)
    refine ⟨.stored f :: items, ?_, by simp [allNames, LayoutItem.names, hnames]⟩
    rw [expand, if_neg (by simp [hflat]), if_neg hfresh, hitems]
    rfl
  | @bare f rest names hflat hnone _ ih =>
    obtain ⟨items, hitems, hnames⟩ := ih hseen fun g hg => hfree g (List.mem_cons_of_mem f hg)
    refine ⟨.detached f :: items, ?_, by simp [allNames, LayoutItem.names, hnames]⟩
    rw [expand, if_pos hflat, hnone]
    simp only [Option.bind_none, hitems]
    rfl
  | @flattened f rest m inner names hflat hm htarget _ _ ihinner ih =>
    have hdown := hfree f List.mem_cons_self hflat m hm htarget
    have hmfree : m.type ∈ free := (hdown [] (List.isChain_singleton m)).1 m List.mem_cons_self
    have hbelow : StaysWithin types (free.erase m.type) m.fields := by
      intro g hg hgflat t ht hgtarget path hpath
      obtain ⟨hin, hdistinct⟩ :=
        hdown (t :: path) (List.isChain_cons_cons.2 ⟨⟨ht, g, hg, hgflat, hgtarget⟩, hpath⟩)
      refine ⟨fun x hx => ?_, (List.nodup_cons.1 hdistinct).2⟩
      exact (List.mem_erase_of_ne (type_ne_of_nodup hdistinct hx)).2
        (hin x (List.mem_cons_of_mem m hx))
    rw [← List.append_assoc] at hseen
    obtain ⟨own, hown, hinner⟩ := ihinner (List.nodup_append.1 hseen).1 hbelow
    obtain ⟨items, hitems, hnames⟩ := ih hseen fun g hg => hfree g (List.mem_cons_of_mem f hg)
    refine ⟨.group f m own :: items, ?_, by simp [allNames, LayoutItem.names, hinner, hnames]⟩
    rw [expand, if_pos hflat, htarget, Option.bind_some, (find?_key_iff hn).2 ⟨hm, rfl⟩]
    simp only [dif_pos hmfree, hown, hinner, hitems]
    rfl

end LayoutItem
end RecordMapping
