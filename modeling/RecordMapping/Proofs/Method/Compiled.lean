import RecordMapping.Proofs.Lookup
import RecordMapping.Proofs.Method.Parts
import RecordMapping.Repository
/-!
Compiled methods: a table answers for every name that was compiled, and what a template knows of
the fields of its type is what the metadata says.
-/
namespace RecordMapping

open RecordMapping.Method

namespace EntityMetadata

def renames (m : EntityMetadata) : List (Named String) :=
  ((m.fields.filter fun f => f.name != f.nativeName).map fun f => ⟨f.name, f.nativeName⟩).reverse

variable {m : EntityMetadata}

theorem field?_of_mem (hn : (m.fields.map (·.name)).Nodup) {f : FieldDescriptor}
    (hf : f ∈ m.fields) : m.field? f.name = some f :=
  (find?_key_iff hn).2 ⟨hf, rfl⟩

theorem mem_renames {name native : String} : ⟨name, native⟩ ∈ m.renames ↔
    ∃ f ∈ m.fields, f.name = name ∧ f.nativeName = native ∧ name ≠ native := by
  simp only [renames, List.mem_reverse, List.mem_map, List.mem_filter, bne_iff_ne, ne_eq,
    Named.mk.injEq]
  constructor
  · rintro ⟨f, ⟨hf, hne⟩, rfl, rfl⟩
    exact ⟨f, hf, rfl, rfl, hne⟩
  · rintro ⟨f, hf, rfl, rfl, hne⟩
    exact ⟨f, ⟨hf, hne⟩, rfl, rfl⟩

theorem lookup_renames (hn : (m.fields.map (·.name)).Nodup) (name : String) :
    (Named.lookup name m.renames).getD name = m.nativeName name := by
  rw [nativeName]
  cases hl : Named.lookup name m.renames with
  | some native =>
    obtain ⟨f, hf, rfl, rfl, _⟩ := mem_renames.1 (Named.mem_of_lookup hl)
    rw [field?_of_mem hn hf]
    rfl
  | none =>
    cases hf : m.field? name with
    | none => rfl
    | some f =>
      have hname : f.name = name := by simpa using List.find?_some hf
      by_contra hne
      refine Named.lookup_eq_none_iff.1 hl (List.mem_map.2 ⟨⟨name, f.nativeName⟩, ?_, rfl⟩)
      exact mem_renames.2 ⟨f, List.mem_of_find?_eq_some hf, hname, rfl, hne⟩

end EntityMetadata

namespace Method.Template

variable {method : String} {metadata : EntityMetadata} {settings : Settings} {t : Template}

theorem compile_eq_ok_iff : compile method metadata settings = .ok t ↔
    ∃ name, Name.parse method metadata settings.strictFieldCase = .ok name ∧
      t = ⟨method, metadata.collection, name, metadata.renames, settings.coerceArguments⟩ := by
  rw [compile]
  cases Name.parse method metadata settings.strictFieldCase with
  | error e => simp [bind, Except.bind]
  | ok name =>
    simp only [bind, Except.bind, pure, Except.pure, Except.ok.injEq, exists_eq_left']
    exact eq_comm

theorem method_of_compile (h : compile method metadata settings = .ok t) : t.method = method := by
  obtain ⟨name, _, rfl⟩ := compile_eq_ok_iff.1 h
  rfl

theorem collection_of_compile (h : compile method metadata settings = .ok t) :
    t.collection = metadata.collection := by
  obtain ⟨name, _, rfl⟩ := compile_eq_ok_iff.1 h
  rfl

theorem describes_of_compile (h : compile method metadata settings = .ok t) :
    ∀ c ∈ t.name.clauses, ∃ f ∈ metadata.fields, c.Describes f := by
  obtain ⟨name, hname, rfl⟩ := compile_eq_ok_iff.1 h
  exact Name.describes_of_parse hname

theorem native_of_compile (hn : (metadata.fields.map (·.name)).Nodup)
    (h : compile method metadata settings = .ok t) {c : Clause} (hc : c ∈ t.name.clauses)
    {f : FieldDescriptor} (hf : f ∈ metadata.fields) (hname : f.name = c.field) :
    c.native = f.nativeName := by
  obtain ⟨g, hg, hgname, hgnative, _⟩ := describes_of_compile h c hc
  have hfound := EntityMetadata.field?_of_mem hn hf
  rw [hname, hgname, EntityMetadata.field?_of_mem hn hg] at hfound
  rw [hgnative, Option.some.inj hfound]

theorem nativeSort_of_compile (hn : (metadata.fields.map (·.name)).Nodup)
    (h : compile method metadata settings = .ok t) (s : SortKey) :
    t.nativeSort s = { s with name := metadata.nativeName s.name } := by
  obtain ⟨name, _, rfl⟩ := compile_eq_ok_iff.1 h
  rw [nativeSort, ← EntityMetadata.lookup_renames hn]
  cases Named.lookup s.name metadata.renames <;> rfl

end Method.Template

namespace MethodTable

variable {metadata : EntityMetadata} {settings : Settings} {table : MethodTable}

theorem lookup_insert (method name : String) (t : Template) (table : MethodTable) :
    Named.lookup name (insert method t table) =
      if method = name then some t else Named.lookup name table := by
  induction table with
  | nil => simp [insert, Named.lookup]
  | cons first rest ih =>
    rw [insert]
    split
    · next heq => by_cases h : method = name <;> simp [Named.lookup, h, ← heq]
    · next hne =>
      split
      · simp [Named.lookup]
      · by_cases h : first.name = name
        · simp [Named.lookup, h, show method ≠ name from fun hm => hne (hm.trans h.symm)]
        · simp [Named.lookup, h, ih]

theorem lookup_of_compile {methods : List String}
    (h : compile metadata settings methods = .ok table) {name : String} {t : Template} :
    Named.lookup name table = some t ↔
      name ∈ methods ∧ Template.compile name metadata settings = .ok t := by
  suffices hfold : ∀ start : MethodTable,
      methods.foldlM (fun table method => do
        let t ← Template.compile method metadata settings
        return insert method t table) start = .ok table →
      (Named.lookup name table = some t ↔
        (name ∈ methods ∧ Template.compile name metadata settings = .ok t) ∨
          (name ∉ methods ∧ Named.lookup name start = some t)) by
    simpa [Named.lookup] using hfold [] h
  clear h
  induction methods with
  | nil =>
    intro start h
    obtain rfl := Except.ok.inj h
    simp
  | cons method rest ih =>
    intro start h
    rw [List.foldlM_cons] at h
    cases ht : Template.compile method metadata settings with
    | error e => simp [ht, bind, Except.bind] at h
    | ok u =>
      simp only [ht, bind, Except.bind, pure, Except.pure] at h
      rw [ih _ h, lookup_insert]
      by_cases hin : name ∈ rest
      · simp [hin]
      · by_cases hname : method = name
        · subst hname
          simp [hin, ht]
        · simp [hin, hname, Ne.symm hname]

theorem exists_compile {methods : List String}
    (h : ∀ method ∈ methods, ∃ t, Template.compile method metadata settings = .ok t) :
    ∃ table, compile metadata settings methods = .ok table := by
  suffices hfold : ∀ start : MethodTable, ∃ table,
      methods.foldlM (fun table method => do
        let t ← Template.compile method metadata settings
        return insert method t table) start = .ok table from hfold []
  induction methods with
  | nil => exact fun start => ⟨start, rfl⟩
  | cons method rest ih =>
    intro start
    obtain ⟨t, ht⟩ := h method List.mem_cons_self
    obtain ⟨table, htable⟩ := ih (fun other ho => h other (List.mem_cons_of_mem _ ho))
      (insert method t start)
    refine ⟨table, ?_⟩
    rw [List.foldlM_cons, ht]
    exact htable

end MethodTable

namespace Repository

variable {m : Mapping} {type : String} {r : Repository}

theorem connect_eq_ok_iff {methods : List String} : connect m type methods = .ok r ↔
    r.mapping = m ∧ m.catalog.entry? type = some r.entry ∧
      MethodTable.compile r.metadata m.catalog.settings methods = .ok r.methods := by
  obtain ⟨mapping, entry, table⟩ := r
  cases hx : m.catalog.entry? type with
  | none => simp [connect, Mapping.entry, hx, Except.mapError, bind, Except.bind]
  | some x =>
    cases ht : MethodTable.compile x.metadata m.catalog.settings methods with
    | error e =>
      simp only [connect, Mapping.entry, hx, ht, Except.mapError, bind, Except.bind, reduceCtorEq,
        false_iff, Option.some.injEq]
      rintro ⟨_, rfl, h⟩
      rw [metadata, ht] at h
      cases h
    | ok compiled =>
      simp only [connect, Mapping.entry, hx, ht, Except.mapError, bind, Except.bind, pure,
        Except.pure, Except.ok.injEq, mk.injEq, Option.some.injEq]
      constructor
      · rintro ⟨rfl, rfl, rfl⟩
        exact ⟨rfl, rfl, ht⟩
      · rintro ⟨rfl, rfl, h⟩
        exact ⟨rfl, rfl, Except.ok.inj (ht.symm.trans h)⟩

end Repository
end RecordMapping
