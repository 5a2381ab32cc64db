import RecordMapping.Proofs.Catalog.Consistent
import RecordMapping.Proofs.Method.Assembly
import RecordMapping.Proofs.Method.Compiled
import RecordMapping.Proofs.Session
import RecordMapping.Store.Script
/-!
Two ways to list the entities of a repository: page by page, and by the method `findAll` with a
page as its argument. The method takes the sorts of the page for names of fields, and the listing
takes them for names of attributes.
-/
namespace RecordMapping

open RecordMapping.Method

namespace Pageable

/-- The page with the attributes that its sorts are stored under in place of the fields. -/
def native (m : EntityMetadata) (p : Pageable) : Pageable :=
  { p with sorts := p.sorts.map fun s => { s with name := m.nativeName s.name } }

theorem native_sorts_eq_iff {m : EntityMetadata} {p : Pageable} :
    (p.native m).sorts = p.sorts ↔ ∀ s ∈ p.sorts, m.nativeName s.name = s.name := by
  have hid := List.map_inj_left (l := p.sorts)
    (f := fun s => { s with name := m.nativeName s.name }) (g := id)
  rw [List.map_id] at hid
  refine hid.trans (forall₂_congr fun s _ => ?_)
  obtain ⟨name, direction⟩ := s
  simp

theorem native_eq_self {m : EntityMetadata} {p : Pageable} (h : (p.native m).sorts = p.sorts) :
    p.native m = p :=
  congrArg (fun sorts => ({ p with sorts := sorts } : Pageable)) h

end Pageable

namespace Repository

variable {σ : Type} {m : Mapping} {type : String} {r : Repository}

theorem exists_connect_findAll {x : CatalogEntry} (hx : m.catalog.entry? type = some x) :
    ∃ r, connect m type ["findAll"] = .ok r := by
  let t : Template := ⟨"findAll", x.metadata.collection, ⟨.find, [], []⟩, x.metadata.renames,
    m.catalog.settings.coerceArguments⟩
  exact ⟨⟨m, x, [⟨"findAll", t⟩]⟩, connect_eq_ok_iff.2 ⟨rfl, hx, rfl⟩⟩

theorem assemble_findAll {metadata : EntityMetadata} {settings : Settings} {t : Template}
    (hn : (metadata.fields.map (·.name)).Nodup)
    (h : Template.compile "findAll" metadata settings = .ok t) (p : Pageable) :
    t.assemble [.page p] = .ok ⟨.find,
      { Query.ofCollection metadata.collection with
        sorts := (p.native metadata).sorts, skip := p.skip, limit := p.size }, some p⟩ := by
  have hsorts : p.sorts.map t.nativeSort = (p.native metadata).sorts :=
    List.map_congr_left fun s _ => Template.nativeSort_of_compile hn h s
  obtain ⟨name, hname, rfl⟩ := Template.compile_eq_ok_iff.1 h
  obtain rfl : (⟨.find, [], []⟩ : Name) = name := Except.ok.inj hname
  refine Template.assemble_eq_ok_iff.2 ⟨rfl, [], rfl, ?_⟩
  rw [← hsorts]
  rfl

theorem invoke_findAll {methods : List String} (hr : connect m type methods = .ok r)
    (hmem : "findAll" ∈ methods) (hn : (r.metadata.fields.map (·.name)).Nodup)
    (store : Store σ) (p : Pageable) : r.invoke store ⟨"findAll", [.page p]⟩ =
      (fun page => .page ⟨page.content, p⟩) <$> r.findAll store (p.native r.metadata) := by
  obtain ⟨_, _, htable⟩ := connect_eq_ok_iff.1 hr
  obtain ⟨t, hcompile⟩ : ∃ t, Template.compile "findAll" r.metadata m.catalog.settings = .ok t :=
    ⟨_, Template.compile_eq_ok_iff.2 ⟨_, rfl, rfl⟩⟩
  have ht := (MethodTable.lookup_of_compile htable).2 ⟨hmem, hcompile⟩
  simp only [invoke, ht, assemble_findAll hn hcompile p, Session.ofQuery_ok_bind]
  simp only [run, findAll, map_bind, map_pure]
  rfl

def noAnswers : Script.State × List StoreCall :=
  (⟨[], [], [], []⟩, [])

theorem calls_findAll {α : Type} (f : Page Entity → α) (p : Pageable) :
    ((f <$> r.findAll Script.store.journaled p).answer noAnswers).2.2 = [.select
      { r.collectionQuery none with sorts := p.sorts, skip := p.skip, limit := p.size }] := rfl

/-- Listing a page and calling `findAll` with it agree in every store, in what they ask for and in
what they answer, exactly if every sort of the page names an attribute by its own name: a field that
is stored under another name is ordered by in the method alone. -/
theorem findAll_agrees_iff {settings : Settings} {given : List EntityMetadata}
    (hb : Catalog.build settings given = .ok m.catalog) {x : CatalogEntry}
    (hx : m.catalog.entry? type = some x) :
    (∃ r, connect m type ["findAll"] = .ok r) ∧
    ∀ methods r, connect m type methods = .ok r → "findAll" ∈ methods → ∀ p : Pageable,
      (∀ (σ : Type) (store : Store σ), r.invoke store ⟨"findAll", [.page p]⟩ =
        (fun page => .page ⟨page.content, p⟩) <$> r.findAll store (p.native x.metadata)) ∧
      ((∀ (σ : Type) (store : Store σ), r.invoke store ⟨"findAll", [.page p]⟩ =
        Outcome.page <$> r.findAll store p) ↔
        ∀ s ∈ p.sorts, x.metadata.nativeName s.name = s.name) := by
  refine ⟨exists_connect_findAll hx, fun methods r hr hmem p => ?_⟩
  obtain ⟨_, hentry, _⟩ := connect_eq_ok_iff.1 hr
  obtain rfl : x = r.entry := Option.some.inj (hx.symm.trans hentry)
  obtain ⟨_, _, hc⟩ := Catalog.build_spec hb
  have hn := hc.fieldsDistinct _ (Catalog.mem_types (Catalog.entry?_mem hx).1)
  have hinvoke := fun (σ : Type) (store : Store σ) => invoke_findAll hr hmem hn store p
  refine ⟨hinvoke, ?_, ?_⟩
  · intro h
    have hsame := (hinvoke _ Script.store.journaled).symm.trans (h _ _)
    have hcalls := congrArg (fun session => (session.answer noAnswers).2.2) hsame
    simp only [calls_findAll, List.cons.injEq, StoreCall.select.injEq, and_true] at hcalls
    exact Pageable.native_sorts_eq_iff.1 (Query.mk.inj hcalls).2.2.1
  · intro h σ store
    have hself : p.native r.metadata = p :=
      Pageable.native_eq_self (Pageable.native_sorts_eq_iff.2 h)
    rw [hinvoke, hself]
    simp only [findAll, map_bind, map_pure]

def personEntry : CatalogEntry :=
  let email : FieldDescriptor := { FieldDescriptor.plain "email" with nativeName := "mail" }
  ⟨⟨"people", "Person", [email], none⟩, [.stored email]⟩

def people : Mapping :=
  ⟨⟨[], []⟩, Settings.standard, [personEntry]⟩

theorem people_by_email : ∃ r, connect people "Person" ["findAll"] = .ok r ∧
    ∃ p : Pageable, p.sorts = [⟨"email", .ascending⟩] ∧
      (p.native personEntry.metadata).sorts = [⟨"mail", .ascending⟩] ∧
      ¬ ∀ (σ : Type) (store : Store σ), r.invoke store ⟨"findAll", [.page p]⟩ =
        Outcome.page <$> r.findAll store p := by
  have hb : Catalog.build Settings.standard [personEntry.metadata] = .ok people.catalog := by cbv
  have hx : people.catalog.entry? "Person" = some personEntry := rfl
  obtain ⟨⟨r, hr⟩, hagree⟩ := findAll_agrees_iff hb hx
  let p : Pageable := ⟨1, 10, [⟨"email", .ascending⟩], by decide, by decide⟩
  obtain ⟨_, hiff⟩ := hagree _ r hr List.mem_cons_self p
  refine ⟨r, hr, p, rfl, rfl, fun h => ?_⟩
  exact absurd (hiff.1 h ⟨"email", .ascending⟩ List.mem_cons_self) (by decide)

end Repository
end RecordMapping
