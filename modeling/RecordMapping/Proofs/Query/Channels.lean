import RecordMapping.Proofs.Method.Calls
import RecordMapping.Proofs.Method.Parsing
import RecordMapping.Proofs.Query.Chains
import RecordMapping.Proofs.Value.Coercion
/-!
Two ways to one query: a method that is called with arguments, and a chain of calls. What a method
asks for is built by a chain that compares with the same operands, and what a chain compares the
fields of a type with can be written as the name of a method.
-/
namespace RecordMapping

open RecordMapping.Method RecordMapping.Text

namespace Chain

variable {aim : Aim} {phase : Phase}

def connectAll (c : Chain aim .filtered) (links : List (Connector × Link)) :
    Chain aim .filtered :=
  links.foldl (fun c p => c.connect p.1 p.2) c

def arrange (c : Chain .selection phase) (sorts : List SortKey) (skip limit : UInt64) :
    Chain .selection phase :=
  ((sorts.foldl (fun c s => c.orderBy s.name s.direction) c).skip skip).limit limit

/-- What is built by naming a collection, comparing, sorting and setting a window, in this order.
No connector is called before the first comparison. -/
def query (collection : String) (links : List (Connector × Link)) (sorts : List SortKey)
    (skip limit : UInt64) : Except QueryError Query :=
  match links with
  | [] => ((select collection).arrange sorts skip limit).builder.build
  | (_, first) :: others =>
    ((((select collection).matching first).connectAll others).arrange sorts skip
      limit).builder.build

theorem calls_connectAll (c : Chain aim .filtered) (links : List (Connector × Link)) :
    (c.connectAll links).calls = c.calls ++ links.map fun p => .compare p.1 p.2 := by
  induction links generalizing c with
  | nil => simp [connectAll]
  | cons p links ih =>
    refine (ih (c.connect p.1 p.2)).trans ?_
    simp [calls]

theorem collection_connectAll (c : Chain aim .filtered) (links : List (Connector × Link)) :
    (c.connectAll links).collection = c.collection := by
  induction links generalizing c with
  | nil => rfl
  | cons p links ih => exact ih (c.connect p.1 p.2)

theorem calls_foldl_orderBy (c : Chain .selection phase) (sorts : List SortKey) :
    (sorts.foldl (fun c s => c.orderBy s.name s.direction) c).calls =
      c.calls ++ sorts.map .orderBy := by
  induction sorts generalizing c with
  | nil => simp
  | cons s sorts ih =>
    refine (ih (c.orderBy s.name s.direction)).trans ?_
    simp [calls]

theorem collection_foldl_orderBy (c : Chain .selection phase) (sorts : List SortKey) :
    (sorts.foldl (fun c s => c.orderBy s.name s.direction) c).collection = c.collection := by
  induction sorts generalizing c with
  | nil => rfl
  | cons s sorts ih => exact ih (c.orderBy s.name s.direction)

theorem build_arrange {c : Chain .selection phase} {links : List (Connector × Link)}
    (hcalls : c.calls = .collection c.collection :: links.map fun p => .compare p.1 p.2)
    (hcollection : trim c.collection.toList ≠ [])
    (hlinks : ∀ p ∈ links, trim p.2.field.toList ≠ []) {sorts : List SortKey}
    (hsorts : ∀ s ∈ sorts, trim s.name.toList ≠ []) (skip limit : UInt64) :
    (c.arrange sorts skip limit).builder.build = .ok ⟨c.collection,
      Condition.fold (links.map fun p => (p.1, p.2.condition)), sorts, skip, limit⟩ := by
  have hall : (c.arrange sorts skip limit).calls =
      .collection c.collection :: (links.map fun p => .compare p.1 p.2) ++ sorts.map .orderBy ++
        [.skip skip, .limit limit] := by
    rw [arrange, calls, calls, calls_foldl_orderBy, hcalls]
    simp
  have hnames : (c.arrange sorts skip limit).names = ("collection", c.collection) ::
      (links.map fun p => ("field", p.2.field)) ++ sorts.map fun s => ("attribute", s.name) := by
    simp [names, hall, List.filterMap_cons, List.filterMap_map, Function.comp_def]
  have hcomparisons : (c.arrange sorts skip limit).comparisons =
      links.map fun p => (p.1, p.2.condition) := by
    simp [comparisons, hall, List.filterMap_cons, List.filterMap_map, Function.comp_def]
  have hsorted : (c.arrange sorts skip limit).sorts = sorts := by
    simp [Chain.sorts, hall, List.filterMap_cons, List.filterMap_map, Function.comp_def]
  have hskipped : (c.arrange sorts skip limit).skipped = skip := by
    simp [skipped, hall, List.filterMap_cons, List.filterMap_map, Function.comp_def]
  have hlimited : (c.arrange sorts skip limit).limited = limit := by
    simp [limited, hall, List.filterMap_cons, List.filterMap_map, Function.comp_def]
  have hblank : firstBlank (c.arrange sorts skip limit).names = none := by
    rw [firstBlank_eq_none_iff, hnames]
    simp only [List.cons_append, List.forall_mem_cons, List.forall_mem_append,
      List.forall_mem_map]
    exact ⟨hcollection, hlinks, hsorts⟩
  rw [build_eq, hblank, hcomparisons, hsorted, hskipped, hlimited]
  exact congrArg (fun s => Except.ok (Query.mk s _ _ _ _)) (collection_foldl_orderBy c sorts)

theorem query_eq {collection : String} {links : List (Connector × Link)}
    (hcollection : trim collection.toList ≠ [])
    (hlinks : ∀ p ∈ links, trim p.2.field.toList ≠ []) {sorts : List SortKey}
    (hsorts : ∀ s ∈ sorts, trim s.name.toList ≠ []) (skip limit : UInt64) :
    query collection links sorts skip limit = .ok ⟨collection,
      Condition.fold (links.map fun p => (p.1, p.2.condition)), sorts, skip, limit⟩ := by
  cases links with
  | nil => exact build_arrange (c := select collection) rfl hcollection hlinks hsorts skip limit
  | cons p others =>
    let c := ((select collection).matching p.2).connectAll others
    have hname : c.collection = collection :=
      collection_connectAll ((select collection).matching p.2) others
    have hcalls : c.calls =
        .collection c.collection :: ((.and, p.2) :: others).map fun p => .compare p.1 p.2 := by
      rw [hname]
      exact calls_connectAll ((select collection).matching p.2) others
    have hbuilt := build_arrange hcalls (hname ▸ hcollection)
      (List.forall_mem_cons.2 (List.forall_mem_cons.1 hlinks)) hsorts skip limit
    rw [hname] at hbuilt
    exact hbuilt

end Chain

namespace Test

def values : Test → List Value
  | single _ operand _ => [operand]
  | between low high => [low, high]
  | among values => values

def arguments : Test → List Value
  | single _ operand _ => [operand]
  | between low high => [low, high]
  | among values => [.list values]

section Single

variable {op : Operator} (hop : op ≠ .between ∧ op ≠ .among)
include hop

theorem arity_single : op.arity = 1 := by
  cases op with
  | between => exact absurd rfl hop.1
  | _ => rfl

theorem gather_single (given : List Value) : gather op given = given.headD .null := by
  cases op with
  | between => exact absurd rfl hop.1
  | among => exact absurd rfl hop.2
  | _ => rfl

end Single

theorem length_arguments (t : Test) : t.arguments.length = t.op.arity := by
  cases t with
  | single op operand hop => exact (arity_single hop).symm
  | between low high => rfl
  | among values => rfl

theorem gather_arguments (t : Test) : gather t.op t.arguments = t.operand := by
  cases t with
  | single op operand hop => exact gather_single hop [operand]
  | between low high => rfl
  | among values => rfl

/-- Whether all values of a comparison are already what a field is declared to hold; patterns may be
any values. -/
def Suits (t : Test) (f : FieldDescriptor) : Prop :=
  ∀ kind, f.valueKind = some kind → t.op ≠ .like → ∀ v ∈ t.values, v = .null ∨ v.kind? = some kind

end Test

theorem Value.coerce_list_self {kind : ValueKind} {items : List Value}
    (h : ∀ v ∈ items, v = .null ∨ v.kind? = some kind) :
    (Value.list items).coerce kind = .ok (.list items) := by
  rw [coerce]
  split
  · rfl
  · rw [coerceItems_self fun v hv => coerce_self (h v hv)]
    rfl

theorem Test.coerce_operand {t : Test} {kind : ValueKind}
    (h : ∀ v ∈ t.values, v = .null ∨ v.kind? = some kind) :
    t.operand.coerce kind = .ok t.operand := by
  cases t with
  | single op operand hop => exact Value.coerce_self (h operand List.mem_cons_self)
  | between low high => exact Value.coerce_list_self h
  | among values => exact Value.coerce_list_self h

theorem Value.exists_list_of_coerce {kind : ValueKind} {items : List Value} {v : Value}
    (h : (Value.list items).coerce kind = .ok v) :
    ∃ others, v = .list others ∧ others.length = items.length := by
  rw [coerce] at h
  split at h
  · exact ⟨items, (Except.ok.inj h).symm, rfl⟩
  · cases hitems : coerceItems kind items with
    | error e => simp [hitems, Except.map] at h
    | ok others =>
      rw [hitems] at h
      exact ⟨others, (Except.ok.inj h).symm, (coerceItems_eq_ok_iff.1 hitems).length_eq.symm⟩

namespace Method

variable {t : Template}

theorem Template.exists_list_of_coerce {c : Clause} {items : List Value} {operand : Value}
    (h : t.coerce c (.list items) = .ok operand) :
    ∃ others, operand = .list others ∧ others.length = items.length := by
  rw [coerce] at h
  cases hkind : c.valueKind with
  | none =>
    rw [hkind] at h
    exact ⟨items, (Except.ok.inj h).symm, rfl⟩
  | some kind =>
    simp only [hkind] at h
    split at h
    · cases hv : (Value.list items).coerce kind with
      | error e => simp [hv, Except.mapError] at h
      | ok v =>
        rw [hv] at h
        obtain rfl := Except.ok.inj h
        exact Value.exists_list_of_coerce hv
    · exact ⟨items, (Except.ok.inj h).symm, rfl⟩

theorem Template.exists_test {c : Clause} {given : List Value}
    (hlen : given.length = c.op.arity) {operand : Value}
    (h : t.coerce c (gather c.op given) = .ok operand) :
    ∃ test : Test, test.op = c.op ∧ test.operand = operand := by
  by_cases hbetween : c.op = .between
  · rw [hbetween] at h hlen
    obtain ⟨others, rfl, hothers⟩ := exists_list_of_coerce h
    obtain ⟨low, high, rfl⟩ := List.length_eq_two.1 (hothers.trans hlen)
    exact ⟨.between low high, hbetween.symm, rfl⟩
  · by_cases hamong : c.op = .among
    · rw [hamong] at h
      obtain ⟨others, rfl, _⟩ := exists_list_of_coerce h
      exact ⟨.among others, hamong.symm, rfl⟩
    · exact ⟨.single c.op operand ⟨hbetween, hamong⟩, rfl, rfl⟩

/-- Whether comparisons are those of clauses, with the operands that these make of their values. -/
def Tested (t : Template) (shares : List (Clause × List Value)) (tests : List Test) : Prop :=
  List.Forall₂ (fun p test => test.op = p.1.op ∧
    t.coerce p.1 (gather p.1.op p.2) = .ok test.operand) shares tests

theorem Template.exists_tested {shares : List (Clause × List Value)}
    (hlen : ∀ p ∈ shares, p.2.length = p.1.op.arity) {operands : List Value}
    (h : List.Forall₂ (fun p operand => t.coerce p.1 (gather p.1.op p.2) = .ok operand)
      shares operands) :
    ∃ tests, Tested t shares tests ∧ tests.map Test.operand = operands := by
  induction h with
  | nil => exact ⟨[], .nil, rfl⟩
  | cons hfirst _ ih =>
    obtain ⟨hp, hrest⟩ := List.forall_mem_cons.1 hlen
    obtain ⟨test, hop, rfl⟩ := exists_test hp hfirst
    obtain ⟨tests, htests, rfl⟩ := ih hrest
    exact ⟨test :: tests, .cons ⟨hop, hfirst⟩ htests, rfl⟩

def links (clauses : List Clause) (tests : List Test) : List (Connector × Link) :=
  (clauses.zip tests).map fun p => (p.1.connector, ⟨p.1.native, 0, p.2⟩)

theorem conditions_links {shares : List (Clause × List Value)} {tests : List Test}
    (h : Tested t shares tests) :
    (links (shares.map (·.1)) tests).map (fun p => (p.1, p.2.condition)) =
      List.zipWith (fun c operand => (c.connector, .compare c.native c.op operand))
        (shares.map (·.1)) (tests.map Test.operand) := by
  induction h with
  | nil => rfl
  | cons hfirst _ ih =>
    simp only [links, List.map_cons, List.zip_cons_cons, List.zipWith_cons_cons, ← ih,
      Link.condition, hfirst.1]
    rfl

theorem Template.exists_links {arguments : List Argument} {q : Request}
    (hq : t.assemble arguments = .ok q) :
    ∃ tests, Tested t (allot t.name.clauses (Arguments.values arguments)) tests ∧
      q.query.condition =
        Condition.fold ((links t.name.clauses tests).map fun p => (p.1, p.2.condition)) := by
  obtain ⟨harity, comparisons, hcomparisons, rfl⟩ := assemble_eq_ok_iff.1 hq
  have hle : takes t.name.clauses ≤ (Arguments.values arguments).length := Nat.le_of_eq harity.symm
  obtain ⟨operands, hoperands, rfl⟩ := (comparisons_eq_ok_iff hle).1 hcomparisons
  obtain ⟨tests, htests, rfl⟩ := exists_tested (fun p hp => length_of_mem_allot hle hp) hoperands
  have hconditions := conditions_links htests
  rw [map_fst_allot] at hconditions
  refine ⟨tests, htests, ?_⟩
  rw [hconditions]
  rfl

theorem Template.exists_query {arguments : List Argument} {q : Request}
    (hq : t.assemble arguments = .ok q) (hcollection : trim q.query.collection.toList ≠ [])
    (hnatives : ∀ c ∈ t.name.clauses, trim c.native.toList ≠ [])
    (hsorts : ∀ s ∈ q.query.sorts, trim s.name.toList ≠ []) :
    ∃ tests, Tested t (allot t.name.clauses (Arguments.values arguments)) tests ∧
      Chain.query q.query.collection (links t.name.clauses tests) q.query.sorts q.query.skip
        q.query.limit = .ok q.query := by
  obtain ⟨tests, htests, hcondition⟩ := exists_links hq
  refine ⟨tests, htests, ?_⟩
  have hfields : ∀ p ∈ links t.name.clauses tests, trim p.2.field.toList ≠ [] := by
    intro p hp
    obtain ⟨⟨c, test⟩, hmem, rfl⟩ := List.mem_map.1 hp
    exact hnatives c (List.of_mem_zip hmem).1
  rw [Chain.query_eq hcollection hfields hsorts, ← hcondition]

structure Phrase where
  field : FieldDescriptor
  test : Test

namespace Phrase

def comparison (s : Phrase) : Wording.Comparison :=
  ⟨s.field, s.test.op⟩

def clause (p : Connector × Phrase) : Clause :=
  p.2.comparison.clause p.1

def link (p : Connector × Phrase) : Connector × Link :=
  (p.1, ⟨p.2.field.nativeName, 0, p.2.test⟩)

def arguments (phrases : List (Connector × Phrase)) : List Value :=
  phrases.flatMap (·.2.test.arguments)

theorem allot_arguments (phrases : List (Connector × Phrase)) :
    allot (phrases.map clause) (arguments phrases) =
      phrases.map fun p => (clause p, p.2.test.arguments) := by
  induction phrases with
  | nil => rfl
  | cons p later ih =>
    have harity : p.2.test.arguments.length = (clause p).op.arity := p.2.test.length_arguments
    rw [List.map_cons, allot, arguments, List.flatMap_cons, List.take_left' harity,
      List.drop_left' harity, List.map_cons, ← ih]
    rfl

theorem length_arguments (phrases : List (Connector × Phrase)) :
    (arguments phrases).length = takes (phrases.map clause) := by
  induction phrases with
  | nil => rfl
  | cons p later ih =>
    have harity : p.2.test.arguments.length = (clause p).op.arity := p.2.test.length_arguments
    rw [arguments, List.flatMap_cons, List.length_append, harity]
    exact congrArg _ ih

theorem coerce_arguments {p : Connector × Phrase} (h : p.2.test.Suits p.2.field) :
    t.coerce (clause p) (gather (clause p).op p.2.test.arguments) = .ok p.2.test.operand := by
  have hop : (clause p).op = p.2.test.op := rfl
  have hkind : (clause p).valueKind = p.2.field.valueKind := rfl
  rw [hop, Test.gather_arguments, Template.coerce, hkind]
  cases hfield : p.2.field.valueKind with
  | none => rfl
  | some kind =>
    simp only
    split
    · rename_i hcoerced
      rw [Test.coerce_operand (h kind hfield hcoerced.2)]
      rfl
    · rfl

end Phrase

/-- What can be asked for by chains of calls and by names of methods: one phrase at least, and an
ordering, which may be empty. -/
structure Sentence where
  action : Action
  first : Phrase
  others : List (Connector × Phrase)
  order : List Wording.Ordering

namespace Sentence

def phrases (s : Sentence) : List (Connector × Phrase) :=
  (.and, s.first) :: s.others

def wording (s : Sentence) : Wording :=
  ⟨s.action, s.first.comparison, s.others.map fun p => (p.1, p.2.comparison), s.order⟩

def sorts (s : Sentence) : List SortKey :=
  s.order.map fun o => ⟨o.field.nativeName, o.direction⟩

theorem clauses_wording (s : Sentence) : s.wording.name.clauses = s.phrases.map Phrase.clause := by
  simp only [wording, Wording.name, phrases, List.map_cons, List.map_map]
  rfl

theorem sorts_wording (s : Sentence) :
    (s.wording.name.sorts.map fun o => (⟨o.native, o.direction⟩ : SortKey)) = s.sorts := by
  rw [wording, Wording.name, List.map_map]
  rfl

theorem fields_wording (s : Sentence) : s.wording.fields =
    s.phrases.map (·.2.field) ++ s.order.map (·.field) := by
  simp only [wording, Wording.fields, phrases, List.map_cons, List.map_map]
  rfl

variable {m : EntityMetadata} {settings : Settings} {s : Sentence}

theorem exists_compile (hm : m.Writable) (hfields : ∀ f ∈ s.wording.fields, f ∈ m.fields)
    (hlongest : s.wording.Unambiguous m settings.strictFieldCase) :
    ∃ t, Template.compile s.wording.text m settings = .ok t ∧ t.name = s.wording.name ∧
      t.collection = m.collection := by
  let scope : Scope := ⟨s.wording.text, m, settings.strictFieldCase⟩
  have hparse : Name.parse s.wording.text m settings.strictFieldCase = .ok s.wording.name :=
    (Name.parse_eq_ok_iff (splitPrefix?_start s.wording.action s.wording.rest)).2
      ⟨rfl, scope.parts_rest hm hfields hlongest⟩
  exact ⟨_, Template.compile_eq_ok_iff.2 ⟨_, hparse, rfl⟩, rfl, rfl⟩

theorem assemble_arguments (hname : t.name = s.wording.name)
    (hsuits : ∀ p ∈ s.phrases, p.2.test.Suits p.2.field) :
    t.assemble ((Phrase.arguments s.phrases).map .value) = .ok ⟨s.action, ⟨t.collection,
      Condition.fold ((s.phrases.map Phrase.link).map fun p => (p.1, p.2.condition)), s.sorts,
      0, 0⟩, none⟩ := by
  have hclauses : t.name.clauses = s.phrases.map Phrase.clause := by
    rw [hname, clauses_wording]
  refine Template.assemble_map_value_iff.2 ⟨?_, s.phrases.map (·.2.test.operand), ?_, ?_⟩
  · rw [Phrase.length_arguments, ← hclauses]
    rfl
  · rw [hclauses, Phrase.allot_arguments, List.forall₂_map_left_iff, List.forall₂_map_right_iff,
      List.forall₂_same]
    exact fun p hp => Phrase.coerce_arguments (hsuits p hp)
  · rw [hclauses, List.zipWith_map, List.zipWith_self, List.map_map, hname, sorts_wording]
    rfl

end Sentence

/-- A chain can ask for whatever a method asks for, by comparing with the operands that the clauses
of the method make of its arguments, unless some name is blank. And whatever chains ask for by
comparing fields with values that they can hold is asked for by the method whose name says the same,
with these values as its arguments; without a comparison that is the method `findAll`. -/
theorem channels_agree :
    (∀ (t : Template) (arguments : List Argument) (q : Request),
      t.assemble arguments = .ok q → trim q.query.collection.toList ≠ [] →
      (∀ c ∈ t.name.clauses, trim c.native.toList ≠ []) →
      (∀ s ∈ q.query.sorts, trim s.name.toList ≠ []) →
      ∃ tests, Tested t (allot t.name.clauses (Arguments.values arguments)) tests ∧
        Chain.query q.query.collection (links t.name.clauses tests) q.query.sorts q.query.skip
          q.query.limit = .ok q.query) ∧
    ∀ (m : EntityMetadata) (settings : Settings), m.Writable → trim m.collection.toList ≠ [] →
      (∀ s : Sentence, (∀ f ∈ s.wording.fields, f ∈ m.fields ∧ trim f.nativeName.toList ≠ []) →
        s.wording.Unambiguous m settings.strictFieldCase →
        (∀ p ∈ s.phrases, p.2.test.Suits p.2.field) →
        ∃ t q, Template.compile s.wording.text m settings = .ok t ∧
          t.assemble ((Phrase.arguments s.phrases).map .value) = .ok q ∧ q.action = s.action ∧
          Chain.query m.collection (s.phrases.map Phrase.link) s.sorts 0 0 = .ok q.query) ∧
      ∃ t q, Template.compile "findAll" m settings = .ok t ∧ t.assemble [] = .ok q ∧
        Chain.query m.collection [] [] 0 0 = .ok q.query := by
  refine ⟨fun t arguments q => Template.exists_query, fun m settings hm hcollection => ⟨?_, ?_⟩⟩
  · intro s hfields hlongest hsuits
    obtain ⟨t, ht, hname, htc⟩ := s.exists_compile hm (fun f hf => (hfields f hf).1) hlongest
    simp only [s.fields_wording, List.mem_append, or_imp, forall_and, List.forall_mem_map]
      at hfields
    obtain ⟨_, hphrases, horder⟩ := hfields
    have hlinks : ∀ p ∈ s.phrases.map Phrase.link, trim p.2.field.toList ≠ [] :=
      List.forall_mem_map.2 hphrases
    have hsorts : ∀ k ∈ s.sorts, trim k.name.toList ≠ [] := List.forall_mem_map.2 horder
    refine ⟨t, _, ht, Sentence.assemble_arguments hname hsuits, rfl, ?_⟩
    rw [htc]
    exact Chain.query_eq hcollection hlinks hsorts 0 0
  · let t : Template :=
      ⟨"findAll", m.collection, ⟨.find, [], []⟩, m.renames, settings.coerceArguments⟩
    exact ⟨t, ⟨.find, .ofCollection m.collection, none⟩, rfl, rfl,
      Chain.query_eq hcollection (fun p hp => absurd hp List.not_mem_nil)
        (fun s hs => absurd hs List.not_mem_nil) 0 0⟩

def someEditions : Sentence :=
  let title := { FieldDescriptor.plain "title" with
    nativeName := "headline", valueKind := some .text }
  let year := { FieldDescriptor.plain "year" with valueKind := some .int }
  ⟨.find, ⟨year, .between (.int 1999) (.int 2005)⟩,
    [(.or, ⟨title, .among [.text "Ulysses", .null]⟩)], [⟨year, .descending⟩]⟩

theorem editions_asked_for_alike :
    (∃ t tests, t.name = Template.latestEditions ∧
      Tested t (allot t.name.clauses [.text "1999", .text "2005", .text "The%"]) tests ∧
      Chain.query "editions" (links t.name.clauses tests) [⟨"year", .descending⟩] 0 0 =
        .ok ⟨"editions", some (.any [.compare "year" .between (.list [.int 1999, .int 2005]),
          .compare "headline" .like (.text "The%")]), [⟨"year", .descending⟩], 0, 0⟩) ∧
    ∃ t q, Template.compile "findByYearBetweenOrTitleInOrderByYearDesc"
        Template.editionEntry.metadata Settings.standard = .ok t ∧
      t.assemble ([.int 1999, .int 2005, .list [.text "Ulysses", .null]].map .value) = .ok q ∧
      q.query = ⟨"editions", some (.any [.compare "year" .between (.list [.int 1999, .int 2005]),
        .compare "headline" .among (.list [.text "Ulysses", .null])]),
        [⟨"year", .descending⟩], 0, 0⟩ := by
  obtain ⟨hchain, hname⟩ := channels_agree
  constructor
  · let t : Template := ⟨"findByYearBetweenOrTitleLikeOrderByYearDesc", "editions",
      Template.latestEditions, [⟨"title", "headline"⟩], true⟩
    obtain ⟨tests, htests, hquery⟩ := hchain t
      ([.text "1999", .text "2005", .text "The%"].map .value)
      ⟨.find, ⟨"editions", some (.any [.compare "year" .between (.list [.int 1999, .int 2005]),
        .compare "headline" .like (.text "The%")]), [⟨"year", .descending⟩], 0, 0⟩, none⟩
      (by cbv) (by decide) (by decide) (by decide)
    exact ⟨t, tests, rfl, htests, hquery⟩
  · have hm : Template.editionEntry.metadata.Writable := by
      refine ⟨by decide, ?_⟩
      rw [Template.editionEntry, List.forall_mem_cons, List.forall_mem_singleton]
      exact ⟨⟨⟨_, _, rfl, rfl⟩, by decide, by decide⟩, ⟨⟨_, _, rfl, rfl⟩, by decide, by decide⟩⟩
    have hsuits : ∀ p ∈ someEditions.phrases, p.2.test.Suits p.2.field := by
      rw [Sentence.phrases, List.forall_mem_cons, someEditions, List.forall_mem_singleton]
      constructor
      · rintro _ ⟨⟩ _
        simp [Test.values, Value.kind?]
      · rintro _ ⟨⟩ _
        simp [Test.values, Value.kind?]
    obtain ⟨hsentence, _⟩ := hname Template.editionEntry.metadata Settings.standard hm (by decide)
    obtain ⟨t, q, ht, hq, _, hquery⟩ := hsentence someEditions (by decide) (by decide) hsuits
    exact ⟨t, q, ht, hq, (Except.ok.inj hquery).symm⟩

end Method

end RecordMapping
