import RecordMapping.Query.Builder
/-!
Chains of calls, as they may be written down. What is built says no more than the list of the calls:
the first blank name in it, or else the query that can be read off it, where no call changes what
another one says.
-/
namespace RecordMapping

open RecordMapping.Text

/-- A comparison as it is called. -/
inductive Test where
  | single (op : Operator) (operand : Value) (hop : op ≠ .between ∧ op ≠ .among)
  | between (low high : Value)
  | among (values : List Value)

namespace Test

def op : Test → Operator
  | single op _ _ => op
  | between _ _ => .between
  | among _ => .among

def operand : Test → Value
  | single _ operand _ => operand
  | between low high => .list [low, high]
  | among values => .list values

def call {κ : Type} (b : Builder κ .field) : Test → Builder κ .filtered
  | single op operand _ => b.compare op operand
  | between low high => b.between low high
  | among values => b.among values

theorem call_eq {κ : Type} (t : Test) (b : Builder κ .field) :
    t.call b = b.compare t.op t.operand := by
  cases t <;> rfl

end Test

/-- A field, the number of times that `not` is called on it, and its comparison. -/
structure Link where
  field : String
  negations : Nat
  test : Test

namespace Link

def call {κ : Type} (l : Link) (b : Builder κ .field) : Builder κ .filtered :=
  l.test.call (Nat.repeat Builder.not l.negations b)

def condition (l : Link) : Condition :=
  if l.negations % 2 = 1 then .not (.compare l.field l.test.op l.test.operand)
  else .compare l.field l.test.op l.test.operand

end Link

inductive Aim where
  | selection
  | removal

abbrev Aim.State : Aim → Type
  | selection => Selection
  | removal => Removal

/-- The legal chains of calls up to a phase in which they can be built. -/
inductive Chain : Aim → Phase → Type where
  | select (collection : String) : Chain .selection .target
  | delete (collection : String) : Chain .removal .target
  | deleteAttributes (attributes : List String) (collection : String) : Chain .removal .target
  | matching {aim : Aim} (earlier : Chain aim .target) (link : Link) : Chain aim .filtered
  | connect {aim : Aim} (earlier : Chain aim .filtered) (connector : Connector) (link : Link) :
    Chain aim .filtered
  | orderBy {phase : Phase} (earlier : Chain .selection phase) (name : String)
    (direction : Direction) : Chain .selection phase
  | skip {phase : Phase} (earlier : Chain .selection phase) (count : UInt64) :
    Chain .selection phase
  | limit {phase : Phase} (earlier : Chain .selection phase) (count : UInt64) :
    Chain .selection phase

/-- A call of a chain, taken by itself. -/
inductive Call where
  | remove (name : String)
  | collection (name : String)
  | compare (connector : Connector) (link : Link)
  | orderBy (key : SortKey)
  | skip (count : UInt64)
  | limit (count : UInt64)

namespace Call

@[simp]
def name? : Call → Option (String × String)
  | remove name => some ("attribute", name)
  | collection name => some ("collection", name)
  | compare _ link => some ("field", link.field)
  | orderBy key => some ("attribute", key.name)
  | _ => none

@[simp]
def attribute? : Call → Option String
  | remove name => some name
  | _ => none

@[simp]
def comparison? : Call → Option (Connector × Condition)
  | compare connector link => some (connector, link.condition)
  | _ => none

@[simp]
def sort? : Call → Option SortKey
  | orderBy key => some key
  | _ => none

@[simp]
def skip? : Call → Option UInt64
  | skip count => some count
  | _ => none

@[simp]
def limit? : Call → Option UInt64
  | limit count => some count
  | _ => none

end Call

namespace Chain

variable {aim : Aim} {phase : Phase}

/-- What the calls of a chain make, one after the other. -/
def builder {aim : Aim} {phase : Phase} : Chain aim phase → Builder aim.State phase
  | select collection => Start.select.collection collection
  | delete collection => Start.delete.collection collection
  | deleteAttributes attributes collection =>
    (Start.deleteAttributes attributes).collection collection
  | matching earlier link => link.call (earlier.builder.matching link.field)
  | connect earlier connector link => link.call (earlier.builder.connect connector link.field)
  | orderBy earlier name direction => Builder.orderBy earlier.builder name direction
  | skip earlier count => Builder.skip earlier.builder count
  | limit earlier count => Builder.limit earlier.builder count

def calls {aim : Aim} {phase : Phase} : Chain aim phase → List Call
  | select collection => [.collection collection]
  | delete collection => [.collection collection]
  | deleteAttributes attributes collection =>
    attributes.map .remove ++ [.collection collection]
  | matching earlier link => earlier.calls ++ [.compare .and link]
  | connect earlier connector link => earlier.calls ++ [.compare connector link]
  | orderBy earlier name direction => earlier.calls ++ [.orderBy ⟨name, direction⟩]
  | skip earlier count => earlier.calls ++ [.skip count]
  | limit earlier count => earlier.calls ++ [.limit count]

def collection {aim : Aim} {phase : Phase} : Chain aim phase → String
  | select collection => collection
  | delete collection => collection
  | deleteAttributes _ collection => collection
  | matching earlier _ => earlier.collection
  | connect earlier _ _ => earlier.collection
  | orderBy earlier _ _ => earlier.collection
  | skip earlier _ => earlier.collection
  | limit earlier _ => earlier.collection

def names (c : Chain aim phase) : List (String × String) :=
  c.calls.filterMap Call.name?

def attributes (c : Chain aim phase) : List String :=
  c.calls.filterMap Call.attribute?

def comparisons (c : Chain aim phase) : List (Connector × Condition) :=
  c.calls.filterMap Call.comparison?

def sorts (c : Chain aim phase) : List SortKey :=
  c.calls.filterMap Call.sort?

/-- The last number of skipped records that is called for. -/
def skipped (c : Chain aim phase) : UInt64 :=
  (c.calls.filterMap Call.skip?).getLast?.getD 0

def limited (c : Chain aim phase) : UInt64 :=
  (c.calls.filterMap Call.limit?).getLast?.getD 0

def state {phase : Phase} : {aim : Aim} → Chain aim phase → aim.State
  | .selection, c => ⟨c.sorts, c.skipped, c.limited⟩
  | .removal, c => ⟨c.attributes⟩

end Chain

def firstBlank (names : List (String × String)) : Option QueryError :=
  (names.find? (isBlankText ·.2)).map (.missingName ·.1)

theorem requireName_firstBlank (names : List (String × String)) (role name : String) :
    requireName (firstBlank names) role name = firstBlank (names ++ [(role, name)]) := by
  rw [firstBlank, firstBlank, List.find?_append]
  cases names.find? (isBlankText ·.2) with
  | none => cases h : isBlankText name <;> simp [requireName, h]
  | some p => rfl

theorem foldl_requireName (role : String) (texts : List String) (names : List (String × String)) :
    texts.foldl (requireName · role) (firstBlank names) =
      firstBlank (names ++ texts.map (role, ·)) := by
  induction texts generalizing names with
  | nil => simp
  | cons text rest ih => simp [requireName_firstBlank, ih]

theorem isBlankText_eq_false_iff {s : String} : isBlankText s = false ↔ trim s.toList ≠ [] := by
  rw [← Bool.not_eq_true, isBlankText_iff]

theorem firstBlank_eq_none_iff {names : List (String × String)} :
    firstBlank names = none ↔ ∀ p ∈ names, trim p.2.toList ≠ [] := by
  simp [firstBlank, isBlankText_iff]

theorem firstBlank_eq_some_iff {names : List (String × String)} {e : QueryError} :
    firstBlank names = some e ↔ ∃ earlier role name later,
      names = earlier ++ (role, name) :: later ∧ (∀ p ∈ earlier, trim p.2.toList ≠ []) ∧
      trim name.toList = [] ∧ e = .missingName role := by
  rw [firstBlank, Option.map_eq_some_iff]
  simp only [List.find?_eq_some_iff_append, isBlankText_iff, Bool.not_eq_eq_eq_not, Bool.not_true,
    isBlankText_eq_false_iff]
  constructor
  · rintro ⟨⟨role, name⟩, ⟨hblank, earlier, later, rfl, hearlier⟩, rfl⟩
    exact ⟨earlier, role, name, later, rfl, hearlier, hblank, rfl⟩
  · rintro ⟨earlier, role, name, later, rfl, hearlier, hblank, rfl⟩
    exact ⟨(role, name), ⟨hblank, earlier, later, rfl, hearlier⟩, rfl⟩

theorem reported_iff {α : Type} {names : List (String × String)} {result : Except QueryError α}
    {a : α} (h : result = match firstBlank names with | some e => .error e | none => .ok a) :
    (∀ e, result = .error e ↔ ∃ earlier role name later,
      names = earlier ++ (role, name) :: later ∧ (∀ p ∈ earlier, trim p.2.toList ≠ []) ∧
      trim name.toList = [] ∧ e = .missingName role) ∧
    ∀ b, result = .ok b ↔ (∀ p ∈ names, trim p.2.toList ≠ []) ∧ b = a := by
  constructor
  · intro e
    rw [← firstBlank_eq_some_iff, h]
    cases firstBlank names <;> simp
  · intro b
    rw [← firstBlank_eq_none_iff, h]
    cases firstBlank names <;> simp [eq_comm]

theorem Condition.fold_concat (clauses : List (Connector × Condition)) (k : Connector)
    (c : Condition) : fold (clauses ++ [(k, c)]) = some (join (fold clauses) k c) := by
  rw [fold, List.foldl_append]
  rfl

namespace Builder

variable {κ : Type}

theorem repeat_not (b : Builder κ .field) (n : Nat) :
    Nat.repeat not n b = { b with negated := b.negated ^^ decide (n % 2 = 1) } := by
  induction n with
  | zero => simp [Nat.repeat]
  | succ n ih =>
    have hodd : decide ((n + 1) % 2 = 1) = !decide (n % 2 = 1) := by
      by_cases h : n % 2 = 1 <;> simp [h] <;> omega
    rw [Nat.repeat, ih, hodd]
    simp [not]

theorem call_link (l : Link) {b : Builder κ .field} (hfield : b.field = l.field)
    (hnegated : b.negated = false) : l.call b = ⟨b.kind, b.collection,
      some (Condition.join b.condition b.connector l.condition), b.connector, "", false,
      b.error?⟩ := by
  rw [Link.call, Test.call_eq, repeat_not, hnegated, Link.condition]
  by_cases h : l.negations % 2 = 1 <;> simp [compare, h, hfield]

end Builder

namespace Chain

variable {aim : Aim} {phase : Phase}

section OneCallMore

variable {phase' : Phase} {c : Chain aim phase} {c' : Chain aim phase'} {call : Call}
  (h : c'.calls = c.calls ++ [call])
include h

theorem filterMap_concat {β : Type} (f : Call → Option β) :
    c'.calls.filterMap f = c.calls.filterMap f ++ (f call).toList := by
  rw [h, List.filterMap_append]
  cases hf : f call <;> simp [hf]

theorem names_concat : c'.names = c.names ++ call.name?.toList :=
  filterMap_concat h Call.name?

theorem attributes_concat : c'.attributes = c.attributes ++ call.attribute?.toList :=
  filterMap_concat h Call.attribute?

theorem comparisons_concat : c'.comparisons = c.comparisons ++ call.comparison?.toList :=
  filterMap_concat h Call.comparison?

theorem sorts_concat : c'.sorts = c.sorts ++ call.sort?.toList :=
  filterMap_concat h Call.sort?

theorem skipped_concat : c'.skipped = call.skip?.getD c.skipped := by
  rw [skipped, filterMap_concat h]
  cases call.skip? <;> simp [skipped]

theorem limited_concat : c'.limited = call.limit?.getD c.limited := by
  rw [limited, filterMap_concat h]
  cases call.limit? <;> simp [limited]

end OneCallMore

def opened (c : Chain aim phase) (k : Connector) (l : Link) : Builder aim.State .field :=
  ⟨c.state, c.collection, Condition.fold c.comparisons, k, l.field, false,
    requireName (firstBlank c.names) "field" l.field⟩

theorem call_opened {c : Chain aim phase} {c' : Chain aim .filtered} {k : Connector} {l : Link}
    (h : c'.calls = c.calls ++ [.compare k l]) : l.call (c.opened k l) =
      ⟨c'.state, c.collection, Condition.fold c'.comparisons, k, "", false,
        firstBlank c'.names⟩ := by
  have hstate : c'.state = c.state := by
    cases aim with
    | selection => simp [state, sorts_concat h, skipped_concat h, limited_concat h]
    | removal => simp [state, attributes_concat h]
  have hcomparisons : c'.comparisons = c.comparisons ++ [(k, l.condition)] := comparisons_concat h
  have hnames : c'.names = c.names ++ [("field", l.field)] := names_concat h
  rw [Builder.call_link l rfl rfl, hstate, hcomparisons, Condition.fold_concat, hnames,
    ← requireName_firstBlank]
  rfl

theorem builder_eq (c : Chain aim phase) : ∃ connector, c.builder = ⟨c.state, c.collection,
    Condition.fold c.comparisons, connector, "", false, firstBlank c.names⟩ := by
  induction c with
  | select collection =>
    have hblank := requireName_firstBlank [] "collection" collection
    exact ⟨.and, congrArg (Builder.mk _ _ _ _ _ _) hblank⟩
  | delete collection =>
    have hblank := requireName_firstBlank [] "collection" collection
    exact ⟨.and, congrArg (Builder.mk _ _ _ _ _ _) hblank⟩
  | deleteAttributes removed collection =>
    have hblank : removed.foldl (requireName · "attribute") none = firstBlank _ :=
      foldl_requireName "attribute" removed []
    refine ⟨.and, ?_⟩
    rw [builder, Start.collection, Start.deleteAttributes, hblank, requireName_firstBlank]
    have hnone : (removed.map Call.remove).filterMap Call.comparison? = [] := by
      simp
    simp [state, attributes, names, comparisons, calls, Chain.collection, Function.comp_def,
      hnone, Condition.fold, List.filterMap_cons]
  | matching earlier link ih =>
    obtain ⟨_, ih⟩ := ih
    have h : (earlier.matching link).calls = earlier.calls ++ [.compare .and link] := rfl
    have hopen : earlier.builder.matching link.field = earlier.opened .and link := by
      rw [ih]
      rfl
    refine ⟨.and, ?_⟩
    rw [builder, hopen, call_opened h]
    rfl
  | connect earlier connector link ih =>
    obtain ⟨_, ih⟩ := ih
    have h : (earlier.connect connector link).calls =
      earlier.calls ++ [.compare connector link] := rfl
    have hopen : earlier.builder.connect connector link.field = earlier.opened connector link := by
      rw [ih]
      rfl
    refine ⟨connector, ?_⟩
    rw [builder, hopen, call_opened h]
    rfl
  | orderBy earlier name direction ih =>
    obtain ⟨connector, ih⟩ := ih
    have h : (earlier.orderBy name direction).calls =
      earlier.calls ++ [.orderBy ⟨name, direction⟩] := rfl
    refine ⟨connector, ?_⟩
    rw [builder, ih, Builder.orderBy, requireName_firstBlank]
    simp [state, sorts_concat h, skipped_concat h, limited_concat h, names_concat h,
      comparisons_concat h, collection]
  | skip earlier count ih =>
    obtain ⟨connector, ih⟩ := ih
    have h : (earlier.skip count).calls = earlier.calls ++ [.skip count] := rfl
    refine ⟨connector, ?_⟩
    rw [builder, ih, Builder.skip]
    simp [state, sorts_concat h, skipped_concat h, limited_concat h, names_concat h,
      comparisons_concat h, collection]
  | limit earlier count ih =>
    obtain ⟨connector, ih⟩ := ih
    have h : (earlier.limit count).calls = earlier.calls ++ [.limit count] := rfl
    refine ⟨connector, ?_⟩
    rw [builder, ih, Builder.limit]
    simp [state, sorts_concat h, skipped_concat h, limited_concat h, names_concat h,
      comparisons_concat h, collection]

theorem build_eq (c : Chain .selection phase) : c.builder.build = match firstBlank c.names with
    | some e => .error e
    | none => .ok ⟨c.collection, Condition.fold c.comparisons, c.sorts, c.skipped, c.limited⟩ := by
  obtain ⟨connector, h⟩ := c.builder_eq
  rw [h]
  rfl

theorem buildDelete_eq (c : Chain .removal phase) : c.builder.buildDelete =
    match firstBlank c.names with
    | some e => .error e
    | none => .ok ⟨c.collection, Condition.fold c.comparisons, c.attributes⟩ := by
  obtain ⟨connector, h⟩ := c.builder_eq
  rw [h]
  rfl

/-- A chain is built unless one of its names is blank, and then the error says what the first of
them is the name of. The query has the collection and the attributes that were named, all
comparisons joined from left to right, each negated if `not` was called on it an odd number of
times, the sorts in the order of their calls, and what was last called for as its window. -/
theorem build_follows_calls :
    (∀ {phase : Phase} (c : Chain .selection phase),
      (∀ e, c.builder.build = .error e ↔ ∃ earlier role name later,
        c.names = earlier ++ (role, name) :: later ∧ (∀ p ∈ earlier, trim p.2.toList ≠ []) ∧
        trim name.toList = [] ∧ e = .missingName role) ∧
      ∀ q, c.builder.build = .ok q ↔ (∀ p ∈ c.names, trim p.2.toList ≠ []) ∧
        q = ⟨c.collection, Condition.fold c.comparisons, c.sorts, c.skipped, c.limited⟩) ∧
    ∀ {phase : Phase} (c : Chain .removal phase),
      (∀ e, c.builder.buildDelete = .error e ↔ ∃ earlier role name later,
        c.names = earlier ++ (role, name) :: later ∧ (∀ p ∈ earlier, trim p.2.toList ≠ []) ∧
        trim name.toList = [] ∧ e = .missingName role) ∧
      ∀ q, c.builder.buildDelete = .ok q ↔ (∀ p ∈ c.names, trim p.2.toList ≠ []) ∧
        q = ⟨c.collection, Condition.fold c.comparisons, c.attributes⟩ :=
  ⟨fun c => reported_iff c.build_eq, fun c => reported_iff c.buildDelete_eq⟩

/-- A sort and a window among the conditions, the first of which is negated. -/
example : ((((((Chain.select "books").orderBy "year" .descending).matching
      ⟨"title", 3, .single .like (.text "A%") (by decide)⟩).skip 5).connect .or
      ⟨"year", 2, .between (.int 1990) (.int 1999)⟩).skip 7).builder.build =
    .ok ⟨"books", some (.any [.not (.compare "title" .like (.text "A%")),
      .compare "year" .between (.list [.int 1990, .int 1999])]),
      [⟨"year", .descending⟩], 7, 0⟩ :=
  rfl

end Chain
end RecordMapping
