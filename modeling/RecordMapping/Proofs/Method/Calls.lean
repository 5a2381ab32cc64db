import Mathlib
import RecordMapping.Proofs.Catalog.Consistent
import RecordMapping.Proofs.Method.Assembly
import RecordMapping.Proofs.Method.Compiled
/-!
Calls of the methods of a type in an accepted catalog: what they ask for, and what they are refused
for, by the metadata of the type.
-/
namespace RecordMapping

open RecordMapping.Method

namespace EntityMetadata

def operandKind? (m : EntityMetadata) (coerces : Bool) (c : Clause) : Option ValueKind :=
  if coerces ∧ c.op ≠ .like then (m.field? c.field).bind (·.valueKind) else none

/-- What a clause compares with when it is given some values. -/
def operand (m : EntityMetadata) (coerces : Bool) (c : Clause) (given : List Value) :
    Except CoercionError Value :=
  match m.operandKind? coerces c with
  | some kind => (gather c.op given).coerce kind
  | none => .ok (gather c.op given)

end EntityMetadata

namespace Method.Template

/-- What each clause is given of the arguments. -/
def shares (t : Template) (arguments : List Argument) : List (Clause × List Value) :=
  allot t.name.clauses (Arguments.values arguments)

variable {method : String} {metadata : EntityMetadata} {options : Settings} {t : Template}
  {arguments : List Argument}

theorem mem_clauses_of_mem_shares {p : Clause × List Value} (hp : p ∈ t.shares arguments) :
    p.1 ∈ t.name.clauses := by
  rw [← map_fst_allot t.name.clauses (Arguments.values arguments)]
  exact List.mem_map_of_mem hp

section Compiled

variable (hn : (metadata.fields.map (·.name)).Nodup) (ht : compile method metadata options = .ok t)
include hn ht

theorem coerce_of_compile {c : Clause} (hc : c ∈ t.name.clauses) (given : List Value) :
    t.coerce c (gather c.op given) =
      (metadata.operand options.coerceArguments c given).mapError (.coercion c.field) := by
  obtain ⟨f, hf, hname, _, hkind⟩ := describes_of_compile ht c hc
  obtain ⟨_, _, rfl⟩ := compile_eq_ok_iff.1 ht
  have hfield : metadata.field? c.field = some f := by
    rw [hname]
    exact EntityMetadata.field?_of_mem hn hf
  rw [coerce, hkind, EntityMetadata.operand, EntityMetadata.operandKind?, hfield, Option.bind_some]
  cases f.valueKind with
  | none =>
    rw [ite_self]
    rfl
  | some kind =>
    by_cases hcoerced : options.coerceArguments ∧ c.op ≠ .like
    · simp only [if_pos hcoerced]
    · simp only [if_neg hcoerced]
      rfl

theorem coerce_eq_ok_iff {c : Clause} (hc : c ∈ t.name.clauses) {given : List Value} {v : Value} :
    t.coerce c (gather c.op given) = .ok v ↔
      metadata.operand options.coerceArguments c given = .ok v := by
  rw [coerce_of_compile hn ht hc]
  cases metadata.operand options.coerceArguments c given <;> simp [Except.mapError]

theorem coerce_eq_error_iff {c : Clause} (hc : c ∈ t.name.clauses) {given : List Value}
    {e : QueryError} : t.coerce c (gather c.op given) = .error e ↔ ∃ cause,
      metadata.operand options.coerceArguments c given = .error cause ∧
      e = .coercion c.field cause := by
  rw [coerce_of_compile hn ht hc]
  cases metadata.operand options.coerceArguments c given <;> simp [Except.mapError, eq_comm]

theorem comparisons_error_iff_operand
    (h : (Arguments.values arguments).length = t.arity) {e : QueryError} :
    t.comparisons t.name.clauses (Arguments.values arguments) = .error e ↔
      ∃ earlier clause values later cause,
        t.shares arguments = earlier ++ (clause, values) :: later ∧
        (∀ p ∈ earlier, ∃ v, metadata.operand options.coerceArguments p.1 p.2 = .ok v) ∧
        metadata.operand options.coerceArguments clause values = .error cause ∧
        e = .coercion clause.field cause := by
  rw [comparisons_eq_error_iff (Nat.le_of_eq h.symm), ← shares]
  refine exists_congr fun earlier => exists_congr fun clause => exists_congr fun values =>
    exists_congr fun later => ?_
  simp only [exists_and_left]
  refine and_congr_right fun hsplit => ?_
  have hclause : ∀ p ∈ earlier ++ (clause, values) :: later, p.1 ∈ t.name.clauses :=
    hsplit ▸ fun p hp => mem_clauses_of_mem_shares hp
  rw [coerce_eq_error_iff hn ht (hclause (clause, values) (by simp))]
  refine and_congr_left fun _ => forall₂_congr fun p hp => exists_congr fun v => ?_
  exact coerce_eq_ok_iff hn ht (hclause p (List.mem_append_left _ hp))

theorem forall₂_operand_iff {operands : List Value} :
    List.Forall₂ (fun p v => t.coerce p.1 (gather p.1.op p.2) = .ok v)
      (t.shares arguments) operands ↔
    List.Forall₂ (fun p v => metadata.operand options.coerceArguments p.1 p.2 = .ok v)
      (t.shares arguments) operands := by
  have hmem : ∀ p ∈ t.shares arguments, p.1 ∈ t.name.clauses :=
    fun p hp => mem_clauses_of_mem_shares hp
  rw [List.forall₂_iff_zip, List.forall₂_iff_zip]
  refine and_congr_right fun _ => forall₃_congr fun p v hp => ?_
  exact coerce_eq_ok_iff hn ht (hmem p (List.of_mem_zip hp).1)

theorem request_of_compile (clauses : List (Connector × Condition)) :
    t.request arguments clauses = ⟨t.name.action, {
      collection := metadata.collection
      condition := Condition.fold clauses
      sorts := (arguments.flatMap (·.sortKeys)).map
          (fun s => { s with name := metadata.nativeName s.name }) ++
        t.name.sorts.map (fun o => ⟨o.native, o.direction⟩) ++
        ((Arguments.page? arguments).elim [] (·.sorts)).map fun s =>
          { s with name := metadata.nativeName s.name }
      skip := (Arguments.window arguments).1
      limit := (Arguments.window arguments).2 }, Arguments.page? arguments⟩ := by
  rw [request, sorts, collection_of_compile ht, funext (nativeSort_of_compile hn ht)]

end Compiled

/-- A call is refused exactly if its values are not as many as the clauses take, or the operand of
some clause has no equal of the kind of its field, the first such clause being the one reported. Any
other call asks for what the clauses compare, joined from left to right, with every value in one
clause, in order; it is ordered by the sorts among the arguments, those of the name and those of the
page, and its window is the last limit or else that of the last page. -/
theorem call_iff {settings : Settings} {given : List EntityMetadata} {c : Catalog}
    (hb : Catalog.build settings given = .ok c) {x : CatalogEntry} (hx : x ∈ c.entries)
    (ht : compile method x.metadata options = .ok t) (arguments : List Argument) :
    (∀ e, t.assemble arguments = .error e ↔
      ((Arguments.values arguments).length ≠ t.arity ∧
        e = .arity method t.arity (Arguments.values arguments).length) ∨
      ((Arguments.values arguments).length = t.arity ∧ ∃ earlier clause values later cause,
        t.shares arguments = earlier ++ (clause, values) :: later ∧
        (∀ p ∈ earlier, ∃ v, x.metadata.operand options.coerceArguments p.1 p.2 = .ok v) ∧
        x.metadata.operand options.coerceArguments clause values = .error cause ∧
        e = .coercion clause.field cause)) ∧
    (∀ q, t.assemble arguments = .ok q ↔ (Arguments.values arguments).length = t.arity ∧
      ∃ operands, List.Forall₂
        (fun p v => x.metadata.operand options.coerceArguments p.1 p.2 = .ok v)
        (t.shares arguments) operands ∧
      q = ⟨t.name.action, {
        collection := x.metadata.collection
        condition := Condition.fold (List.zipWith
          (fun clause v => (clause.connector, .compare clause.native clause.op v))
          t.name.clauses operands)
        sorts := (arguments.flatMap (·.sortKeys)).map
            (fun s => { s with name := x.metadata.nativeName s.name }) ++
          t.name.sorts.map (fun o => ⟨o.native, o.direction⟩) ++
          ((Arguments.page? arguments).elim [] (·.sorts)).map fun s =>
            { s with name := x.metadata.nativeName s.name }
        skip := (Arguments.window arguments).1
        limit := (Arguments.window arguments).2 }, Arguments.page? arguments⟩) ∧
    ((Arguments.values arguments).length = t.arity →
      (t.shares arguments).map (·.1) = t.name.clauses ∧
      (t.shares arguments).flatMap (·.2) = Arguments.values arguments ∧
      ∀ p ∈ t.shares arguments, p.2.length = p.1.op.arity) ∧
    ∀ clause ∈ t.name.clauses, ∃ f ∈ x.metadata.fields,
      x.metadata.field? clause.field = some f ∧ clause.Describes f := by
  obtain ⟨_, _, hconsistent⟩ := Catalog.build_spec hb
  have hn := hconsistent.fieldsDistinct _ (Catalog.mem_types hx)
  refine ⟨fun e => ?_, fun q => ?_, fun harity => ⟨?_, ?_, fun p hp => ?_⟩, fun clause hclause => ?_⟩
  · rw [assemble_eq_error_iff, method_of_compile ht]
    exact or_congr_right (and_congr_right fun harity => comparisons_error_iff_operand hn ht harity)
  · rw [assemble_eq_ok_iff]
    refine and_congr_right fun harity => ?_
    simp only [comparisons_eq_ok_iff (Nat.le_of_eq harity.symm), request_of_compile hn ht]
    constructor
    · rintro ⟨_, ⟨operands, hoperands, rfl⟩, rfl⟩
      exact ⟨operands, (forall₂_operand_iff hn ht).1 hoperands, rfl⟩
    · rintro ⟨operands, hoperands, rfl⟩
      exact ⟨_, ⟨operands, (forall₂_operand_iff hn ht).2 hoperands, rfl⟩, rfl⟩
  · exact map_fst_allot ..
  · exact flatMap_snd_allot harity
  · exact length_of_mem_allot (Nat.le_of_eq harity.symm) hp
  · obtain ⟨f, hf, hdescribes⟩ := describes_of_compile ht clause hclause
    refine ⟨f, hf, ?_, hdescribes⟩
    rw [hdescribes.1]
    exact EntityMetadata.field?_of_mem hn hf

def editionEntry : CatalogEntry :=
  let title := { FieldDescriptor.plain "title" with
    nativeName := "headline", valueKind := some .text }
  let year := { FieldDescriptor.plain "year" with valueKind := some .int }
  ⟨⟨"editions", "Edition", [title, year], none⟩, [.stored title, .stored year]⟩

def latestEditions : Name :=
  ⟨.find, [⟨.and, "year", "year", .between, some .int⟩,
    ⟨.or, "title", "headline", .like, some .text⟩], [⟨"year", "year", .descending⟩]⟩

theorem parse_latestEditions : Name.parse "findByYearBetweenOrTitleLikeOrderByYearDesc"
    editionEntry.metadata false = .ok latestEditions := by
  have hstart : splitPrefix? "findByYearBetweenOrTitleLikeOrderByYearDesc" =
    some (.find, true, "YearBetweenOrTitleLikeOrderByYearDesc") := by cbv
  have horder : splitOrder (camelWords "YearBetweenOrTitleLikeOrderByYearDesc") =
    (["Year", "Between", "Or", "Title", "Like"], some ["Year", "Desc"]) := rfl
  refine (Name.parse_eq_ok_iff hstart).2 ⟨rfl, ?_, ?_⟩ <;> rw [horder]
  · cbv
  · exact (Scope.fieldSorts_of_longestField? (by cbv)).trans (by cbv)

theorem editions_called : ∃ t,
    compile "findByYearBetweenOrTitleLikeOrderByYearDesc" editionEntry.metadata
      Settings.standard = .ok t ∧
    t.assemble [.sort ⟨"title", .ascending⟩, .value (.text "1999"), .limit ⟨3, 5, by decide⟩,
      .value (.text "2005"), .page ⟨2, 10, [⟨"title", .descending⟩], by decide, by decide⟩,
      .value (.text "The%")] = .ok ⟨.find, {
        collection := "editions"
        condition := some (.any [
          .compare "year" .between (.list [.int 1999, .int 2005]),
          .compare "headline" .like (.text "The%")])
        sorts := [⟨"headline", .ascending⟩, ⟨"year", .descending⟩, ⟨"headline", .descending⟩]
        skip := 3
        limit := 5 }, some ⟨2, 10, [⟨"title", .descending⟩], by decide, by decide⟩⟩ ∧
    t.assemble [.value (.text "1999"), .value (.text "soon"), .value (.text "The%")] =
      .error (.coercion "year" ⟨.text, .int, "soon"⟩) ∧
    t.assemble [.value (.text "1999")] = .error (.arity t.method 3 1) := by
  have hb : Catalog.build Settings.standard [editionEntry.metadata] =
    .ok ⟨Settings.standard, [editionEntry]⟩ := by cbv
  obtain ⟨t, ht, hname⟩ : ∃ t,
      compile "findByYearBetweenOrTitleLikeOrderByYearDesc" editionEntry.metadata
        Settings.standard = .ok t ∧ t.name = latestEditions :=
    ⟨_, compile_eq_ok_iff.2 ⟨_, parse_latestEditions, rfl⟩, rfl⟩
  have hcall := call_iff hb List.mem_cons_self ht
  have harity : t.arity = 3 := by
    rw [arity, hname]
    rfl
  refine ⟨t, ht, ?_, ?_, ?_⟩
  · refine ((hcall _).2.1 _).2 ⟨harity.symm, [.list [.int 1999, .int 2005], .text "The%"], ?_, ?_⟩
    · rw [shares, hname]
      exact .cons (by cbv) (.cons (by cbv) .nil)
    · rw [hname]
      rfl
  · refine ((hcall _).1 _).2 (.inr ⟨harity.symm, [],
      ⟨.and, "year", "year", .between, some .int⟩, [.text "1999", .text "soon"],
      [(⟨.or, "title", "headline", .like, some .text⟩, [.text "The%"])], ⟨.text, .int, "soon"⟩, ?_⟩)
    rw [shares, hname]
    exact ⟨rfl, fun p hp => absurd hp List.not_mem_nil, by cbv, rfl⟩
  · refine ((hcall _).1 _).2 (.inl ⟨?_, ?_⟩)
    · rw [harity]
      decide
    · rw [harity, method_of_compile ht]
      rfl

end Method.Template
end RecordMapping
