import RecordMapping.Proofs.Query.Channels
/-!
Conditions as they are made. Comparisons have operands that their operators can be called with, a
negation is one of a comparison, and what is joined to the rest is a comparison or a negation. The
conditions of chains are such, and so are those of methods, which compare what their types store.
-/
namespace RecordMapping

open RecordMapping.Method

def Operator.Takes : Operator → Value → Prop
  | .between, v => ∃ low high, v = .list [low, high]
  | .among, v => ∃ items, v = .list items
  | _, _ => True

theorem Test.takes_operand (t : Test) : t.op.Takes t.operand := by
  cases t with
  | single op operand hop =>
    cases op with
    | between => exact absurd rfl hop.1
    | among => exact absurd rfl hop.2
    | _ => trivial
  | between low high => exact ⟨low, high, rfl⟩
  | among values => exact ⟨values, rfl⟩

namespace Condition

mutual

def nodes : Condition → List Condition
  | compare name op operand => [compare name op operand]
  | all conditions => all conditions :: nodesOf conditions
  | any conditions => any conditions :: nodesOf conditions
  | not condition => not condition :: nodes condition

def nodesOf : List Condition → List Condition
  | [] => []
  | c :: rest => nodes c ++ nodesOf rest

end

def IsTerm : Condition → Prop
  | compare _ _ _ => True
  | not (compare _ _ _) => True
  | _ => False

def Formed : Condition → Prop
  | compare _ op operand => op.Takes operand
  | all conditions => ∃ earlier next, conditions = [earlier, next] ∧ next.IsTerm
  | any conditions => ∃ earlier next, conditions = [earlier, next] ∧ next.IsTerm
  | not condition => (not condition).IsTerm

def WellFormed (c : Condition) : Prop :=
  ∀ node ∈ c.nodes, node.Formed

def Concerns (allowed : String → Prop) (c : Condition) : Prop :=
  ∀ name op operand, compare name op operand ∈ c.nodes → allowed name

variable {allowed : String → Prop} {c earlier next : Condition}

theorem mem_nodes_pair {k : Connector} {node : Condition} (h : node ∈ (pair k earlier next).nodes) :
    node = pair k earlier next ∨ node ∈ earlier.nodes ∨ node ∈ next.nodes := by
  cases k <;> simpa [pair, nodes, nodesOf] using h

theorem formed_pair (k : Connector) (earlier : Condition) (h : next.IsTerm) :
    (pair k earlier next).Formed := by
  cases k <;> exact ⟨earlier, next, rfl, h⟩

theorem wellFormed_pair (k : Connector) (hearlier : earlier.WellFormed) (hnext : next.WellFormed)
    (hterm : next.IsTerm) : (pair k earlier next).WellFormed := by
  intro node hnode
  rcases mem_nodes_pair hnode with rfl | hnode | hnode
  · exact formed_pair k earlier hterm
  · exact hearlier node hnode
  · exact hnext node hnode

theorem concerns_pair (k : Connector) (hearlier : earlier.Concerns allowed)
    (hnext : next.Concerns allowed) : (pair k earlier next).Concerns allowed := by
  intro name op operand hnode
  rcases mem_nodes_pair hnode with heq | hnode | hnode
  · cases k <;> cases heq
  · exact hearlier name op operand hnode
  · exact hnext name op operand hnode

theorem fold_induction {P : Condition → Prop} {clauses : List (Connector × Condition)}
    (hfirst : ∀ p ∈ clauses, P p.2)
    (hjoin : ∀ earlier, P earlier → ∀ p ∈ clauses, P (pair p.1 earlier p.2)) :
    ∀ c ∈ fold clauses, P c := by
  -- from the end of the list, as the clause that is joined last stands outermost
  induction clauses using List.reverseRecOn with
  | nil => exact fun _ h => nomatch h
  | append_singleton clauses p ih =>
    intro c hc
    obtain ⟨k, next⟩ := p
    have hlast : (k, next) ∈ clauses ++ [(k, next)] := by simp
    rw [fold_concat, Option.mem_some_iff] at hc
    subst hc
    cases hfold : fold clauses with
    | none => exact hfirst _ hlast
    | some earlier =>
      refine hjoin earlier (ih (fun p hp => ?_) (fun e he p hp => ?_) earlier hfold) _ hlast
      · exact hfirst p (List.mem_append_left _ hp)
      · exact hjoin e he p (List.mem_append_left _ hp)

end Condition

namespace Link

variable (l : Link)

theorem isTerm_condition : l.condition.IsTerm := by
  rw [condition]
  split <;> trivial

theorem wellFormed_condition : l.condition.WellFormed := by
  have htakes := l.test.takes_operand
  rw [condition]
  split
  · exact List.forall_mem_cons.2 ⟨trivial, List.forall_mem_singleton.2 htakes⟩
  · exact List.forall_mem_singleton.2 htakes

theorem concerns_condition : l.condition.Concerns (· = l.field) := by
  intro name op operand hnode
  rw [condition] at hnode
  split at hnode
  · simp only [Condition.nodes, List.mem_cons, reduceCtorEq, List.not_mem_nil, or_false,
      false_or, Condition.compare.injEq] at hnode
    exact hnode.1
  · simp only [Condition.nodes, List.mem_singleton, Condition.compare.injEq] at hnode
    exact hnode.1

end Link

namespace Condition

theorem fold_of_links {allowed : String → Prop} {clauses : List (Connector × Condition)}
    (h : ∀ p ∈ clauses, ∃ l : Link, p.2 = l.condition ∧ allowed l.field) :
    ∀ c ∈ fold clauses, c.WellFormed ∧ c.Concerns allowed := by
  have hclause : ∀ p ∈ clauses, p.2.IsTerm ∧ p.2.WellFormed ∧ p.2.Concerns allowed := by
    intro p hp
    obtain ⟨l, hcondition, hallowed⟩ := h p hp
    rw [hcondition]
    refine ⟨l.isTerm_condition, l.wellFormed_condition, fun name op operand hnode => ?_⟩
    exact (l.concerns_condition name op operand hnode) ▸ hallowed
  refine fold_induction (fun p hp => (hclause p hp).2) fun earlier hearlier p hp => ?_
  obtain ⟨hterm, hformed, hconcerns⟩ := hclause p hp
  exact ⟨wellFormed_pair p.1 hearlier.1 hformed hterm, concerns_pair p.1 hearlier.2 hconcerns⟩

end Condition

namespace Chain

variable {phase : Phase}

theorem wellFormed_comparisons {aim : Aim} (c : Chain aim phase) :
    ∀ condition ∈ Condition.fold c.comparisons, condition.WellFormed := by
  have hlinks : ∀ p ∈ c.comparisons, ∃ l : Link, p.2 = l.condition ∧ True := by
    intro p hp
    obtain ⟨call, _, hcall⟩ := List.mem_filterMap.1 hp
    cases call with
    | compare connector link => exact ⟨link, congrArg Prod.snd (Option.some.inj hcall).symm, trivial⟩
    | _ => cases hcall
  intro condition h
  exact (@Condition.fold_of_links (fun _ => True) _ hlinks condition h).1

theorem wellFormed_of_build {c : Chain .selection phase} {q : Query} (h : c.builder.build = .ok q) :
    ∀ condition ∈ q.condition, condition.WellFormed := by
  rw [build_eq] at h
  split at h
  · cases h
  · obtain rfl := Except.ok.inj h
    exact c.wellFormed_comparisons

theorem wellFormed_of_buildDelete {c : Chain .removal phase} {q : DeleteQuery}
    (h : c.builder.buildDelete = .ok q) : ∀ condition ∈ q.condition, condition.WellFormed := by
  rw [buildDelete_eq] at h
  split at h
  · cases h
  · obtain rfl := Except.ok.inj h
    exact c.wellFormed_comparisons

end Chain

def EntityMetadata.Stores (m : EntityMetadata) (name : String) : Prop :=
  ∃ f ∈ m.fields, f.nativeName = name

theorem Method.Template.wellFormed_of_assemble {metadata : EntityMetadata} {settings : Settings}
    {method : String} {t : Template} (ht : Template.compile method metadata settings = .ok t)
    {arguments : List Argument} {request : Request} (h : t.assemble arguments = .ok request) :
    ∀ c ∈ request.query.condition, c.WellFormed ∧ c.Concerns metadata.Stores := by
  obtain ⟨tests, _, hcondition⟩ := exists_links h
  rw [hcondition]
  refine Condition.fold_of_links fun p hp => ?_
  obtain ⟨_, hlink, rfl⟩ := List.mem_map.1 hp
  obtain ⟨⟨clause, test⟩, hmem, rfl⟩ := List.mem_map.1 hlink
  obtain ⟨f, hf, _, hnative, _⟩ := describes_of_compile ht clause (List.of_mem_zip hmem).1
  exact ⟨⟨clause.native, 0, test⟩, rfl, f, hf, hnative.symm⟩

end RecordMapping
