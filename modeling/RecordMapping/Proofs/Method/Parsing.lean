import RecordMapping.Proofs.Method.Compiled
import RecordMapping.Proofs.Method.Parts
import RecordMapping.Proofs.Method.Wording
/-!
Parsing what was written: the parts of a wording are found again one after the other, the field of
each comparison and each ordering by the words of its capitalized name.
-/
namespace RecordMapping.EntityMetadata

open RecordMapping.Method RecordMapping.Text

variable {m : EntityMetadata} {f : FieldDescriptor}

theorem Writable.nodup_names (hm : m.Writable) : (m.fields.map (·.name)).Nodup := by
  refine List.pairwise_map.2 (hm.distinct.imp fun {f g} hne heq => ?_)
  rw [heq, sameIgnoringCase, beq_self_eq_true] at hne
  exact Bool.noConfusion hne

theorem Writable.field?_capitalized (hm : m.Writable) (hf : Method.Writable f) :
    m.field? (capitalized f.name) = none := by
  refine List.find?_eq_none.2 fun g hg heq => ?_
  obtain ⟨c, rest, hname, hsmall⟩ := hf.small
  obtain ⟨d, rest', hname', hsmall'⟩ := (hm.fields g hg).small
  have hlists : d :: rest' = c.toUpper :: rest := by
    rw [← hname', ← toList_capitalized hname, eq_of_beq heq]
  have hcapital : c.toUpper.isLower = false := (lower_toUpper hsmall).2.2
  rw [← (List.cons.inj hlists).1, hsmall'] at hcapital
  exact Bool.noConfusion hcapital

theorem Writable.resolve?_capitalized (hm : m.Writable) (hf : f ∈ m.fields) (strict : Bool) :
    m.resolve? strict (capitalized f.name) = some f := by
  obtain ⟨c, rest, hname, hsmall⟩ := (hm.fields f hf).small
  have hlist := toList_capitalized hname
  have hnonempty : capitalized f.name ≠ "" := by
    intro h
    rw [h] at hlist
    exact absurd hlist (by simp)
  have hsmallAgain : String.ofList (decapitalize (capitalized f.name).toList) = f.name := by
    rw [hlist, decapitalize, (lower_toUpper hsmall).1, List.singleton_append, ← hname,
      String.ofList_toList]
  rw [resolve?, if_neg hnonempty, hm.field?_capitalized (hm.fields f hf), hsmallAgain,
    field?_of_mem hm.nodup_names hf]
  rfl

end RecordMapping.EntityMetadata

namespace RecordMapping.Method

theorem splitPrefix?_start (a : Action) (rest : String) :
    splitPrefix? (Wording.start a ++ rest) = some (a, true, rest) := by
  cases a <;> simp [splitPrefix?, prefixes, Wording.start, List.isPrefixOf?]

section Order

variable {words rest : List String}

theorem splitOrder_cons {word next : String} (h : Unmarked word next) :
    splitOrder (word :: next :: rest) = (splitOrder (next :: rest)).map (word :: ·) id := by
  rw [splitOrder]
  rintro sorts rfl heq
  exact h ⟨rfl, (List.cons.inj heq).1⟩

theorem splitOrder_singleton (word : String) : splitOrder [word] = ([word], none) := by
  rw [splitOrder]
  · rfl
  · rintro sorts _ heq
    exact absurd heq (by simp)

theorem splitOrder_unmarked (h : words.IsChain Unmarked) : splitOrder words = (words, none) := by
  induction words with
  | nil => rfl
  | cons word words ih =>
    cases words with
    | nil => exact splitOrder_singleton word
    | cons next words =>
      rw [splitOrder_cons (List.isChain_cons_cons.1 h).1, ih (List.isChain_cons_cons.1 h).2]
      rfl

theorem splitOrder_marked (h : words.IsChain Unmarked) :
    splitOrder (words ++ "Order" :: "By" :: rest) = (words, some rest) := by
  induction words with
  | nil => rfl
  | cons word words ih =>
    cases words with
    | nil =>
      have hword : Unmarked word "Order" := fun hmarked => absurd hmarked.2 (by decide)
      exact (splitOrder_cons hword).trans rfl
    | cons next words =>
      obtain ⟨hword, hwords⟩ := List.isChain_cons_cons.1 h
      rw [List.cons_append, List.cons_append, splitOrder_cons hword, ← List.cons_append, ih hwords]
      rfl

end Order

namespace Scope

variable {s : Scope} {words : List String} {f : FieldDescriptor}

section Suffixes

theorem stem?_append (hwords : words ≠ []) (suffix : List String) :
    stem? (words ++ suffix) suffix = some words := by
  have hlength : suffix.length < (words ++ suffix).length := by
    rw [List.length_append]
    exact Nat.lt_add_of_pos_left (List.length_pos_iff.2 hwords)
  have hrest : suffix.reverse.isPrefixOf? (words ++ suffix).reverse = some words.reverse := by
    rw [List.isPrefixOf?_eq_some_iff_append_eq, List.reverse_append]
  rw [stem?, if_pos hlength, hrest, Option.map_some, List.reverse_reverse]

theorem stem?_eq_none {suffix : List String} (h : ¬suffix <:+ words) :
    stem? words suffix = none := by
  rw [stem?]
  split
  · rw [Option.map_eq_none_iff]
    cases hrest : suffix.reverse.isPrefixOf? words.reverse with
    | none => rfl
    | some rest =>
      rw [List.isPrefixOf?_eq_some_iff_append_eq] at hrest
      exact absurd (List.reverse_prefix.1 ⟨rest, hrest⟩) h
  · rfl

def Apart (e e' : List String × Operator) : Prop :=
  ¬e.1 <:+ e'.1 ∧ ¬e'.1 <:+ e.1

instance : DecidableRel Apart := fun _ _ => inferInstanceAs (Decidable (_ ∧ _))

variable {entries : List (List String × Operator)}

theorem suffixed_of_mem (hapart : entries.Pairwise Apart) {suffix : List String} {op : Operator}
    (hmem : (suffix, op) ∈ entries) (hwords : words ≠ [])
    (hf : s.resolve? (joined words) = some f) (unknown : Option String) :
    s.suffixed (words ++ suffix) entries unknown = .ok (f, op) := by
  induction entries with
  | nil => exact absurd hmem List.not_mem_nil
  | cons e entries ih =>
    obtain ⟨hfirst, hentries⟩ := List.pairwise_cons.1 hapart
    rcases List.mem_cons.1 hmem with rfl | hmem
    · rw [suffixed, stem?_append hwords]
      simp only [hf]
    · have hother : ¬e.1 <:+ words ++ suffix := fun h =>
        (List.suffix_or_suffix_of_suffix h (List.suffix_append words suffix)).elim
          (hfirst _ hmem).1 (hfirst _ hmem).2
      rw [suffixed, stem?_eq_none hother]
      exact ih hentries hmem

theorem suffixed_equals (hnone : ∀ e ∈ entries, ¬e.1 <:+ words)
    (hf : s.resolve? (joined words) = some f) (unknown : Option String) :
    s.suffixed words entries unknown = .ok (f, .equals) := by
  induction entries with
  | nil =>
    rw [suffixed]
    simp only [hf]
  | cons e entries ih =>
    rw [suffixed, stem?_eq_none (hnone e List.mem_cons_self)]
    exact ih fun e he => hnone e (List.mem_cons_of_mem _ he)

theorem suffixed_suffixWords (hwords : words ≠ []) (hplain : ∀ word ∈ words, word ∉ marks)
    (hf : s.resolve? (joined words) = some f) (op : Operator) :
    s.suffixed (words ++ Wording.suffixWords op) suffixes none = .ok (f, op) := by
  by_cases hop : op = .equals
  · subst hop
    have hmarked : ∀ e ∈ suffixes, ∃ word ∈ e.1, word ∈ marks := by decide
    rw [Wording.suffixWords, List.append_nil]
    refine suffixed_equals (fun e he hsuffix => ?_) hf none
    obtain ⟨word, hword, hmark⟩ := hmarked e he
    exact hplain word (hsuffix.subset hword) hmark
  · have hapart : suffixes.Pairwise Apart := by decide
    have hmem : (Wording.suffixWords op, op) ∈ suffixes := by
      cases op with
      | equals => exact absurd rfl hop
      | _ => decide
    exact suffixed_of_mem hapart hmem hwords hf none

end Suffixes

section Clauses

variable {c : Wording.Comparison}

theorem resolve?_fieldWords (hm : s.metadata.Writable) (hf : f ∈ s.metadata.fields) :
    s.resolve? (joined (fieldWords f)) = some f := by
  rw [fieldWords, joined_camelWords]
  exact hm.resolve?_capitalized hf s.strict

theorem clause_words (hm : s.metadata.Writable) (hc : c.field ∈ s.metadata.fields)
    (k : Connector) : s.clause k c.words = .ok (c.clause k) := by
  have hfield := hm.fields _ hc
  rw [clause, Wording.Comparison.words, suffixed_suffixWords hfield.fieldWords_ne_nil hfield.plain
    (resolve?_fieldWords hm hc)]
  rfl

theorem connector?_eq_none (hc : Writable c.field) : ∀ word ∈ c.words, connector? word = none := by
  have hmarks : ∀ word, word ∉ marks → connector? word = none := by
    intro word hword
    have hand : word ≠ "And" := fun h => hword (h ▸ List.mem_cons_self)
    have hor : word ≠ "Or" := fun h => hword (h ▸ List.mem_cons_of_mem _ List.mem_cons_self)
    rw [connector?, if_neg hand, if_neg hor]
  intro word hword
  rcases List.mem_append.1 hword with hword | hword
  · exact hmarks word (hc.plain word hword)
  · have hsuffixes : ∀ word ∈ Wording.suffixWords c.op, connector? word = none := by
      cases c.op <;> decide
    exact hsuffixes word hword

theorem clausesFrom_append (h : ∀ word ∈ words, connector? word = none) (k : Connector)
    (taken : List String) (failed : Option QueryError) (rest : List String) :
    s.clausesFrom k taken failed (words ++ rest) = s.clausesFrom k (taken ++ words) failed rest := by
  induction words generalizing taken with
  | nil => rw [List.nil_append, List.append_nil]
  | cons word words ih =>
    have hwords := fun word hword => h word (List.mem_cons_of_mem _ hword)
    rw [List.cons_append, clausesFrom, h word List.mem_cons_self]
    simp only
    rw [ih hwords, List.append_assoc, List.singleton_append]

theorem clausesFrom_end {taken : List String} (htaken : taken ≠ []) {k : Connector} {first : Clause}
    (hfirst : s.clause k taken = .ok first) (failed : Option QueryError) :
    s.clausesFrom k taken failed [] = .ok [first] := by
  rw [clausesFrom, hfirst, if_neg (by simpa using htaken)]
  rfl

theorem clausesFrom_connector {taken rest : List String} (htaken : taken ≠ []) {k next : Connector}
    {first : Clause} {more : List Clause} (hfirst : s.clause k taken = .ok first)
    (hmore : s.clausesFrom next [] none rest = .ok more) (failed : Option QueryError) :
    s.clausesFrom k taken failed (Wording.connector next :: rest) = .ok (first :: more) := by
  have hnext : connector? (Wording.connector next) = some next := by
    cases next <;> rfl
  rw [clausesFrom, hnext, hfirst]
  simp only [hmore]
  rw [if_neg (by simpa using htaken)]
  rfl

/-- The shortest way to cut written comparisons is the one that they were written in. -/
theorem clausesFrom_words (hm : s.metadata.Writable)
    {others : List (Connector × Wording.Comparison)}
    (hc : c.field ∈ s.metadata.fields) (hothers : ∀ o ∈ others, o.2.field ∈ s.metadata.fields)
    (k : Connector) :
    s.clausesFrom k [] none (c.words ++ Wording.othersWords others) =
      .ok (c.clause k :: others.map fun (k, c) => c.clause k) := by
  induction others generalizing c k with
  | nil =>
    have hwords : c.words ≠ [] :=
      List.append_ne_nil_of_left_ne_nil (hm.fields _ hc).fieldWords_ne_nil _
    rw [clausesFrom_append (connector?_eq_none (hm.fields _ hc))]
    exact clausesFrom_end hwords (clause_words hm hc k) none
  | cons other others ih =>
    have hwords : c.words ≠ [] :=
      List.append_ne_nil_of_left_ne_nil (hm.fields _ hc).fieldWords_ne_nil _
    have hmore := ih (hothers other List.mem_cons_self)
      (fun o ho => hothers o (List.mem_cons_of_mem _ ho)) other.1
    rw [clausesFrom_append (connector?_eq_none (hm.fields _ hc))]
    exact clausesFrom_connector hwords (clause_words hm hc k) hmore none

end Clauses

section Sorts

theorem longestField?_eq_none {taken : List String}
    (h : ∀ run, run <+: words → run ≠ [] → s.resolve? (joined (taken ++ run)) = none) :
    s.longestField? taken words = none := by
  induction words generalizing taken with
  | nil => rfl
  | cons word words ih =>
    have hlonger : s.longestField? (taken ++ [word]) words = none := by
      refine ih fun run hrun _ => ?_
      rw [List.append_assoc]
      exact h _ ((List.prefix_append_right_inj [word]).2 hrun) (List.cons_ne_nil _ _)
    have hword := h [word] (List.prefix_append [word] words) (List.cons_ne_nil _ _)
    rw [longestField?, hlonger, hword]
    rfl

theorem longestField?_append {taken run rest : List String} (hrun : run ≠ [])
    (hf : s.resolve? (joined (taken ++ run)) = some f)
    (hlonger : ∀ more, more <+: rest → more ≠ [] →
      s.resolve? (joined (taken ++ run ++ more)) = none) :
    s.longestField? taken (run ++ rest) = some (f, rest) := by
  induction run generalizing taken with
  | nil => exact absurd rfl hrun
  | cons word run ih =>
    rw [List.cons_append, longestField?]
    cases run with
    | nil =>
      rw [List.nil_append, longestField?_eq_none hlonger, hf]
      rfl
    | cons next run =>
      have hnext : taken ++ [word] ++ next :: run = taken ++ word :: next :: run :=
        List.append_cons taken word (next :: run) ▸ rfl
      rw [ih (List.cons_ne_nil _ _) (hnext ▸ hf) (fun more => hnext ▸ hlonger more)]
      rfl

theorem direction_words (d : Direction) (rest : List String) :
    direction (Wording.direction d :: rest) = (d, rest) := by
  cases d <;> rfl

theorem fieldSorts_words (hm : s.metadata.Writable) {order : List Wording.Ordering}
    (horder : ∀ o ∈ order, o.field ∈ s.metadata.fields)
    (hlongest : ∀ o later, o :: later <:+ order → ∀ run,
      run <+: camelWords (Wording.orderingText (o :: later)) →
      (fieldWords o.field).length < run.length → s.resolve? (joined run) = none) :
    s.fieldSorts (Wording.orderingWords order) = .ok (order.map Wording.Ordering.sort) := by
  induction order with
  | nil =>
    rw [Wording.orderingWords, fieldSorts]
    rfl
  | cons o later ih =>
    have hfield := horder o List.mem_cons_self
    have hlater : ∀ o ∈ later, o.field ∈ s.metadata.fields :=
      fun o ho => horder o (List.mem_cons_of_mem _ ho)
    have hwords := Wording.camelWords_orderingText fun o ho => hm.fields _ (horder o ho)
    have hlongestField : s.longestField? [] (Wording.orderingWords (o :: later)) =
        some (o.field, Wording.direction o.direction :: Wording.orderingWords later) := by
      refine longestField?_append (hm.fields _ hfield).fieldWords_ne_nil
        (resolve?_fieldWords hm hfield) fun more hmore hne => ?_
      refine hlongest o later List.suffix_rfl _ ?_ ?_
      · rw [hwords]
        exact (List.prefix_append_right_inj _).2 hmore
      · rw [List.nil_append, List.length_append]
        exact Nat.lt_add_of_pos_right (List.length_pos_iff.2 hne)
    rw [fieldSorts_of_longestField? hlongestField, direction_words, ih hlater]
    · rfl
    · exact fun o' later' hsuffix =>
        hlongest o' later' (hsuffix.trans (List.suffix_cons o later))

end Sorts
/-- The clauses and sorts of a wording are found in the text after its beginning. -/
theorem parts_rest (s : Scope) (hm : s.metadata.Writable) {w : Wording}
    (hfields : ∀ f ∈ w.fields, f ∈ s.metadata.fields)
    (hlongest : w.Unambiguous s.metadata s.strict) :
    s.predicate true (splitOrder (camelWords w.rest)).1 = .ok w.name.clauses ∧
      s.order (splitOrder (camelWords w.rest)).2 = .ok w.name.sorts := by
  have hfirst : w.first.field ∈ s.metadata.fields := hfields _ List.mem_cons_self
  have hothers : ∀ other ∈ w.others, other.2.field ∈ s.metadata.fields := fun other hother =>
    hfields _ (List.mem_append_left _ (List.mem_cons_of_mem _ (List.mem_map_of_mem hother)))
  have horder : ∀ o ∈ w.order, o.field ∈ s.metadata.fields := fun o ho =>
    hfields _ (List.mem_append_right _ (List.mem_map_of_mem ho))
  have hpredicate : w.predicateWords.IsChain Unmarked :=
    Wording.isChain_append_othersWords (Wording.Comparison.isChain_words (hm.fields _ hfirst))
      fun other hother => hm.fields _ (hothers other hother)
  have hne : w.predicateWords ≠ [] :=
    List.append_ne_nil_of_left_ne_nil (List.append_ne_nil_of_left_ne_nil
      (hm.fields _ hfirst).fieldWords_ne_nil _) _
  have hclauses : s.predicate true w.predicateWords = .ok w.name.clauses := by
    rw [predicate, if_pos rfl, if_neg (by simpa using hne)]
    exact s.clausesFrom_words hm hfirst hothers .and
  rw [Wording.camelWords_rest fun f hf => hm.fields f (hfields f hf)]
  cases ho : w.order with
  | nil =>
    have hsorts : w.name.sorts = [] := by rw [Wording.name, ho, List.map_nil]
    rw [Wording.orderWords, List.append_nil, splitOrder_unmarked hpredicate, hsorts]
    exact ⟨hclauses, rfl⟩
  | cons o later =>
    have hordering : Wording.orderingWords w.order ≠ [] := by
      rw [ho]
      exact List.append_ne_nil_of_right_ne_nil _ (List.cons_ne_nil _ _)
    rw [Wording.orderWords, splitOrder_marked hpredicate, ← ho]
    refine ⟨hclauses, ?_⟩
    rw [order, if_neg (by simpa using hordering)]
    exact s.fieldSorts_words hm horder hlongest

end Scope

namespace Name

/-- A name that was written is read as it was meant. -/
theorem parse_text {m : EntityMetadata} (hm : m.Writable) {w : Wording}
    (hfields : ∀ f ∈ w.fields, f ∈ m.fields) {strict : Bool} (hlongest : w.Unambiguous m strict) :
    parse w.text m strict = .ok w.name := by
  let s : Scope := ⟨w.text, m, strict⟩
  have hprefix : splitPrefix? w.text = some (w.action, true, w.rest) :=
    splitPrefix?_start w.action w.rest
  exact (parse_eq_ok_iff hprefix).2 ⟨rfl, s.parts_rest hm hfields hlongest⟩

def members : EntityMetadata :=
  ⟨"members", "Member", [FieldDescriptor.plain "name", FieldDescriptor.plain "age",
    { FieldDescriptor.plain "ageGroup" with nativeName := "age_group" }], none⟩

def byNameOrGroup : Wording :=
  let group : FieldDescriptor := { FieldDescriptor.plain "ageGroup" with nativeName := "age_group" }
  ⟨.find, ⟨FieldDescriptor.plain "name", .like⟩, [(.or, ⟨group, .between⟩)],
    [⟨FieldDescriptor.plain "age", .descending⟩, ⟨group, .ascending⟩]⟩

theorem members_by_name_or_group : members.Writable ∧ byNameOrGroup.Unambiguous members false ∧
    byNameOrGroup.text = "findByNameLikeOrAgeGroupBetweenOrderByAgeDescAgeGroupAsc" ∧
    parse byNameOrGroup.text members false = .ok byNameOrGroup.name := by
  have hm : members.Writable := by
    refine ⟨by decide, ?_⟩
    rw [members, List.forall_mem_cons, List.forall_mem_cons, List.forall_mem_singleton]
    exact ⟨⟨⟨_, _, rfl, rfl⟩, by decide, by decide⟩, ⟨⟨_, _, rfl, rfl⟩, by decide, by decide⟩,
      ⟨⟨_, _, rfl, rfl⟩, by decide, by decide⟩⟩
  have hfields : ∀ f ∈ byNameOrGroup.fields, f ∈ members.fields := by decide
  have hlongest : byNameOrGroup.Unambiguous members false := by decide
  exact ⟨hm, hlongest, by decide, parse_text hm hfields hlongest⟩

end Name
end RecordMapping.Method
