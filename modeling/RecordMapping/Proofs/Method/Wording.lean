import RecordMapping.Method.Name
import RecordMapping.Proofs.Method.Words
import Mathlib.Data.List.Chain
import Mathlib.Data.List.Infix
/-!
Wordings: what a method name with conditions is to say, the text that says it, and the words that
this text is cut into.
-/
namespace RecordMapping.Method

open RecordMapping.Text

def capitalized (s : String) : String :=
  match s.toList with
  | [] => ""
  | c :: rest => String.ofList (c.toUpper :: rest)

def fieldWords (f : FieldDescriptor) : List String :=
  camelWords (capitalized f.name)

namespace Wording

def start : Action → String
  | .find => "findBy"
  | .count => "countBy"
  | .exist => "existsBy"
  | .delete => "deleteBy"

def connector : Connector → String
  | .and => "And"
  | .or => "Or"

def suffix : Operator → String
  | .equals => ""
  | .greater => "GreaterThan"
  | .greaterOrEqual => "GreaterThanEqual"
  | .less => "LessThan"
  | .lessOrEqual => "LessThanEqual"
  | .like => "Like"
  | .between => "Between"
  | .among => "In"

def suffixWords : Operator → List String
  | .equals => []
  | .greater => ["Greater", "Than"]
  | .greaterOrEqual => ["Greater", "Than", "Equal"]
  | .less => ["Less", "Than"]
  | .lessOrEqual => ["Less", "Than", "Equal"]
  | .like => ["Like"]
  | .between => ["Between"]
  | .among => ["In"]

def direction : Direction → String
  | .ascending => "Asc"
  | .descending => "Desc"

/-- A field and the operator that it is compared with. -/
structure Comparison where
  field : FieldDescriptor
  op : Operator

namespace Comparison

def text (c : Comparison) : String :=
  capitalized c.field.name ++ suffix c.op

def words (c : Comparison) : List String :=
  fieldWords c.field ++ suffixWords c.op

def clause (connector : Connector) (c : Comparison) : Clause :=
  ⟨connector, c.field.name, c.field.nativeName, c.op, c.field.valueKind⟩

end Comparison

def othersText : List (Connector × Comparison) → String
  | [] => ""
  | (k, c) :: others => connector k ++ (c.text ++ othersText others)

def othersWords : List (Connector × Comparison) → List String
  | [] => []
  | (k, c) :: others => connector k :: (c.words ++ othersWords others)

/-- A field and the direction that it is ordered in. -/
structure Ordering where
  field : FieldDescriptor
  direction : Direction

def Ordering.sort (o : Ordering) : FieldSort :=
  ⟨o.field.name, o.field.nativeName, o.direction⟩

def orderingText : List Ordering → String
  | [] => ""
  | o :: later => capitalized o.field.name ++ (direction o.direction ++ orderingText later)

def orderingWords : List Ordering → List String
  | [] => []
  | o :: later => fieldWords o.field ++ direction o.direction :: orderingWords later

end Wording

/-- What a method name with conditions is to say: one comparison at least, and an ordering, which
may be empty. -/
structure Wording where
  action : Action
  first : Wording.Comparison
  others : List (Connector × Wording.Comparison)
  order : List Wording.Ordering

namespace Wording

def orderText : List Ordering → String
  | [] => ""
  | o :: later => "OrderBy" ++ orderingText (o :: later)

def orderWords : List Ordering → List String
  | [] => []
  | o :: later => "Order" :: "By" :: orderingWords (o :: later)

def rest (w : Wording) : String :=
  w.first.text ++ (othersText w.others ++ orderText w.order)

def text (w : Wording) : String :=
  start w.action ++ w.rest

def name (w : Wording) : Name :=
  ⟨w.action, w.first.clause .and :: w.others.map fun (k, c) => c.clause k,
    w.order.map Ordering.sort⟩

def fields (w : Wording) : List FieldDescriptor :=
  w.first.field :: w.others.map (·.2.field) ++ w.order.map (·.field)

/-- Wherever an ordering starts, no run of words longer than those of its field is a field too. -/
def Unambiguous (w : Wording) (m : EntityMetadata) (strict : Bool) : Prop :=
  ∀ o later, o :: later <:+ w.order → ∀ run, run <+: camelWords (orderingText (o :: later)) →
    (fieldWords o.field).length < run.length → m.resolve? strict (joined run) = none

instance (w : Wording) (m : EntityMetadata) (strict : Bool) : Decidable (w.Unambiguous m strict) :=
  decidable_of_iff (∀ tail ∈ w.order.tails, ∀ o ∈ tail.head?,
      ∀ run ∈ (camelWords (orderingText tail)).inits,
        (fieldWords o.field).length < run.length → m.resolve? strict (joined run) = none) <| by
    constructor
    · intro h o later htail run hrun
      exact h _ ((List.mem_tails _ _).2 htail) o rfl run ((List.mem_inits _ _).2 hrun)
    · intro h tail htail o ho run hrun
      obtain ⟨later, rfl⟩ := List.head?_eq_some_iff.1 ho
      exact h o later ((List.mem_tails _ _).1 htail) run ((List.mem_inits _ _).1 hrun)

end Wording

def marks : List String :=
  ["And", "Or", "Equal", "Than", "Between", "Like", "In"]

def Unmarked (word next : String) : Prop :=
  ¬(word = "Order" ∧ next = "By")

instance : DecidableRel Unmarked := fun _ _ => inferInstanceAs (Decidable (¬_))

/-- A field that can stand in method names: its name starts with a small letter, and none of its
words is a mark. -/
structure Writable (f : FieldDescriptor) : Prop where
  small : ∃ c rest, f.name.toList = c :: rest ∧ c.isLower = true
  plain : ∀ word ∈ fieldWords f, word ∉ marks
  unmarked : (fieldWords f).IsChain Unmarked

section Capitals

variable {c : Char} {s t : String}

theorem lower_toUpper (h : c.isLower = true) :
    lower c.toUpper = [c] ∧ isUpper c.toUpper = true ∧ c.toUpper.isLower = false := by
  have hall : ∀ n ∈ List.range' 97 26, lower (Char.ofNat n).toUpper = [Char.ofNat n] ∧
      isUpper (Char.ofNat n).toUpper = true ∧ (Char.ofNat n).toUpper.isLower = false := by decide
  have hmem : c.toNat ∈ List.range' 97 26 := by
    obtain ⟨hlow, hhigh⟩ := Bool.and_eq_true_iff.1 h
    rw [List.mem_range'_1]
    exact ⟨of_decide_eq_true hlow, Nat.lt_succ_of_le (of_decide_eq_true hhigh)⟩
  rw [← Char.ofNat_toNat c]
  exact hall _ hmem

theorem toList_capitalized {rest : List Char} (h : s.toList = c :: rest) :
    (capitalized s).toList = c.toUpper :: rest := by
  rw [capitalized, h]
  exact String.toList_ofList

theorem startsUpper_append (hs : StartsUpper s.toList) (ht : StartsUpper t.toList) :
    StartsUpper (s ++ t).toList := by
  rw [String.toList_append]
  intro c hc
  cases h : s.toList with
  | nil =>
    rw [h] at hc
    exact ht c hc
  | cons d rest =>
    rw [h] at hc hs
    exact hs c hc

theorem Writable.startsUpper {f : FieldDescriptor} (hf : Writable f) :
    StartsUpper (capitalized f.name).toList := by
  obtain ⟨c, rest, hname, hsmall⟩ := hf.small
  rw [toList_capitalized hname]
  intro d hd
  obtain rfl := Option.some.inj hd
  exact (lower_toUpper hsmall).2.1

theorem Writable.fieldWords_ne_nil {f : FieldDescriptor} (hf : Writable f) : fieldWords f ≠ [] := by
  obtain ⟨c, rest, hname, _⟩ := hf.small
  obtain ⟨word, words, hcut⟩ := exists_cut_cons c.toUpper rest
  rw [fieldWords, camelWords, toList_capitalized hname, hcut]
  exact List.cons_ne_nil _ _

end Capitals

namespace Wording

theorem camelWords_suffix (op : Operator) : camelWords (suffix op) = suffixWords op := by
  cases op <;> rfl

theorem startsUpper_suffix (op : Operator) : StartsUpper (suffix op).toList := by
  cases op <;> decide

theorem camelWords_connector (k : Connector) : camelWords (connector k) = [connector k] := by
  cases k <;> rfl

theorem startsUpper_connector (k : Connector) : StartsUpper (connector k).toList := by
  cases k <;> decide

theorem camelWords_direction (d : Direction) : camelWords (direction d) = [direction d] := by
  cases d <;> rfl

theorem startsUpper_direction (d : Direction) : StartsUpper (direction d).toList := by
  cases d <;> decide

theorem Comparison.startsUpper_text {c : Comparison} (hc : Writable c.field) :
    StartsUpper c.text.toList :=
  startsUpper_append hc.startsUpper (startsUpper_suffix c.op)

theorem Comparison.camelWords_text (c : Comparison) : camelWords c.text = c.words := by
  rw [text, camelWords_append (startsUpper_suffix c.op), camelWords_suffix]
  rfl

theorem startsUpper_othersText {others : List (Connector × Comparison)}
    (h : ∀ other ∈ others, Writable other.2.field) : StartsUpper (othersText others).toList := by
  induction others with
  | nil => decide
  | cons other others ih =>
    have hfirst := Comparison.startsUpper_text (h other List.mem_cons_self)
    have hothers := ih fun other hother => h other (List.mem_cons_of_mem _ hother)
    exact startsUpper_append (startsUpper_connector _) (startsUpper_append hfirst hothers)

theorem camelWords_othersText {others : List (Connector × Comparison)}
    (h : ∀ other ∈ others, Writable other.2.field) :
    camelWords (othersText others) = othersWords others := by
  induction others with
  | nil => rfl
  | cons other others ih =>
    have hlater : ∀ other ∈ others, Writable other.2.field :=
      fun other hother => h other (List.mem_cons_of_mem _ hother)
    have hothers := startsUpper_othersText hlater
    have hfirst := Comparison.startsUpper_text (h other List.mem_cons_self)
    rw [othersText, camelWords_append (startsUpper_append hfirst hothers),
      camelWords_append hothers, camelWords_connector, Comparison.camelWords_text, ih hlater]
    rfl

theorem startsUpper_orderingText {order : List Ordering} (h : ∀ o ∈ order, Writable o.field) :
    StartsUpper (orderingText order).toList := by
  induction order with
  | nil => decide
  | cons o later ih =>
    have hlater := ih fun o ho => h o (List.mem_cons_of_mem _ ho)
    exact startsUpper_append (h o List.mem_cons_self).startsUpper
      (startsUpper_append (startsUpper_direction _) hlater)

theorem camelWords_orderingText {order : List Ordering} (h : ∀ o ∈ order, Writable o.field) :
    camelWords (orderingText order) = orderingWords order := by
  induction order with
  | nil => rfl
  | cons o later ih =>
    have hwritable : ∀ o ∈ later, Writable o.field := fun o ho => h o (List.mem_cons_of_mem _ ho)
    have hlater := startsUpper_orderingText hwritable
    rw [orderingText, camelWords_append (startsUpper_append (startsUpper_direction _) hlater),
      camelWords_append hlater, camelWords_direction, ih hwritable]
    rfl

theorem startsUpper_orderText {order : List Ordering} (h : ∀ o ∈ order, Writable o.field) :
    StartsUpper (orderText order).toList := by
  cases order with
  | nil => decide
  | cons o later => exact startsUpper_append (by decide) (startsUpper_orderingText h)

theorem camelWords_orderText {order : List Ordering} (h : ∀ o ∈ order, Writable o.field) :
    camelWords (orderText order) = orderWords order := by
  cases order with
  | nil => rfl
  | cons o later =>
    rw [orderText, camelWords_append (startsUpper_orderingText h), camelWords_orderingText h]
    rfl

section Unmarked

variable {words next : List String}

theorem isChain_append_of_ne_by (hwords : words.IsChain Unmarked) (hnext : next.IsChain Unmarked)
    (hby : ∀ word ∈ next.head?, word ≠ "By") : (words ++ next).IsChain Unmarked :=
  List.isChain_append.2 ⟨hwords, hnext, fun _ _ word hword h => hby word hword h.2⟩

theorem Comparison.isChain_words {c : Comparison} (hc : Writable c.field) :
    c.words.IsChain Unmarked := by
  have hsuffix : (suffixWords c.op).IsChain Unmarked := by
    cases c.op <;> simp [suffixWords, Unmarked]
  have hby : ∀ word ∈ (suffixWords c.op).head?, word ≠ "By" := by
    cases c.op <;> decide
  exact isChain_append_of_ne_by hc.unmarked hsuffix hby

theorem isChain_append_othersWords (hwords : words.IsChain Unmarked)
    {others : List (Connector × Comparison)} (h : ∀ other ∈ others, Writable other.2.field) :
    (words ++ othersWords others).IsChain Unmarked := by
  induction others generalizing words with
  | nil => rwa [othersWords, List.append_nil]
  | cons other others ih =>
    have hothers := fun other hother => h other (List.mem_cons_of_mem _ hother)
    have hrest := ih (Comparison.isChain_words (h other List.mem_cons_self)) hothers
    have hconnector : ∀ k : Connector, connector k ≠ "Order" ∧ connector k ≠ "By" := by
      intro k
      cases k <;> decide
    refine isChain_append_of_ne_by hwords (List.isChain_cons.2 ⟨?_, hrest⟩) ?_
    · exact fun _ _ hmarked => (hconnector other.1).1 hmarked.1
    · intro word hword
      obtain rfl := Option.some.inj hword
      exact (hconnector other.1).2

end Unmarked

def predicateWords (w : Wording) : List String :=
  w.first.words ++ othersWords w.others

theorem camelWords_rest {w : Wording} (h : ∀ f ∈ w.fields, Writable f) :
    camelWords w.rest = w.predicateWords ++ orderWords w.order := by
  have hothers : ∀ other ∈ w.others, Writable other.2.field := fun other hother =>
    h _ (List.mem_append_left _ (List.mem_cons_of_mem _ (List.mem_map_of_mem hother)))
  have horder : ∀ o ∈ w.order, Writable o.field := fun o ho =>
    h _ (List.mem_append_right _ (List.mem_map_of_mem ho))
  have hstart := startsUpper_orderText horder
  rw [rest, camelWords_append (startsUpper_append (startsUpper_othersText hothers) hstart),
    camelWords_append hstart, Comparison.camelWords_text, camelWords_othersText hothers,
    camelWords_orderText horder, ← List.append_assoc]
  rfl

end Wording
end RecordMapping.Method

namespace RecordMapping.EntityMetadata

/-- Metadata whose fields can all stand in method names, under names that differ in more than case. -/
structure Writable (m : EntityMetadata) : Prop where
  distinct : m.fields.Pairwise fun f g => Text.sameIgnoringCase f.name g.name = false
  fields : ∀ f ∈ m.fields, Method.Writable f

end RecordMapping.EntityMetadata
