import RecordMapping.Method.Words
import Mathlib.Data.List.Basic
/-!
Words of texts put together: before an upper-case letter a text is always cut, so that the words of
two parts are found in the whole. It is cut nowhere else, which leaves one way to split a text.
-/
namespace RecordMapping.Method

open RecordMapping.Text

/-- Whether words may end before a text: nothing follows, or an upper-case letter does. -/
def StartsUpper (cs : List Char) : Prop :=
  ∀ c ∈ cs.head?, isUpper c = true

theorem startsUpper_nil : StartsUpper [] :=
  fun _ h => nomatch h

theorem startsUpper_cons {c : Char} {rest : List Char} :
    StartsUpper (c :: rest) ↔ isUpper c = true := by
  simp [StartsUpper]

-- only the first letter is looked at, not every character there is
instance : DecidablePred StartsUpper
  | [] => isTrue startsUpper_nil
  | c :: _ => decidable_of_iff (isUpper c = true) startsUpper_cons.symm

theorem exists_cut_cons (c : Char) (rest : List Char) :
    ∃ word words, cut (c :: rest) = (c :: word) :: words := by
  rw [cut]
  split
  · next d word words _ =>
    split
    · exact ⟨[], (d :: word) :: words, rfl⟩
    · exact ⟨d :: word, words, rfl⟩
  · exact ⟨[], _, rfl⟩

theorem cut_cons_upper {d : Char} (hd : isUpper d = true) (c : Char) (rest : List Char) :
    cut (c :: d :: rest) = [c] :: cut (d :: rest) := by
  obtain ⟨word, words, h⟩ := exists_cut_cons d rest
  rw [cut, h]
  exact if_pos hd

theorem cut_cons_other {d : Char} (hd : ¬isUpper d = true) (c : Char) (rest : List Char) :
    cut (c :: d :: rest) = (cut (d :: rest)).modifyHead (c :: ·) := by
  obtain ⟨word, words, h⟩ := exists_cut_cons d rest
  rw [cut, h]
  exact if_neg hd

theorem cut_append {cs ds : List Char} (hd : StartsUpper ds) :
    cut (cs ++ ds) = cut cs ++ cut ds := by
  induction cs with
  | nil => rfl
  | cons c cs ih =>
    cases cs with
    | nil =>
      cases ds with
      | nil => rfl
      | cons d ds => exact cut_cons_upper (hd d rfl) c ds
    | cons b cs =>
      by_cases hb : isUpper b = true
      · calc
          cut (c :: b :: (cs ++ ds)) = [c] :: cut (b :: cs ++ ds) := cut_cons_upper hb c _
          _ = cut (c :: b :: cs) ++ cut ds := by rw [ih, cut_cons_upper hb]; rfl
      · obtain ⟨word, words, h⟩ := exists_cut_cons b cs
        calc
          cut (c :: b :: (cs ++ ds)) = (cut (b :: cs ++ ds)).modifyHead (c :: ·) :=
            cut_cons_other hb c _
          _ = cut (c :: b :: cs) ++ cut ds := by rw [ih, cut_cons_other hb, h]; rfl

theorem camelWords_append {s t : String} (ht : StartsUpper t.toList) :
    camelWords (s ++ t) = camelWords s ++ camelWords t := by
  rw [camelWords, String.toList_append, cut_append ht, List.map_append]
  rfl

theorem joined_camelWords (s : String) : joined (camelWords s) = s := by
  have htext : (camelWords s).flatMap String.toList = (cut s.toList).flatten := by
    rw [camelWords, List.flatMap_map, ← List.flatMap_id]
    exact List.flatMap_congr fun word _ => String.toList_ofList
  rw [joined, htext, flatten_cut, String.ofList_toList]

theorem nil_notMem_cut (cs : List Char) : [] ∉ cut cs := by
  fun_induction cut cs with
  | case1 => exact List.not_mem_nil
  | case2 c rest d word words hcut hupper ih => simpa [hcut] using ih
  | case3 c rest d word words hcut hlower ih =>
    rw [hcut] at ih
    exact fun h => ih (by simpa using h)
  | case4 c rest hcut ih => simpa using ih

theorem ne_empty_of_mem_camelWords {text word : String} (h : word ∈ camelWords text) :
    word ≠ "" := by
  obtain ⟨cs, hcs, rfl⟩ := List.mem_map.1 h
  rintro hempty
  rw [String.ofList_eq_empty_iff] at hempty
  exact nil_notMem_cut text.toList (hempty ▸ hcs)

theorem startsUpper_of_mem_tail_cut (cs : List Char) : ∀ word ∈ (cut cs).tail, StartsUpper word := by
  fun_induction cut cs with
  | case1 => exact fun _ h => nomatch h
  | case2 c rest d word words hcut hupper ih =>
    rw [hcut] at ih
    exact List.forall_mem_cons.2 ⟨startsUpper_cons.2 hupper, ih⟩
  | case3 c rest d word words hcut hlower ih =>
    rw [hcut] at ih
    exact ih
  | case4 c rest hcut ih =>
    cases h : cut rest with
    | nil => exact fun _ h => nomatch h
    | cons word words =>
      cases word with
      | nil => exact absurd (h ▸ List.mem_cons_self) (nil_notMem_cut rest)
      | cons d word => exact absurd h (hcut d word words)

theorem isUpper_of_mem_tail_of_mem_cut (cs : List Char) :
    ∀ word ∈ cut cs, ∀ c ∈ word.tail, isUpper c = false := by
  fun_induction cut cs with
  | case1 => exact fun _ h => nomatch h
  | case2 c rest d word words hcut hupper ih =>
    rw [hcut] at ih
    exact List.forall_mem_cons.2 ⟨(fun _ h => nomatch h), ih⟩
  | case3 c rest d word words hcut hlower ih =>
    rw [hcut] at ih
    obtain ⟨hfirst, hothers⟩ := List.forall_mem_cons.1 ih
    refine List.forall_mem_cons.2 ⟨?_, hothers⟩
    exact List.forall_mem_cons.2 ⟨Bool.eq_false_iff.2 hlower, hfirst⟩
  | case4 c rest hcut ih => exact List.forall_mem_cons.2 ⟨(fun _ h => nomatch h), ih⟩

theorem cut_word (c : Char) {rest : List Char} (h : ∀ d ∈ rest, isUpper d = false) :
    cut (c :: rest) = [c :: rest] := by
  induction rest generalizing c with
  | nil => rfl
  | cons d rest ih =>
    obtain ⟨hd, hrest⟩ := List.forall_mem_cons.1 h
    rw [cut_cons_other (Bool.eq_false_iff.1 hd), ih d hrest]
    rfl

theorem cut_flatten {words : List (List Char)} (hne : [] ∉ words)
    (hupper : ∀ word ∈ words.tail, StartsUpper word)
    (hlower : ∀ word ∈ words, ∀ c ∈ word.tail, isUpper c = false) : cut words.flatten = words := by
  induction words with
  | nil => rfl
  | cons word words ih =>
    obtain ⟨hword, hwords⟩ := List.ne_and_not_mem_of_not_mem_cons hne
    obtain ⟨hfirst, hothers⟩ := List.forall_mem_cons.1 hlower
    have hrest : cut words.flatten = words :=
      ih hwords (fun w hw => hupper w (List.mem_of_mem_tail hw)) hothers
    have hstarts : StartsUpper words.flatten := by
      cases words with
      | nil => exact startsUpper_nil
      | cons next words =>
        obtain ⟨hnext, _⟩ := List.ne_and_not_mem_of_not_mem_cons hwords
        cases next with
        | nil => exact absurd rfl hnext
        | cons d next => exact startsUpper_cons.2 (startsUpper_cons.1 (hupper _ List.mem_cons_self))
    cases word with
    | nil => exact absurd rfl hword
    | cons c word =>
      have hone : cut (c :: word) = [c :: word] := cut_word c hfirst
      rw [List.flatten_cons, cut_append hstarts, hone, hrest]
      rfl

/-- Whether words are those that a text is put together from: none of them is empty, each but the
first begins with an upper-case letter, and no other letter of a word is upper-case. -/
structure Splits (text : String) (words : List String) : Prop where
  joined : joined words = text
  ne_empty : ∀ word ∈ words, word ≠ ""
  upper : ∀ word ∈ words.tail, ∃ c ∈ word.toList.head?, isUpper c = true
  lower : ∀ word ∈ words, ∀ c ∈ word.toList.tail, isUpper c = false

theorem splits_camelWords (text : String) : Splits text (camelWords text) where
  joined := joined_camelWords text
  ne_empty := fun _ => ne_empty_of_mem_camelWords
  upper := by
    intro word hword
    rw [camelWords, ← List.map_tail] at hword
    obtain ⟨cs, hcs, rfl⟩ := List.mem_map.1 hword
    have hstarts := startsUpper_of_mem_tail_cut text.toList cs hcs
    rw [String.toList_ofList]
    cases cs with
    | nil => exact absurd (List.mem_of_mem_tail hcs) (nil_notMem_cut text.toList)
    | cons c cs => exact ⟨c, rfl, startsUpper_cons.1 hstarts⟩
  lower := by
    intro word hword
    obtain ⟨cs, hcs, rfl⟩ := List.mem_map.1 hword
    rw [String.toList_ofList]
    exact isUpper_of_mem_tail_of_mem_cut text.toList cs hcs

theorem Splits.eq_camelWords {text : String} {words : List String} (h : Splits text words) :
    words = camelWords text := by
  have htext : text.toList = (words.map String.toList).flatten := by
    rw [← h.joined, RecordMapping.Method.joined, String.toList_ofList, List.flatMap_def]
  have hne : [] ∉ words.map String.toList := by
    intro hmem
    obtain ⟨word, hword, hnil⟩ := List.mem_map.1 hmem
    exact h.ne_empty word hword (String.toList_eq_nil_iff.1 hnil)
  have hupper : ∀ cs ∈ (words.map String.toList).tail, StartsUpper cs := by
    intro cs hcs
    rw [← List.map_tail] at hcs
    obtain ⟨word, hword, rfl⟩ := List.mem_map.1 hcs
    obtain ⟨c, hc, hisUpper⟩ := h.upper word hword
    intro d hd
    rwa [Option.some.inj (hd.symm.trans hc)]
  have hlower : ∀ cs ∈ words.map String.toList, ∀ c ∈ cs.tail, isUpper c = false := by
    intro cs hcs
    obtain ⟨word, hword, rfl⟩ := List.mem_map.1 hcs
    exact h.lower word hword
  rw [camelWords, htext, cut_flatten hne hupper hlower, List.map_map]
  simp [Function.comp_def]

/-- A text is put together from its words in one way only, and before an upper-case letter it can be
taken apart without changing its words. -/
theorem camelWords_only_split (text : String) :
    (∀ words, Splits text words ↔ words = camelWords text) ∧
    ∀ more : String, StartsUpper more.toList →
      camelWords (text ++ more) = camelWords text ++ camelWords more := by
  refine ⟨fun words => ⟨Splits.eq_camelWords, ?_⟩, fun more => camelWords_append⟩
  rintro rfl
  exact splits_camelWords text

theorem year_words : (∀ words, Splits "yearAndÉtat" words ↔ words = ["year", "And", "État"]) ∧
    StartsUpper "LessThan".toList ∧
    camelWords "yearAndÉtatLessThan" = ["year", "And", "État", "Less", "Than"] := by
  have hupper : StartsUpper "LessThan".toList := by decide
  obtain ⟨hsplits, happend⟩ := camelWords_only_split "yearAndÉtat"
  exact ⟨hsplits, hupper, happend "LessThan" hupper⟩

end RecordMapping.Method
