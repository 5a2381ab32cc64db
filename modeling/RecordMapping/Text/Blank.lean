/-!
Blank characters: the property White_Space, trimming, and texts that hold nothing else.
-/
namespace RecordMapping.Text

/-- Whether a character has the property White_Space. -/
def isBlank (c : Char) : Bool :=
  let n := c.toNat
  (9 ≤ n && n ≤ 13) || n == 0x20 || n == 0x85 || n == 0xA0 || n == 0x1680 ||
    (0x2000 ≤ n && n ≤ 0x200A) || n == 0x2028 || n == 0x2029 || n == 0x202F ||
    n == 0x205F || n == 0x3000

def trim (cs : List Char) : List Char :=
  ((cs.dropWhile isBlank).reverse.dropWhile isBlank).reverse

def isBlankText (s : String) : Bool :=
  s.toList.all isBlank

theorem dropWhile_isBlank_eq_nil (cs : List Char) :
    cs.dropWhile isBlank = [] ↔ cs.all isBlank = true := by
  induction cs with
  | nil => simp
  | cons c cs ih => cases h : isBlank c <;> simp_all

theorem all_isBlank_dropWhile {cs : List Char} (h : (cs.dropWhile isBlank).all isBlank = true) :
    cs.all isBlank = true := by
  induction cs with
  | nil => rfl
  | cons c cs ih => cases hc : isBlank c <;> simp_all

theorem trim_eq_nil_iff (cs : List Char) : trim cs = [] ↔ cs.all isBlank = true := by
  rw [trim, List.reverse_eq_nil_iff, dropWhile_isBlank_eq_nil, List.all_reverse]
  exact ⟨all_isBlank_dropWhile, fun h => by rw [(dropWhile_isBlank_eq_nil cs).2 h]; rfl⟩

theorem isBlankText_iff (s : String) : isBlankText s = true ↔ trim s.toList = [] :=
  (trim_eq_nil_iff s.toList).symm

end RecordMapping.Text
