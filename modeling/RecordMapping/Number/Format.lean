/-!
Binary interchange formats: a magnitude is a natural number whose bits hold an exponent and a
fraction. Decoding gives the exact value as a significand and a power of two; rounding takes an
exact quotient to the nearest magnitude.
-/
namespace RecordMapping.Number

structure Format where
  fraction : Nat
  exponent : Nat

def Format.double : Format := ⟨52, 11⟩

def Format.single : Format := ⟨23, 8⟩

namespace Format

/-- The bit that a normal number has before its fraction, though it is not stored. -/
def hiddenBit (f : Format) : Nat :=
  Nat.pow 2 f.fraction

def signBit (f : Format) : Nat :=
  Nat.pow 2 f.exponent * f.hiddenBit

/-- The magnitude of infinity; what lies above it is not a number. -/
def infinity (f : Format) : Nat :=
  (Nat.pow 2 f.exponent - 1) * f.hiddenBit

def quietNaN (f : Format) : Nat :=
  f.infinity + f.hiddenBit / 2

/-- The least positive number is two to this power. -/
def least (f : Format) : Int :=
  2 - (Nat.pow 2 (f.exponent - 1) : Int) - f.fraction

/-- A finite magnitude is `significand * 2 ^ scale`. -/
def significand (f : Format) (magnitude : Nat) : Nat :=
  if magnitude < f.hiddenBit then magnitude
  else f.hiddenBit + magnitude % f.hiddenBit

def scale (f : Format) (magnitude : Nat) : Int :=
  if magnitude < f.hiddenBit then f.least
  else f.least + (magnitude / f.hiddenBit : Nat) - 1

/-- The integer nearest to a quotient; halves go to the even neighbour. -/
def nearestEven (num den : Nat) : Nat :=
  let q := num / den
  let r := num % den
  if 2 * r < den ∨ (2 * r = den ∧ q % 2 = 0) then q else q + 1

/-- `num / den` in units of two to the power `q`, as a quotient. -/
def inUnits (num den : Nat) (q : Int) : Nat × Nat :=
  if 0 ≤ q then (num, den * Nat.pow 2 q.toNat) else (num * Nat.pow 2 (-q).toNat, den)

/-- The greatest power of two that is at most a positive quotient. -/
def floorLog2 (num den : Nat) : Int :=
  let k : Int := (Nat.log2 num : Int) - Nat.log2 den
  let (n, d) := inUnits num den k
  if d ≤ n then k else k - 1

/-- The magnitude nearest to a quotient; what is too great for the format is infinite. -/
def round (f : Format) (num den : Nat) : Nat :=
  if num = 0 then 0
  else
    let q := max (floorLog2 num den - f.fraction) f.least
    let (n, d) := inUnits num den q
    min (nearestEven n d + (q - f.least).toNat * f.hiddenBit) f.infinity

def floor (f : Format) (magnitude : Nat) : Nat :=
  let (n, d) := inUnits (f.significand magnitude) 1 (-f.scale magnitude)
  n / d

def isIntegral (f : Format) (magnitude : Nat) : Bool :=
  let (n, d) := inUnits (f.significand magnitude) 1 (-f.scale magnitude)
  n % d == 0

/-- The magnitude in format `g` nearest to one in format `f`; a NaN keeps the upper bits of its
fraction. -/
def convert (f g : Format) (magnitude : Nat) : Nat :=
  if magnitude < f.infinity then
    let (n, d) := inUnits (f.significand magnitude) 1 (-f.scale magnitude)
    g.round n d
  else if magnitude = f.infinity then g.infinity
  else
    let payload := magnitude % f.hiddenBit
    let half := g.hiddenBit / 2
    let kept := payload * g.hiddenBit / f.hiddenBit
    g.infinity + half + kept % half

end Format
end RecordMapping.Number
