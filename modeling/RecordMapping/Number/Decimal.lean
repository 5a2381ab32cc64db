import RecordMapping.Number.Binary
import RecordMapping.Text.Numeral
/-!
Decimal text of double-precision numbers: reading a numeral to the nearest number, and the fewest
digits that read back.
-/
namespace RecordMapping.Number

open RecordMapping.Text

/-- The number nearest to `coefficient * 10 ^ exponent`. Exponents far outside the format are
settled without computing the power. -/
def Binary64.ofDecimal (negative : Bool) (coefficient : Nat) (exponent : Int) : Binary64 :=
  let size : Int := (digits coefficient).length + exponent
  .ofMagnitude negative <|
    if coefficient = 0 ∨ size < -400 then 0
    else if 400 < size then Format.double.infinity
    else if 0 ≤ exponent then Format.double.round (coefficient * Nat.pow 10 exponent.toNat) 1
    else Format.double.round coefficient (Nat.pow 10 (-exponent).toNat)

private def exponent? : List Char → Option Int
  | [] => some 0
  | c :: cs => if c = 'e' ∨ c = 'E' then integer? cs else none

private def numeral? (negative : Bool) (cs : List Char) : Option Binary64 :=
  let whole := cs.takeWhile isDigit
  let rest := cs.dropWhile isDigit
  let (part, rest) := match rest with
    | '.' :: after => (after.takeWhile isDigit, after.dropWhile isDigit)
    | rest => ([], rest)
  if whole.isEmpty && part.isEmpty then none
  else (exponent? rest).map fun e =>
    Binary64.ofDecimal negative (valueOf (whole ++ part)) (e - part.length)

private def unsignedText? (negative : Bool) (cs : List Char) : Option Binary64 :=
  let word := String.ofList (cs.map fun c =>
    if 65 ≤ c.toNat && c.toNat ≤ 90 then Char.ofNat (c.toNat + 32) else c)
  if word = "inf" ∨ word = "infinity" then some (.infinite negative)
  else if word = "nan" then some (.ofMagnitude negative Format.double.quietNaN)
  else numeral? negative cs

def Binary64.ofText? : List Char → Option Binary64
  | '-' :: cs => unsignedText? true cs
  | '+' :: cs => unsignedText? false cs
  | cs => unsignedText? false cs

/-- The bounds and the value of a positive magnitude over one denominator: what lies between the
bounds rounds to the magnitude, and the bounds themselves if `closed`. -/
structure Interval where
  low : Nat
  value : Nat
  high : Nat
  den : Nat
  closed : Bool

def Interval.ofMagnitude (f : Format) (magnitude : Nat) : Interval :=
  let m := f.significand magnitude
  let q := f.scale magnitude - 2
  let below := if m = f.hiddenBit ∧ f.least < q + 2 then 1 else 2
  let up := Nat.pow 2 q.toNat
  ⟨(4 * m - below) * up, 4 * m * up, (4 * m + 2) * up, Nat.pow 2 (-q).toNat, m % 2 == 0⟩

def Interval.contains (i : Interval) (n den : Nat) : Bool :=
  if i.closed then i.low * den ≤ n * i.den && n * i.den ≤ i.high * den
  else i.low * den < n * i.den && n * i.den < i.high * den

/-- The grid point of place `place` inside the interval that is nearest to the value, a tie going
up; `none` if neither neighbour of the value is inside. -/
def Interval.onGrid? (i : Interval) (place : Int) : Option Nat :=
  let up := Nat.pow 10 place.toNat
  let down := Nat.pow 10 (-place).toNat
  let n := i.value * down / (i.den * up)
  let lower := i.contains (n * up) down
  let upper := i.contains ((n + 1) * up) down
  if lower && upper then
    let offset := i.value * down - n * (i.den * up)
    if 2 * offset < i.den * up then some n else some (n + 1)
  else if lower then some n
  else if upper then some (n + 1)
  else none

/-- The first grid with a point inside, from a coarse place on to finer ones. -/
def Interval.shortest (i : Interval) : Nat → Int → Nat × Int
  | 0, place => (i.value, place)
  | fuel + 1, place =>
    match i.onGrid? place with
    | some n => (n, place)
    | none => i.shortest fuel (place - 1)

/-- The fewest decimal digits that read back as a positive magnitude, and the place of the last
one. -/
def shortestDecimal (magnitude : Nat) : Nat × Int :=
  let i := Interval.ofMagnitude Format.double magnitude
  let first : Int :=
    if i.den ≤ i.value then (digits (i.value / i.den)).length
    else 1 - (digits (i.den / i.value)).length
  i.shortest 20 first

/-- Digits around a point, without an exponent; `fraction` is written if no digit follows the
point. -/
def positional (ds : List Char) (place : Int) (fraction : List Char) : List Char :=
  let point := ds.length + place
  if 0 ≤ place then ds ++ List.replicate place.toNat '0' ++ fraction
  else if 0 < point then ds.take point.toNat ++ '.' :: ds.drop point.toNat
  else '0' :: '.' :: List.replicate (-point).toNat '0' ++ ds

def scientific (ds : List Char) (place : Int) : List Char :=
  let power := (ds.length : Int) + place - 1
  ds.take 1 ++ (if ds.length ≤ 1 then [] else '.' :: ds.drop 1) ++
    'e' :: (showInt power).toList

/-- How numbers are written: the text that follows a whole number, and the powers of ten that are
written out instead of being given as an exponent. -/
structure NumberStyle where
  whole : String
  spelledOut : Int → Bool

def NumberStyle.plain : NumberStyle := ⟨"", fun _ => true⟩

def NumberStyle.detailed : NumberStyle := ⟨".0", fun power => -4 ≤ power && power < 16⟩

def Binary64.write (style : NumberStyle) (x : Binary64) : String :=
  if x.isNaN then "NaN"
  else
    let body := if !x.isFinite then "inf".toList
      else if x.magnitude = 0 then '0' :: style.whole.toList
      else
        let (n, place) := shortestDecimal x.magnitude
        let ds := digits n
        if style.spelledOut (ds.length + place - 1) then positional ds place style.whole.toList
        else scientific ds place
    String.ofList (if x.isNegative then '-' :: body else body)

end RecordMapping.Number
