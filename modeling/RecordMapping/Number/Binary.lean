import RecordMapping.Number.Format
/-!
Floating-point numbers as words of the binary interchange formats. Two zeros compare equal and no
NaN compares equal to anything, while the total order tells all words apart.
-/
namespace RecordMapping.Number

structure Binary64 where
  bits : UInt64
deriving DecidableEq

structure Binary32 where
  bits : UInt32
deriving DecidableEq

namespace Binary64

def ofMagnitude (negative : Bool) (magnitude : Nat) : Binary64 :=
  ⟨UInt64.ofNat (if negative then Format.double.signBit + magnitude else magnitude)⟩

def isNegative (x : Binary64) : Bool :=
  Format.double.signBit ≤ x.bits.toNat

def magnitude (x : Binary64) : Nat :=
  x.bits.toNat % Format.double.signBit

def isFinite (x : Binary64) : Bool :=
  x.magnitude < Format.double.infinity

def isNaN (x : Binary64) : Bool :=
  Format.double.infinity < x.magnitude

def nan : Binary64 := ofMagnitude false Format.double.quietNaN

def infinite (negative : Bool) : Binary64 := ofMagnitude negative Format.double.infinity

/-- Equality of values: the two zeros are one value, and a NaN is none. -/
def same (x y : Binary64) : Bool :=
  !x.isNaN && !y.isNaN && (x.bits == y.bits || (x.magnitude == 0 && y.magnitude == 0))

/-- The place of a number in the total order. -/
def rank (x : Binary64) : Int :=
  if x.isNegative then -(x.magnitude : Int) - 1 else x.magnitude

def truncate? (x : Binary64) : Option Int :=
  if x.isFinite then
    let n : Int := Format.double.floor x.magnitude
    some (if x.isNegative then -n else n)
  else none

def integer? (x : Binary64) : Option Int :=
  if x.isFinite && Format.double.isIntegral x.magnitude then x.truncate? else none

def ofInt (n : Int) : Binary64 :=
  ofMagnitude (n < 0) (Format.double.round n.natAbs 1)

end Binary64

namespace Binary32

def ofMagnitude (negative : Bool) (magnitude : Nat) : Binary32 :=
  ⟨UInt32.ofNat (if negative then Format.single.signBit + magnitude else magnitude)⟩

def isNegative (x : Binary32) : Bool :=
  Format.single.signBit ≤ x.bits.toNat

def magnitude (x : Binary32) : Nat :=
  x.bits.toNat % Format.single.signBit

def ofInt (n : Int) : Binary32 :=
  ofMagnitude (n < 0) (Format.single.round n.natAbs 1)

def ofDouble (x : Binary64) : Binary32 :=
  ofMagnitude x.isNegative (Format.double.convert Format.single x.magnitude)

def toDouble (x : Binary32) : Binary64 :=
  Binary64.ofMagnitude x.isNegative (Format.single.convert Format.double x.magnitude)

end Binary32
end RecordMapping.Number
