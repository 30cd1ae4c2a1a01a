/-!
# Floating-point numbers of 64 bits

The numbers of the binary interchange format with 53 significant bits, kept as their bits: a sign,
eleven bits of exponent and 52 bits of fraction. Every operation here is exact
arithmetic on whole numbers, rounded once where its result is not a number of the format.

## Main definitions

* `Binary64` : a number given by its bits.
* `Binary64.le` : the order, in which a NaN is comparable with nothing.
* `Binary64.ofDecimal` : the number nearest to a decimal, of two nearest the one with even fraction.
* `Binary64.times`, `Binary64.dividedBy` : the product and the quotient of two magnitudes.
-/

namespace StatusEffects

/-- A floating-point number of 64 bits, given by its bits. -/
structure Binary64 where
  bits : UInt64
deriving DecidableEq, Repr

namespace Binary64

/-- Weight of the sign bit. -/
def signWeight : Nat := 1 <<< 63

/-- Weight of the lowest exponent bit: one more than the greatest fraction. -/
def fractionLimit : Nat := 1 <<< 52

/-- The bits of positive infinity: all exponent bits and no fraction. -/
def infinityBits : Nat := 2047 * fractionLimit

/-- Positive zero. -/
def zero : Binary64 := ⟨0⟩

/-- Positive infinity. -/
def infinity : Binary64 := ⟨UInt64.ofNat infinityBits⟩

/-- A quiet NaN. -/
def nan : Binary64 := ⟨UInt64.ofNat (infinityBits + fractionLimit / 2)⟩

/-- The bits without the sign. -/
def magnitude (x : Binary64) : Nat := x.bits.toNat % signWeight

/-- Whether the sign bit is set. -/
def isNegative (x : Binary64) : Bool := signWeight ≤ x.bits.toNat

/-- Whether the number is no number. -/
def isNaN (x : Binary64) : Bool := infinityBits < x.magnitude

/-- Whether the number is neither infinite nor a NaN. -/
def isFinite (x : Binary64) : Bool := x.magnitude < infinityBits

/-- The number with the opposite sign. -/
def neg (x : Binary64) : Binary64 := ⟨x.bits ^^^ UInt64.ofNat signWeight⟩

/-- A whole number that grows with `x`; both zeros share theirs. -/
def rank (x : Binary64) : Int :=
  if x.isNegative then -(x.magnitude : Int) else x.magnitude

/-- The order of the numbers. A NaN is neither above nor below anything. -/
def le (x y : Binary64) : Bool := !x.isNaN && !y.isNaN && decide (x.rank ≤ y.rank)

/-! ### Rounding a decimal -/

/-- The quotient nearest to `num / den`; of two nearest the even one. -/
def roundQuotient (num den : Nat) : Nat :=
  let q := num / den
  let twice := 2 * (num % den)
  if twice < den then q else if den < twice then q + 1 else q + q % 2

/-- The fraction `num / den` divided by two to the power `e`, as numerator and denominator. -/
def unscale (num den : Nat) (e : Int) : Nat × Nat :=
  if 0 ≤ e then (num, den <<< e.toNat) else (num <<< (-e).toNat, den)

/-- The exponent of the last significant bit for a positive fraction: the quotient has 53 bits, or
fewer at the least exponent there is. -/
def lastBit (num den : Nat) : Int :=
  let e := (Nat.log2 num : Int) - Nat.log2 den - 53
  let (n, d) := unscale num den e
  max (if 2 * fractionLimit * d ≤ n then e + 1 else e) (-1074)

/-- The bits of the number nearest to a positive fraction. -/
def nearestBits (num den : Nat) : Nat :=
  let e := lastBit num den
  let (n, d) := unscale num den e
  min ((e + 1074).toNat * fractionLimit + roundQuotient n d) infinityBits

/-- The number nearest to `digits * 10 ^ exponent`, with the given sign. Beyond 400 places on
either side of the point every decimal rounds to infinity or to zero. -/
def ofDecimal (negative : Bool) (digits : Nat) (exponent : Int) : Binary64 :=
  let size := (Nat.log2 digits : Int) * 30103 / 100000 + exponent
  let bits :=
    if digits = 0 ∨ size < -400 then 0
    else if 400 < size then infinityBits
    else if 0 ≤ exponent then nearestBits (digits * Nat.pow 10 exponent.toNat) 1
    else nearestBits digits (Nat.pow 10 (-exponent).toNat)
  ⟨UInt64.ofNat (if negative then bits + signWeight else bits)⟩

/-! ### Products and quotients -/

/-- How many of the least positive number make up one. -/
def leastPerUnit : Nat := 1 <<< 1074

/-- The magnitude of a finite number as a multiple of the least positive one. -/
def leastUnits (x : Binary64) : Nat :=
  let exponent := x.magnitude / fractionLimit
  let fraction := x.magnitude % fractionLimit
  if exponent = 0 then fraction else (fractionLimit + fraction) <<< (exponent - 1)

/-- The number nearest to the fraction `num / den`. -/
def ofFraction (num den : Nat) : Binary64 :=
  if num = 0 then zero else ⟨UInt64.ofNat (nearestBits num den)⟩

/-- The number nearest to the product of the magnitudes of two finite numbers. -/
def times (x y : Binary64) : Binary64 :=
  ofFraction (x.leastUnits * y.leastUnits) (leastPerUnit * leastPerUnit)

/-- The number nearest to the quotient of the magnitudes of two finite numbers. -/
def dividedBy (x y : Binary64) : Binary64 := ofFraction x.leastUnits y.leastUnits

end Binary64

end StatusEffects
