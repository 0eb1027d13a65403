/-!
# Binary floating-point numbers of 64 bits

A `Double` is its bit pattern. Its value is `± significand * 2 ^ exponent`, an infinity or not a
number, and all arithmetic here is exact arithmetic on natural numbers followed by one rounding
to the nearest representable number, a tie going to the even significand.
-/

namespace EntityGraph

/-- A binary floating-point number of 64 bits: one sign bit, eleven bits of exponent and
fifty-two bits of fraction. -/
structure Double where
  bits : UInt64
  deriving DecidableEq, Inhabited

namespace Double

/-- The quotient rounded to the nearest integer, a tie going to the even one. -/
def roundDiv (num den : Nat) : Nat :=
  let q := num / den
  let r := num % den
  if 2 * r < den then q else if den < 2 * r then q + 1 else q + q % 2

/-- Whether the sign bit is set. -/
def isNegative (x : Double) : Bool := Nat.pow 2 63 ≤ x.bits.toNat

/-- The eleven bits of the exponent. -/
def exponentField (x : Double) : Nat := x.bits.toNat / Nat.pow 2 52 % Nat.pow 2 11

/-- The fifty-two bits of the fraction. -/
def fraction (x : Double) : Nat := x.bits.toNat % Nat.pow 2 52

/-- Whether the number is neither infinite nor undefined. -/
def isFinite (x : Double) : Bool := x.exponentField != 2047

/-- Whether the pattern stands for no number. -/
def isNaN (x : Double) : Bool := x.exponentField == 2047 && x.fraction != 0

/-- The integer factor of a finite number. -/
def significand (x : Double) : Nat :=
  if x.exponentField = 0 then x.fraction else Nat.pow 2 52 + x.fraction

/-- The power of two of a finite number. -/
def exponent (x : Double) : Int :=
  if x.exponentField = 0 then -1074 else (x.exponentField : Int) - 1075

/-- Whether the number is zero, of either sign. -/
def isZero (x : Double) : Bool := x.isFinite && x.significand == 0

/-- The pattern with the given sign and the given lower bits. -/
def ofSign (negative : Bool) (magnitude : Nat) : Double :=
  ⟨UInt64.ofNat ((if negative then Nat.pow 2 63 else 0) + magnitude)⟩

/-- The infinity of a sign. -/
def infinity (negative : Bool) : Double := ofSign negative (2047 * Nat.pow 2 52)

/-- The pattern for no number. -/
def nan : Double := ofSign false (2047 * Nat.pow 2 52 + Nat.pow 2 51)

/-- The zero of a sign. -/
def zero (negative : Bool) : Double := ofSign negative 0

/-- The two natural numbers whose quotient is `m * 2 ^ e`. -/
def ratio (m : Nat) (e : Int) : Nat × Nat := (m * Nat.pow 2 e.toNat, Nat.pow 2 (-e).toNat)

/-- The power of two with which a positive quotient has a significand of fifty-three bits, or
the least one there is. -/
def scale (num den : Nat) : Int :=
  let e : Int := (num.log2 : Int) - den.log2 - 53
  let below := num * Nat.pow 2 (-e).toNat < Nat.pow 2 53 * (den * Nat.pow 2 e.toNat)
  let e := if below then e else e + 1
  max e (-1074)

/-- The representable number nearest to `± num / den`; beyond the greatest one, the infinity. -/
def ofRatio (negative : Bool) (num den : Nat) : Double :=
  if num = 0 then zero negative
  else
    let e := scale num den
    let m := roundDiv (num * Nat.pow 2 (-e).toNat) (den * Nat.pow 2 e.toNat)
    let magnitude := (e + 1074).toNat * Nat.pow 2 52 + m
    if magnitude < 2047 * Nat.pow 2 52 then ofSign negative magnitude else infinity negative

/-- The representable number nearest to an integer. -/
def ofInt (i : Int) : Double := ofRatio (i < 0) i.natAbs 1

/-- The representable number nearest to `± digits * 10 ^ exp`. Powers far outside the range are
decided without computing them. -/
def ofDecimal (negative : Bool) (digits : Nat) (exp : Int) : Double :=
  if digits = 0 then zero negative
  else if 400 < exp then infinity negative
  else if exp + digits.log2 + 1 < -400 then zero negative
  else ofRatio negative (digits * Nat.pow 10 exp.toNat) (Nat.pow 10 (-exp).toNat)

/-- The product of two finite numbers. -/
def mul (x y : Double) : Double :=
  let (n, d) := ratio (x.significand * y.significand) (x.exponent + y.exponent)
  ofRatio (x.isNegative != y.isNegative) n d

/-- The quotient of two finite numbers, the second not zero. -/
def div (x y : Double) : Double :=
  let (n, d) := ratio x.significand (x.exponent - y.exponent)
  ofRatio (x.isNegative != y.isNegative) n (d * y.significand)

/-- The number with the opposite sign. -/
def neg (x : Double) : Double := ⟨x.bits ^^^ UInt64.ofNat (Nat.pow 2 63)⟩

/-- The value of a number that is a whole number. -/
def toInt? (x : Double) : Option Int :=
  if x.isFinite then
    let (n, d) := ratio x.significand x.exponent
    if n % d = 0 then some (if x.isNegative then -((n / d : Nat) : Int) else ((n / d : Nat) : Int))
    else none
  else none

end Double

end EntityGraph
