import EntityGraph.Decimal.Read
import EntityGraph.Json.Value

/-!
# JSON numbers

A number without fraction and exponent is an integer if it fits in 64 bits. Any other number is
`significand * 10 ^ exponent` with a significand of at most 64 bits, further digits being dropped,
and is evaluated by one multiplication or division of floating-point numbers.
-/

namespace EntityGraph.Json

/-- The greatest significand. -/
def maxSignificand : Nat := 0xFFFFFFFFFFFFFFFF

/-- Reads digits behind `n` as long as the number fits, and gives back the digits that follow. -/
def takeFitting : Nat → List Char → Nat × List Char
  | n, [] => (n, [])
  | n, c :: cs =>
    let n' := n * 10 + (Decimal.digit? c).getD 0
    if n' ≤ maxSignificand then takeFitting n' cs else (n, c :: cs)

/-- Divides by `10 ^ 308` at most `more` times, while the exponent is below `-308`. -/
def scaleDown : (more : Nat) → Double → Int → Double × Int
  | 0, x, e => (x, e)
  | more + 1, x, e =>
    if e < -308 ∧ !x.isZero then scaleDown more (x.div (.ofDecimal false 1 308)) (e + 308)
    else (x, e)

/-- The floating-point value of `± significand * 10 ^ exponent`; none beyond the greatest. -/
def ofScientific (negative : Bool) (significand : Nat) (exponent : Int) : Option Double :=
  let (x, e) := scaleDown ((-exponent).toNat / 308) (.ofInt significand) exponent
  let magnitude :=
    if x.isZero then some x
    else if 308 < e then none
    else if 0 ≤ e then some (x.mul (.ofDecimal false 1 e))
    else some (x.div (.ofDecimal false 1 (-e)))
  match magnitude with
  | some x => if x.isFinite then some (if negative then x.neg else x) else none
  | none => none

/-- The parts of a number as they are written. -/
structure Numeral where
  negative : Bool
  whole : List Char
  /-- The digits behind the point. -/
  part : Option (List Char)
  exponent : Option Int

/-- The value of an integer of at most 64 bits; below `-2 ^ 63`, and for a negative zero, it is a
floating-point number. -/
def ofInteger (negative : Bool) (n : Nat) : Json :=
  if !negative then .int n
  else if n = 0 ∨ 0x8000000000000000 < n then .float (Double.ofInt n).neg
  else .int (-n)

/-- The value of a number, `unreadable` beyond the greatest floating-point number. -/
def Numeral.value (num : Numeral) : Json :=
  let (n, dropped) := takeFitting 0 num.whole
  match num.part, num.exponent, dropped with
  | none, none, [] => ofInteger num.negative n
  | _, _, _ =>
    let part := num.part.getD []
    let (n, left) := takeFitting n part
    let e : Int := dropped.length - (part.length - left.length : Nat) + num.exponent.getD 0
    match ofScientific num.negative n e with
    | some x => .float x
    | none => .unreadable

end EntityGraph.Json
