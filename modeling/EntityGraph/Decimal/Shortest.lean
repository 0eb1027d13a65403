import EntityGraph.Decimal.Double

/-!
# Shortest decimals

The shortest decimal that reads back as a given floating-point number. A positive number
`m * 2 ^ e` is what every real between its two rounding bounds rounds to; the bounds themselves
belong to it exactly if `m` is even. With `n` digits, only the two neighbours of the number on the
grid of `n`-digit decimals can lie nearest to it, so the first `n` for which one of them lies
between the bounds gives the shortest decimal.
-/

namespace EntityGraph.Decimal

/-- Which of two equally near decimals is taken. -/
inductive Tie where
  /-- The one whose last digit is even. -/
  | toEven
  /-- The greater one. -/
  | up
  deriving DecidableEq, Repr

/-- A decimal `digits * 10 ^ exponent`. -/
structure Numeral where
  digits : Nat
  exponent : Int
  deriving DecidableEq, Repr

/-- Whether `a * 10 ^ u < b * 2 ^ p`, compared without fractions. -/
def scaledLt (a : Nat) (u : Int) (b : Nat) (p : Int) : Bool :=
  a * Nat.pow 10 u.toNat * Nat.pow 2 (-p).toNat < b * Nat.pow 2 p.toNat * Nat.pow 10 (-u).toNat

/-- Whether `a * 10 ^ u = b * 2 ^ p`. -/
def scaledEq (a : Nat) (u : Int) (b : Nat) (p : Int) : Bool :=
  a * Nat.pow 10 u.toNat * Nat.pow 2 (-p).toNat == b * Nat.pow 2 p.toNat * Nat.pow 10 (-u).toNat

/-- The reals that round to `m * 2 ^ e`, their bounds given in quarters of `2 ^ e`. -/
structure Bounds where
  lower : Nat
  upper : Nat
  power : Int
  closed : Bool

/-- The rounding bounds of a positive finite number. Below a power of two the grid is twice as
fine. -/
def Bounds.of (x : Double) : Bounds :=
  let m := x.significand
  let fine := x.fraction = 0 ∧ 1 < x.exponentField
  ⟨if fine then 4 * m - 1 else 4 * m - 2, 4 * m + 2, x.exponent - 2, m % 2 = 0⟩

/-- Whether `c * 10 ^ u` lies between the bounds. -/
def Bounds.admits (b : Bounds) (c : Nat) (u : Int) : Bool :=
  let low := !scaledLt c u b.lower b.power && (b.closed || !scaledEq c u b.lower b.power)
  let high := scaledLt c u b.upper b.power || (b.closed && scaledEq c u b.upper b.power)
  low && high

/-- The integer part of the decimal logarithm of `m * 2 ^ e`, for positive `m`. -/
def log10 (m : Nat) (e : Int) : Int :=
  let k := Int.fdiv (((m.log2 : Int) + e) * 30103) 100000
  if scaledLt 1 (k + 1) m e || scaledEq 1 (k + 1) m e then k + 1 else k

/-- The nearer of the two neighbours `c` and `c + 1` of `m * 2 ^ e` on the grid of `10 ^ u`. -/
def nearer (tie : Tie) (c : Nat) (u : Int) (m : Nat) (e : Int) : Nat :=
  if scaledLt (2 * c + 1) u (2 * m) e then c + 1
  else if scaledEq (2 * c + 1) u (2 * m) e then
    match tie with
    | .toEven => if c % 2 = 0 then c else c + 1
    | .up => c + 1
  else c

/-- The decimal on the grid of `10 ^ u` that is nearest to `x` among those that read back. -/
def onGrid? (tie : Tie) (x : Double) (b : Bounds) (u : Int) : Option Nat :=
  let m := x.significand
  let e := x.exponent
  let c := (m * Nat.pow 2 e.toNat * Nat.pow 10 (-u).toNat) /
    (Nat.pow 2 (-e).toNat * Nat.pow 10 u.toNat)
  match b.admits c u, b.admits (c + 1) u with
  | true, true => some (nearer tie c u m e)
  | true, false => some c
  | false, true => some (c + 1)
  | false, false => none

/-- Tries grids of `n`, `n + 1`, … digits, `more` of them. -/
def firstGrid (tie : Tie) (x : Double) (b : Bounds) (top : Int) : (more : Nat) → Int → Numeral
  | 0, n => ⟨x.significand, top - n⟩
  | more + 1, n =>
    match onGrid? tie x b (top + 1 - n) with
    | some c => ⟨c, top + 1 - n⟩
    | none => firstGrid tie x b top more (n + 1)

/-- Drops zeros at the end, at most `more` of them. -/
def trimZeros : (more : Nat) → Numeral → Numeral
  | 0, d => d
  | more + 1, d =>
    if d.digits % 10 = 0 ∧ d.digits ≠ 0 then trimZeros more ⟨d.digits / 10, d.exponent + 1⟩ else d

/-- The shortest decimal that reads back as the magnitude of a finite number other than zero, and
of those the nearest. Seventeen digits always suffice. -/
def shortest (tie : Tie) (x : Double) : Numeral :=
  let top := log10 x.significand x.exponent
  trimZeros 17 (firstGrid tie x (Bounds.of x) top 18 1)

end EntityGraph.Decimal
