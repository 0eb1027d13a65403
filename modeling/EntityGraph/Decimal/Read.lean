import EntityGraph.Decimal.Double

/-!
# Reading digits

Digits of a base read as a number, and decimal text read as a floating-point number.
-/

namespace EntityGraph.Decimal

/-- The value of a decimal digit. -/
def digit? (c : Char) : Option Nat :=
  if '0' ≤ c ∧ c ≤ '9' then some (c.toNat - '0'.toNat) else none

/-- Whether a character is one of the ten decimal digits. -/
def isDigit (c : Char) : Bool := (digit? c).isSome

/-- The value of a digit of a base up to sixteen, letters in either case. -/
def digitIn? (base : Nat) (c : Char) : Option Nat :=
  let v :=
    if '0' ≤ c ∧ c ≤ '9' then some (c.toNat - '0'.toNat)
    else if 'a' ≤ c ∧ c ≤ 'f' then some (c.toNat - 'a'.toNat + 10)
    else if 'A' ≤ c ∧ c ≤ 'F' then some (c.toNat - 'A'.toNat + 10)
    else none
  v.filter (· < base)

/-- Reads further digits behind the value `acc`. -/
def digitsFrom? (base acc : Nat) : List Char → Option Nat
  | [] => some acc
  | c :: rest => do digitsFrom? base (acc * base + (← digitIn? base c)) rest

/-- The number written by one or more digits of a base. -/
def natOfDigits? (base : Nat) : List Char → Option Nat
  | [] => none
  | cs => digitsFrom? base 0 cs

/-- The number written by decimal digits. -/
def ofDigits (cs : List Char) : Nat := cs.foldl (fun n c => n * 10 + (digit? c).getD 0) 0

/-- Takes one sign character off, `true` for a minus. -/
def sign : List Char → Bool × List Char
  | '-' :: rest => (true, rest)
  | '+' :: rest => (false, rest)
  | cs => (false, cs)

/-- The exponent behind an `e` or `E`: an optional sign and one or more digits. -/
def exponent? (cs : List Char) : Option Int :=
  let (negative, ds) := sign cs
  if ds.isEmpty || !ds.all isDigit then none
  else some (if negative then -(ofDigits ds : Int) else ofDigits ds)

/-- Decimal notation read as the nearest floating-point number: an optional sign, digits with at
most one point among, before or behind them, and an optional exponent. -/
def float? (cs : List Char) : Option Double := do
  let (negative, cs) := sign cs
  let whole := cs.takeWhile isDigit
  let cs := cs.dropWhile isDigit
  let (part, cs) := match cs with
    | '.' :: rest => (rest.takeWhile isDigit, rest.dropWhile isDigit)
    | _ => ([], cs)
  if whole.isEmpty && part.isEmpty then none
  else
    let exp ← match cs with
      | [] => some 0
      | c :: rest => if c = 'e' ∨ c = 'E' then exponent? rest else none
    some (Double.ofDecimal negative (ofDigits (whole ++ part)) (exp - part.length))

end EntityGraph.Decimal
