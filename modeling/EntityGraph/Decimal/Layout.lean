import EntityGraph.Decimal.Shortest

/-!
# Writing floating-point numbers

A `Layout` is what distinguishes one way of writing a floating-point number from another. The
digits are always the shortest ones that read back.
-/

namespace EntityGraph.Decimal

/-- How a floating-point number is written. -/
structure Layout where
  /-- Which of two equally short and equally near decimals is written. -/
  tie : Tie
  /-- Whether a number whose first digit stands for `10 ^ e` is written without an exponent. -/
  positional : Int → Bool
  /-- What follows a whole number that is written without an exponent. -/
  wholeEnd : String
  /-- The texts of the patterns that are no finite number. -/
  nan : String
  infinity : String
  negativeInfinity : String

/-- The digits of a natural number, most significant first. -/
def digitsOf (n : Nat) : List Char := Nat.toDigits 10 n

/-- Digits with a point so that the first stands for `10 ^ e`. -/
def positionalText (wholeEnd : String) (digits : List Char) (e : Int) : String :=
  if e < 0 then
    "0." ++ String.ofList (List.replicate ((-e).toNat - 1) '0' ++ digits)
  else
    let whole := e.toNat + 1
    if digits.length ≤ whole then
      String.ofList (digits ++ List.replicate (whole - digits.length) '0') ++ wholeEnd
    else
      String.ofList (digits.take whole) ++ "." ++ String.ofList (digits.drop whole)

/-- One digit, the rest behind a point, and the signed exponent. -/
def exponentText (digits : List Char) (e : Int) : String :=
  let mantissa := match digits with
    | d :: more@(_ :: _) => String.ofList (d :: '.' :: more)
    | ds => String.ofList ds
  mantissa ++ "e" ++ (if e < 0 then "-" else "+") ++ String.ofList (digitsOf e.natAbs)

/-- The magnitude of a finite number in a layout. -/
def Layout.magnitude (layout : Layout) (x : Double) : String :=
  if x.isZero then "0" ++ layout.wholeEnd
  else
    let d := shortest layout.tie x
    let digits := digitsOf d.digits
    let e := d.exponent + digits.length - 1
    if layout.positional e then positionalText layout.wholeEnd digits e else exponentText digits e

/-- A number in a layout. -/
def Layout.write (layout : Layout) (x : Double) : String :=
  if x.isNaN then layout.nan
  else if x.isFinite then (if x.isNegative then "-" else "") ++ layout.magnitude x
  else if x.isNegative then layout.negativeInfinity
  else layout.infinity

/-- Never an exponent; a whole number has no point. -/
def plain : Layout where
  tie := .up
  positional _ := true
  wholeEnd := ""
  nan := "NaN"
  infinity := "inf"
  negativeInfinity := "-inf"

end EntityGraph.Decimal
