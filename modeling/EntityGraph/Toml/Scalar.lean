import EntityGraph.Decimal.Read
import EntityGraph.Toml.Value

/-!
# TOML scalars without quotes

Booleans, numbers, dates and times are words: runs of letters, digits and a few marks, none of
which can follow a value. A word denotes a value as a whole or not at all.
-/

namespace EntityGraph.Toml

open Decimal (isDigit natOfDigits? digitIn?)

/-- Whether a character may stand in a word. -/
def isWordChar (c : Char) : Bool :=
  c.isAlphanum || c == '+' || c == '-' || c == '_' || c == '.' || c == ':'

/-! ## Numbers -/

/-- Digits with single underscores between them, less the underscores. -/
def digits? (digit : Char → Bool) : List Char → Option (List Char)
  | [] => none
  | [c] => if digit c then some [c] else none
  | c :: '_' :: rest => if digit c then (digits? digit rest).map (c :: ·) else none
  | c :: rest => if digit c then (digits? digit rest).map (c :: ·) else none

/-- Decimal digits that begin with a zero only if it is the only one. -/
def wholeDigits? (cs : List Char) : Option (List Char) :=
  (digits? isDigit cs).filter fun ds => ds.head? != some '0' || ds.length == 1

/-- The integers that can be held have 64 bits. -/
def fits (i : Int) : Bool := -0x8000000000000000 ≤ i && i < 0x8000000000000000

/-- An integer of base sixteen, eight or two, behind its mark. -/
def markedInteger? (base : Nat) (cs : List Char) : Option Int := do
  let ds ← digits? (fun c => (digitIn? base c).isSome) cs
  return (← natOfDigits? base ds : Nat)

/-- The integer that a word denotes, of any size. -/
def integer? : List Char → Option Int
  | '0' :: 'x' :: cs => markedInteger? 16 cs
  | '0' :: 'o' :: cs => markedInteger? 8 cs
  | '0' :: 'b' :: cs => markedInteger? 2 cs
  | cs => do
    let (negative, cs) := Decimal.sign cs
    let n : Int := Decimal.ofDigits (← wholeDigits? cs)
    return if negative then -n else n

/-- The exponent behind an `e` or `E`, with its sign. -/
def exponent? (cs : List Char) : Option Int := do
  let (negative, cs) := Decimal.sign cs
  let n : Int := Decimal.ofDigits (← digits? isDigit cs)
  return if negative then -n else n

/-- What follows the whole digits of a floating-point number: a part behind a point, an exponent,
or both. -/
def partAndExponent? (cs : List Char) : Option (List Char × Int) :=
  let isExponentMark := fun c => c == 'e' || c == 'E'
  match cs with
  | '.' :: rest => do
    let part ← digits? isDigit (rest.takeWhile fun c => !isExponentMark c)
    match rest.dropWhile fun c => !isExponentMark c with
    | [] => return (part, 0)
    | _ :: rest => return (part, ← exponent? rest)
  | c :: rest => if isExponentMark c then (exponent? rest).map ([], ·) else none
  | [] => none

/-- The floating-point number that a word denotes. -/
def float? (cs : List Char) : Option Double := do
  let (negative, cs) := Decimal.sign cs
  if cs == "inf".toList then return Double.infinity negative
  else if cs == "nan".toList then return Double.nan
  else
    let isWhole := fun c => isDigit c || c == '_'
    let whole ← wholeDigits? (cs.takeWhile isWhole)
    let (part, exponent) ← partAndExponent? (cs.dropWhile isWhole)
    return Double.ofDecimal negative (Decimal.ofDigits (whole ++ part)) (exponent - part.length)

/-! ## Dates and times -/

/-- Two digits in a range. -/
def pair? (low high : Nat) (a b : Char) : Option Nat :=
  if isDigit a && isDigit b then
    (natOfDigits? 10 [a, b]).filter fun n => low ≤ n && n ≤ high
  else none

/-- The days of a month. -/
def daysIn (year month : Nat) : Nat :=
  if month = 2 then
    if year % 4 = 0 ∧ (year % 100 ≠ 0 ∨ year % 400 = 0) then 29 else 28
  else if month ∈ [4, 6, 9, 11] then 30
  else 31

/-- What follows a date at the front. -/
def stripDate? : List Char → Option (List Char)
  | y₁ :: y₂ :: y₃ :: y₄ :: '-' :: m₁ :: m₂ :: '-' :: d₁ :: d₂ :: rest => do
    let century ← pair? 0 99 y₁ y₂
    let year := century * 100 + (← pair? 0 99 y₃ y₄)
    let month ← pair? 1 12 m₁ m₂
    let _ ← pair? 1 (daysIn year month) d₁ d₂
    return rest
  | _ => none

/-- What follows a time at the front; a second may be the sixtieth. -/
def stripTime? : List Char → Option (List Char)
  | h₁ :: h₂ :: ':' :: m₁ :: m₂ :: ':' :: s₁ :: s₂ :: rest => do
    let _ ← pair? 0 23 h₁ h₂
    let _ ← pair? 0 59 m₁ m₂
    let _ ← pair? 0 60 s₁ s₂
    match rest with
    | '.' :: rest =>
      if (rest.takeWhile isDigit).isEmpty then none else return rest.dropWhile isDigit
    | rest => return rest
  | _ => none

/-- Whether a text is an offset from universal time, or empty. -/
def isOffset : List Char → Bool
  | [] => true
  | ['Z'] | ['z'] => true
  | [sign, h₁, h₂, ':', m₁, m₂] =>
    (sign == '+' || sign == '-') && (pair? 0 23 h₁ h₂).isSome && (pair? 0 59 m₁ m₂).isSome
  | _ => false

/-- Whether a text is a time, an offset behind it or not. -/
def isTimeOfDay (cs : List Char) : Bool := (stripTime? cs).any isOffset

/-- Whether a word is a date, a time, or a date with a time behind the letter `T`. -/
def isDateTime (cs : List Char) : Bool :=
  match stripDate? cs with
  | some [] => true
  | some (c :: rest) => (c == 'T' || c == 't') && isTimeOfDay rest
  | none => (stripTime? cs).any List.isEmpty

/-! ## Words -/

/-- The value that a word denotes. A number above every floating-point number is refused, one
below is infinite. -/
def scalar (word : List Char) : Except Error Value :=
  if word == "true".toList then .ok (.boolean true)
  else if word == "false".toList then .ok (.boolean false)
  else if isDateTime word then .ok (.dateTime (String.ofList word))
  else
    match integer? word, float? word with
    | some i, _ => if fits i then .ok (.integer i) else .error .outOfRange
    | none, some x =>
      if x == Double.infinity false && word.any isDigit then .error .outOfRange else .ok (.float x)
    | none, none => .error (.malformed "a value")

end EntityGraph.Toml
