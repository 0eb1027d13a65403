import EntityGraph.Decimal.Read
import EntityGraph.Text.Search
import EntityGraph.Yaml.Cursor
import EntityGraph.Yaml.Tag

/-!
# Plain scalars as values

What the text of a plain scalar stands for: nothing, a truth value, an integer, a floating-point
number, or itself.
-/

namespace EntityGraph.Yaml

/-- What a scalar stands for. -/
inductive Scalar where
  | null
  | bool (b : Bool)
  /-- An integer that fits in 64 bits, signed or not. -/
  | int (i : Int)
  | float (x : Double)
  | string (s : String)
  deriving DecidableEq

namespace Scalar

/-- The words for null. -/
def isNull (s : String) : Bool := s ∈ ["null", "Null", "NULL", "~"]

/-- The words for the truth values. -/
def bool? (s : String) : Option Bool :=
  if s ∈ ["true", "True", "TRUE"] then some true
  else if s ∈ ["false", "False", "FALSE"] then some false
  else none

/-- Whether digits begin with a zero that is not the whole number; they are text. -/
def isPadded (cs : List Char) : Bool :=
  let cs := match cs with
    | '-' :: rest => rest
    | '+' :: rest => rest
    | cs => cs
  match cs with
  | '0' :: c :: rest => (c :: rest).all Decimal.isDigit
  | _ => false

/-- Digits behind the sign of a base, or decimal ones. -/
def magnitude? : List Char → Option Nat
  | '0' :: 'x' :: ds => Decimal.natOfDigits? 16 ds
  | '0' :: 'o' :: ds => Decimal.natOfDigits? 8 ds
  | '0' :: 'b' :: ds => Decimal.natOfDigits? 2 ds
  | ds => if isPadded ds then none else Decimal.natOfDigits? 10 ds

/-- The integer that is written, whatever its size. -/
def int? : List Char → Option Int
  | '-' :: cs => (magnitude? cs).map fun n => -(n : Int)
  | '+' :: cs => (magnitude? cs).map fun n => (n : Int)
  | cs => (magnitude? cs).map fun n => (n : Int)

/-- The words for infinity. -/
def isInfinity (cs : List Char) : Bool :=
  cs ∈ [['.', 'i', 'n', 'f'], ['.', 'I', 'n', 'f'], ['.', 'I', 'N', 'F']]

/-- The words for no number. -/
def isNaN (cs : List Char) : Bool :=
  cs ∈ [['.', 'n', 'a', 'n'], ['.', 'N', 'a', 'N'], ['.', 'N', 'A', 'N']]

/-- The floating-point number that is written; none beyond the greatest. -/
def float? (cs : List Char) : Option Double :=
  let unsigned := match cs with
    | '+' :: rest => rest
    | cs => cs
  if cs.head? = some '+' ∧ (unsigned.head? = some '+' ∨ unsigned.head? = some '-') then none
  else if isInfinity unsigned then some (.infinity false)
  else if cs.head? = some '-' && isInfinity (cs.drop 1) then some (.infinity true)
  else if isNaN cs then some .nan
  else (Decimal.float? unsigned).filter Double.isFinite

/-- An integer, if it fits in 64 bits; the first beyond that are refused. `none` for the ones
beyond 128 bits, which are no integers. -/
def ofInt (i : Int) : Except Error (Option Scalar) :=
  if -0x8000000000000000 ≤ i ∧ i < 0x10000000000000000 then .ok (some (.int i))
  else if -0x80000000000000000000000000000000 ≤ i ∧ i < 0x100000000000000000000000000000000 then
    .error (.mismatch "an integer of 64 bits")
  else .ok none

/-- What a plain scalar stands for. -/
def resolve (s : String) : Except Error Scalar := do
  if s.isEmpty || isNull s then return .null
  match bool? s with
  | some b => return .bool b
  | none =>
    match ← ((int? s.toList).map ofInt).getD (.ok none) with
    | some v => return v
    | none =>
      if isPadded s.toList then return .string s
      else return ((float? s.toList).map .float).getD (.string s)

/-- The tags of the language that say what a scalar stands for. -/
def coreTag (name : String) : Tag := .ofString ("tag:yaml.org,2002:" ++ name)

/-- What a scalar with a tag of the language stands for. -/
def ofTag (tag : Tag) (s : String) : Except Error Scalar :=
  let orMismatch (expected : String) (v : Option Scalar) : Except Error Scalar :=
    match v with
    | some v => .ok v
    | none => .error (.mismatch expected)
  if tag = coreTag "bool" then orMismatch "a boolean" ((bool? s).map .bool)
  else if tag = coreTag "int" then do
    orMismatch "an integer" (← ((int? s.toList).map ofInt).getD (.ok none))
  else if tag = coreTag "float" then orMismatch "a float" ((float? s.toList).map .float)
  else if tag = coreTag "null" then orMismatch "null" (if isNull s then some .null else none)
  else .ok (.string s)

end Scalar

end EntityGraph.Yaml
