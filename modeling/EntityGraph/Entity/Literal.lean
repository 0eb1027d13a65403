import EntityGraph.Decimal.Layout
import EntityGraph.Json.Value

/-!
# Literals

The values that a property of an entity holds.
-/

namespace EntityGraph

/-- A value of a property. Integers have 64 bits. -/
inductive Literal where
  | null
  | bool (b : Bool)
  | int (i : Int)
  | float (x : Double)
  | string (s : String)
  deriving DecidableEq, Inhabited

/-- The least integer of 64 bits. -/
def minInt : Int := -0x8000000000000000

/-- The greatest integer of 64 bits. -/
def maxInt : Int := 0x7FFFFFFFFFFFFFFF

namespace Literal

/-- Whether the literal stands for a missing value. -/
def isNull : Literal → Bool
  | .null => true
  | _ => false

/-- The truth value of a boolean. -/
def bool? : Literal → Option Bool
  | .bool b => some b
  | _ => none

/-- The integer value of a number. A floating-point number has one if it is whole; one out of
range has that of the nearest integer of 64 bits. -/
def int? : Literal → Option Int
  | .int i => some i
  | .float x => x.toInt?.map fun i => max minInt (min maxInt i)
  | _ => none

/-- The floating-point value of a number. -/
def float? : Literal → Option Double
  | .float x => some x
  | .int i => some (.ofInt i)
  | _ => none

/-- The text of a string. -/
def string? : Literal → Option String
  | .string s => some s
  | _ => none

/-- The name of the kind of literal. -/
def typeName : Literal → String
  | .null => "Null"
  | .bool _ => "Bool"
  | .int _ => "Int"
  | .float _ => "Float"
  | .string _ => "String"

/-- The literal as it is shown. Quotes inside a string are not marked. -/
def display : Literal → String
  | .null => "null"
  | .bool b => if b then "true" else "false"
  | .int i => toString i
  | .float x => Decimal.plain.write x
  | .string s => "\"" ++ s ++ "\""

/-- The JSON value that writes the literal. -/
def toJson : Literal → Json
  | .null => .null
  | .bool b => .bool b
  | .int i => .int i
  | .float x => if x.isFinite then .float x else .null
  | .string s => .string s

/-- The literal that a JSON value writes. An integer above 64 signed bits is a floating-point
number. -/
def ofJson? : Json → Option Literal
  | .null => some .null
  | .bool b => some (.bool b)
  | .int i => some (if i ≤ maxInt then .int i else .float (.ofInt i))
  | .float x => some (.float x)
  | .string s => some (.string s)
  | _ => none

end Literal

end EntityGraph
