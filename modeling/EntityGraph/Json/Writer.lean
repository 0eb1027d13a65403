import EntityGraph.Decimal.Layout
import EntityGraph.Json.Value

/-!
# Writing JSON

The compact form has no blanks; the indented form puts every item and member on a line of its
own, two blanks deeper than what encloses it.
-/

namespace EntityGraph.Json

/-- Floating-point numbers are written without an exponent while the first digit stands for
`10 ^ -5` to `10 ^ 15`, and then always with a point. -/
def floatLayout : Decimal.Layout where
  tie := .toEven
  positional e := -5 ≤ e ∧ e < 16
  wholeEnd := ".0"
  nan := "null"
  infinity := "null"
  negativeInfinity := "null"

/-- A character inside quotes. -/
def escapeChar (c : Char) : List Char :=
  if c = '"' then ['\\', '"']
  else if c = '\\' then ['\\', '\\']
  else if c = '\x08' then ['\\', 'b']
  else if c = '\t' then ['\\', 't']
  else if c = '\n' then ['\\', 'n']
  else if c = '\x0c' then ['\\', 'f']
  else if c = '\r' then ['\\', 'r']
  else if c.toNat < 0x20 then
    ['\\', 'u', '0', '0', Nat.digitChar (c.toNat / 16), Nat.digitChar (c.toNat % 16)]
  else [c]

/-- A text in quotes. -/
def quote (s : String) : String := "\"" ++ String.ofList (s.toList.flatMap escapeChar) ++ "\""

mutual

/-- The compact form. -/
def compact : Json → String
  | .null => "null"
  | .bool b => if b then "true" else "false"
  | .int i => toString i
  | .float x => floatLayout.write x
  | .string s => quote s
  | .array items => "[" ++ ",".intercalate (compactItems items) ++ "]"
  | .object members => "\x7b" ++ ",".intercalate (compactMembers members) ++ "\x7d"
  | .unreadable => "null"

/-- The compact forms of the items. -/
def compactItems : List Json → List String
  | [] => []
  | v :: rest => v.compact :: compactItems rest

/-- The compact forms of the members. -/
def compactMembers : List (String × Json) → List String
  | [] => []
  | (k, v) :: rest => (quote k ++ ":" ++ v.compact) :: compactMembers rest

end

/-- A line break and the blanks of a depth. -/
def newline (depth : Nat) : String := "\n" ++ String.ofList (List.replicate (2 * depth) ' ')

/-- Lines of a depth between two brackets; nothing between them when there is no line. -/
def block (opening closing : String) (depth : Nat) (lines : List String) : String :=
  if lines.isEmpty then opening ++ closing
  else
    opening ++ newline (depth + 1) ++ ("," ++ newline (depth + 1)).intercalate lines ++
      newline depth ++ closing

mutual

/-- The indented form at a depth. -/
def indentedAt (depth : Nat) : Json → String
  | .array items => block "[" "]" depth (indentedItems (depth + 1) items)
  | .object members => block "\x7b" "\x7d" depth (indentedMembers (depth + 1) members)
  | v => v.compact

/-- The indented forms of the items. -/
def indentedItems (depth : Nat) : List Json → List String
  | [] => []
  | v :: rest => v.indentedAt depth :: indentedItems depth rest

/-- The indented forms of the members. -/
def indentedMembers (depth : Nat) : List (String × Json) → List String
  | [] => []
  | (k, v) :: rest => (quote k ++ ": " ++ v.indentedAt depth) :: indentedMembers depth rest

end

/-- The indented form. -/
def indented (v : Json) : String := v.indentedAt 0

end EntityGraph.Json
