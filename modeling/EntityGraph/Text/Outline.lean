import EntityGraph.Text.Invisible

/-!
# Outlines

An outline shows a value on one line: texts in quotes, lists in brackets, records with the names
of their fields. Inside quotes every invisible character is written by its code point.
-/

namespace EntityGraph

/-- What is shown of a value. -/
inductive Outline where
  /-- A word that is shown as it is. -/
  | word (s : String)
  | text (s : String)
  | list (items : List Outline)
  /-- Parts in parentheses behind a name, which may be empty. -/
  | tagged (name : String) (parts : List Outline)
  | record (name : String) (fields : List (String × Outline))
  deriving Inhabited

namespace Outline

/-- A character as it is shown inside quotes. -/
def quoteChar (c : Char) : List Char :=
  match c with
  | '\x00' => ['\\', '0']
  | '\t' => ['\\', 't']
  | '\r' => ['\\', 'r']
  | '\n' => ['\\', 'n']
  | '\\' => ['\\', '\\']
  | '"' => ['\\', '"']
  | c =>
    if Text.isInvisible c then '\\' :: 'u' :: '\x7b' :: Nat.toDigits 16 c.toNat ++ ['\x7d']
    else [c]

/-- A text in quotes. -/
def quote (s : String) : String := "\"" ++ String.ofList (s.toList.flatMap quoteChar) ++ "\""

/-- Parts with commas between them. -/
def separated (parts : List String) : String := ", ".intercalate parts

mutual

/-- The line that shows a value. -/
def line : Outline → String
  | .word s => s
  | .text s => quote s
  | .list items => "[" ++ separated (lines items) ++ "]"
  | .tagged name parts => name ++ "(" ++ separated (lines parts) ++ ")"
  | .record name fields => name ++ " \x7b " ++ separated (fieldLines fields) ++ " \x7d"

/-- The lines that show several values. -/
def lines : List Outline → List String
  | [] => []
  | o :: rest => o.line :: lines rest

/-- The lines that show fields, each behind its name. -/
def fieldLines : List (String × Outline) → List String
  | [] => []
  | (name, o) :: rest => (name ++ ": " ++ o.line) :: fieldLines rest

end

/-- A truth value. -/
def bool (b : Bool) : Outline := .word (if b then "true" else "false")

/-- A natural number. -/
def nat (n : Nat) : Outline := .word (toString n)

/-- Texts in a list. -/
def texts (items : List String) : Outline := .list (items.map .text)

/-- A value that may be absent. -/
def optional : Option Outline → Outline
  | none => .word "None"
  | some o => .tagged "Some" [o]

end Outline

end EntityGraph
