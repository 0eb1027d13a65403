import EntityGraph.Yaml.Cursor

/-!
# Block scalars

A literal block keeps its line breaks; a folded block joins two lines by a space when neither
begins with a blank. The header may give the indentation, relative to the enclosing collection,
and may say what becomes of the line breaks at the end; else the first line that is not empty
gives the indentation, and one line break is kept.
-/

namespace EntityGraph.Yaml

/-- What becomes of the line breaks at the end of a block. -/
inductive Chomping where
  /-- All go. -/
  | strip
  /-- One is kept. -/
  | clip
  /-- All are kept. -/
  | keep
  deriving DecidableEq

/-- What the header of a block says. -/
structure BlockHeader where
  chomping : Chomping := .clip
  indentation : Option Nat := none

/-- Takes the sign that says what becomes of the line breaks at the end. -/
def takeChomping (cur : Cursor) : Option Chomping × Cursor :=
  if cur.sees '+' then (some .keep, cur.skip)
  else if cur.sees '-' then (some .strip, cur.skip)
  else (none, cur)

/-- Takes the digit that gives the indentation. -/
def takeIndentation (cur : Cursor) : Except Error (Option Nat × Cursor) :=
  match cur.next? with
  | some (c, cur') =>
    if c = '0' then .error (.malformed "an indentation greater than zero")
    else if c.isDigit then .ok (some (c.toNat - '0'.toNat), cur')
    else .ok (none, cur)
  | none => .ok (none, cur)

/-- Takes the header of a block, its two parts in either order, with the end of its line. -/
def takeHeader (cur : Cursor) : Except Error (BlockHeader × Cursor) := do
  let (chomping, cur) := takeChomping cur
  let (indentation, cur) ← takeIndentation cur
  let (chomping, cur) := match chomping with
    | some ch => (ch, cur)
    | none =>
      if indentation.isSome then
        let (ch, cur) := takeChomping cur
        (ch.getD .clip, cur)
      else (.clip, cur)
  let cur := cur.skipComment
  if cur.atLineEnd then return (⟨chomping, indentation⟩, cur.skip)
  else throw (.malformed "a comment or a line break")

/-- Skips the spaces up to a column; without column all of them. -/
def skipIndentation (column : Option Nat) (cur : Cursor) : Cursor :=
  match _h : cur.next? with
  | some (' ', cur') => if column.all (cur.column < ·) then skipIndentation column cur' else cur
  | _ => cur
termination_by cur.rest.length
decreasing_by exact Cursor.length_rest_of_next? _h

theorem length_rest_skipIndentation_le (column : Option Nat) (cur : Cursor) :
    (skipIndentation column cur).rest.length ≤ cur.rest.length := by
  fun_induction skipIndentation column cur with
  | case1 cur cur' h hc ih =>
    exact Nat.le_of_lt (Nat.lt_of_le_of_lt ih (Cursor.length_rest_of_next? h))
  | case2 => exact Nat.le_refl _
  | case3 => exact Nat.le_refl _

/-- Takes empty lines, indented up to a column: their line breaks, and the deepest indentation
met, that of the line behind them included. -/
def takeEmptyLines (column : Option Nat) (deepest : Nat) (breaks : List Char) (cur : Cursor) :
    Except Error (List Char × Nat × Cursor) :=
  let cur1 := skipIndentation column cur
  let deepest := max deepest cur1.column
  if cur1.sees '\t' && column.all (cur1.column < ·) then
    .error (.malformed "spaces as indentation")
  else
    match _h : cur1.next? with
    | some (c, cur2) =>
      if isBreak c then takeEmptyLines column deepest (breaks ++ [c]) cur2
      else .ok (breaks, deepest, cur1)
    | none => .ok (breaks, deepest, cur1)
termination_by cur.rest.length
decreasing_by
  exact Nat.lt_of_lt_of_le (Cursor.length_rest_of_next? _h) (length_rest_skipIndentation_le _ _)

/-- The line break of the line before, if there was one, as it stands before a line. -/
def joinLines (literal beforeBlank afterBlank : Bool) (last : Option Char) (breaks : List Char) :
    List Char :=
  match last with
  | some '\n' =>
    if !literal && !beforeBlank && !afterBlank then if breaks.isEmpty then [' '] else breaks
    else '\n' :: breaks
  | some c => c :: breaks
  | none => breaks

/-- The end of the text of a block. -/
def chomp (chomping : Chomping) (last : Option Char) (breaks : List Char) : List Char :=
  match chomping with
  | .strip => []
  | .clip => last.toList
  | .keep => last.toList ++ breaks

/-- Reads the lines of a block that are indented to a column. `last` is the line break of the
line before, `breaks` those of the empty lines behind it, and `blank` says whether it began with
a blank; `acc` holds the text before, last character first. -/
def blockLines (literal : Bool) (header : BlockHeader) (column : Nat) (last : Option Char)
    (breaks : List Char) (blank : Bool) (acc : List Char) (cur : Cursor) :
    Except Error (List Char × Cursor) :=
  if cur.column = column ∧ !cur.atEnd then do
    let begins := (cur.peek 0).any isBlank
    let joint := joinLines literal blank begins last breaks
    let (line, cur') := cur.takeWhile (!isBreak ·)
    let acc := line.reverse ++ joint.reverse ++ acc
    let last := cur'.peek 0
    let (breaks, _, cur'') ← takeEmptyLines (some column) 0 [] cur'.skip
    if _h : cur''.rest.length < cur.rest.length then
      blockLines literal header column last breaks begins acc cur''
    else return ((chomp header.chomping last breaks).reverse ++ acc, cur'')
  else return ((chomp header.chomping last breaks).reverse ++ acc, cur)
termination_by cur.rest.length

/-- Reads a block scalar behind its indicator, inside a collection indented to `indent`, or to
`-1` outside of any. -/
def blockText (literal : Bool) (indent : Int) (cur : Cursor) :
    Except Error (List Char × Cursor) := do
  let (header, cur) ← takeHeader cur
  let given := header.indentation.map fun n => (max indent 0).toNat + n
  let (breaks, deepest, cur) ← takeEmptyLines given 0 [] cur
  let column := given.getD (max deepest (max (indent + 1).toNat 1))
  let (acc, cur) ← blockLines literal header column none breaks false [] cur
  return (acc.reverse, cur)

end EntityGraph.Yaml
