import EntityGraph.Yaml.Cursor

/-!
# Line folding

Between two words of a plain or quoted scalar stands a gap of blanks and line breaks. A gap
without line break stands for itself. One line break is read as a space, and of several all but
the first stay; a line or paragraph separator always stays.

Results:
* `length_rest_gap_le`: a gap leaves no longer a rest.
-/

namespace EntityGraph.Yaml

/-- What stands between two words. -/
structure Gap where
  /-- The blanks before the first line break. -/
  blanks : List Char := []
  /-- Whether a line has ended. -/
  broken : Bool := false
  /-- The first line break; none when it was escaped. -/
  first : Option Char := none
  /-- The further line breaks. -/
  more : List Char := []
  /-- The least column of a tab behind a line break. -/
  tab : Option Nat := none

namespace Gap

/-- The gap with one more character, which stands in a column. -/
def push (g : Gap) (c : Char) (column : Nat) : Gap :=
  if isBreak c then
    if g.broken then { g with more := g.more ++ [c] }
    else { g with blanks := [], broken := true, first := some c }
  else if g.broken then
    if c = '\t' then { g with tab := some (g.tab.elim column (min column)) } else g
  else { g with blanks := g.blanks ++ [c] }

/-- What the gap contributes to the text. -/
def text (g : Gap) : List Char :=
  if !g.broken then g.blanks
  else
    match g.first with
    | some '\n' => if g.more.isEmpty then [' '] else g.more
    | some c => c :: g.more
    | none => g.more

end Gap

/-- Reads blanks and line breaks into a gap. -/
def Cursor.gap (cur : Cursor) (g : Gap) : Gap × Cursor :=
  match _h : cur.next? with
  | none => (g, cur)
  | some (c, cur') => if isGap c then cur'.gap (g.push c cur.column) else (g, cur)
termination_by cur.rest.length
decreasing_by exact Cursor.length_rest_of_next? _h

theorem Cursor.length_rest_gap_le (cur : Cursor) (g : Gap) :
    (cur.gap g).2.rest.length ≤ cur.rest.length := by
  fun_induction Cursor.gap cur g with
  | case1 => exact Nat.le_refl _
  | case2 cur g c cur' h hc ih =>
    exact Nat.le_of_lt (Nat.lt_of_le_of_lt ih (Cursor.length_rest_of_next? h))
  | case3 => exact Nat.le_refl _

end EntityGraph.Yaml
