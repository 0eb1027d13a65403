import EntityGraph.Yaml.Folding

/-!
# Plain scalars

A plain scalar is a sequence of words with gaps between them. A colon before a gap ends it, and
inside brackets so do commas and brackets; a comment, a document marker and, outside brackets, a
line that is not indented end it between two words.
-/

namespace EntityGraph.Yaml

/-- Whether a character is a comma or a bracket. -/
def isFlowIndicator (c : Char) : Bool :=
  c == ',' || c == '[' || c == ']' || c == '\x7b' || c == '\x7d'

/-- Whether a word ends before `c`, the next character behind it being `ahead`. -/
def endsWord (flow : Bool) (c : Char) (ahead : Option Char) : Bool :=
  isGap c || (c == ':' && ahead.all isGap) || (flow && isFlowIndicator c)

/-- Reads the characters of a word. `acc` holds what was read before, last character first. -/
def plainWord (flow : Bool) (acc : List Char) (cur : Cursor) : Except Error (List Char × Cursor) :=
  match _h : cur.next? with
  | none => .ok (acc, cur)
  | some (c, cur') =>
    if endsWord flow c (cur.peek 1) then .ok (acc, cur)
    else if flow && c == ':' && (cur.peek 1).any (fun a => a == '?' || isFlowIndicator a) then
      .error (.malformed "a blank behind a colon")
    else plainWord flow (c :: acc) cur'
termination_by cur.rest.length
decreasing_by exact Cursor.length_rest_of_next? _h

/-- Reads words and the gaps between them. `lead` is the gap before the next word and `acc` what
was read before it. Gives the text, whether the last gap, which is no part of it, ends a line,
and the cursor behind that gap. -/
def plainText (flow : Bool) (indent : Nat) (lead : Gap) (acc : List Char) (cur : Cursor) :
    Except Error (List Char × Bool × Cursor) :=
  if cur.atDocumentMark || cur.sees '#' then .ok (acc.reverse, lead.broken, cur)
  else do
    let (word, cur') ← plainWord flow [] cur
    if word.isEmpty then return (acc.reverse, lead.broken, cur')
    let acc := word ++ lead.text.reverse ++ acc
    let (gap, cur'') := cur'.gap {}
    if gap.tab.any (· < indent) then throw (.malformed "spaces as indentation")
    else if cur''.atEnd || !(cur'.peek 0).any isGap then return (acc.reverse, gap.broken, cur'')
    else if !flow && cur''.column < indent then return (acc.reverse, gap.broken, cur'')
    else if _h : cur''.rest.length < cur.rest.length then plainText flow indent gap acc cur''
    else return (acc.reverse, gap.broken, cur'')
termination_by cur.rest.length

end EntityGraph.Yaml
