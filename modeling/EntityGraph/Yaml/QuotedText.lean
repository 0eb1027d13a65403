import EntityGraph.Decimal.Read
import EntityGraph.Yaml.Folding

/-!
# Quoted scalars

In single quotes, two quotes stand for one. In double quotes, a backslash begins an escape, and
before a line break it joins the lines without a space.
-/

namespace EntityGraph.Yaml

/-- The character that a letter behind a backslash stands for. -/
def escape? : Char → Option Char
  | '0' => some '\x00'
  | 'a' => some '\x07'
  | 'b' => some '\x08'
  | 't' => some '\t'
  | '\t' => some '\t'
  | 'n' => some '\n'
  | 'v' => some '\x0b'
  | 'f' => some '\x0c'
  | 'r' => some '\r'
  | 'e' => some '\x1b'
  | ' ' => some ' '
  | '"' => some '"'
  | '/' => some '/'
  | '\\' => some '\\'
  | 'N' => some '\u0085'
  | '_' => some '\u00a0'
  | 'L' => some '\u2028'
  | 'P' => some '\u2029'
  | _ => none

/-- The number of hexadecimal digits behind a letter that begins a character code. -/
def codeLength? : Char → Option Nat
  | 'x' => some 2
  | 'u' => some 4
  | 'U' => some 8
  | _ => none

/-- The character with a code. -/
def charOfCode? (n : Nat) : Option Char :=
  if h : n.isValidChar then some (Char.ofNatAux n h) else none

/-- Takes as many hexadecimal digits as are asked for, and the character with that code. -/
def takeCode (cur : Cursor) (length : Nat) : Except Error (Char × Cursor) :=
  let ds := cur.rest.take length
  if ds.length < length then .error (.malformed "a hexadecimal number")
  else
    match (Decimal.natOfDigits? 16 ds).bind charOfCode? with
    | some c => .ok (c, cur.skipN length)
    | none => .error (.malformed "a hexadecimal number")

/-- Takes an escape, behind its backslash; none for an escaped line break. -/
def takeEscape (cur : Cursor) : Except Error (Option Char × Cursor) :=
  match cur.next? with
  | none => .error (.malformed "an escape character")
  | some (c, cur') =>
    if isBreak c then .ok (none, cur')
    else
      match escape? c, codeLength? c with
      | some e, _ => .ok (some e, cur')
      | none, some n => (takeCode cur' n).map fun (c, cur) => (some c, cur)
      | none, none => .error (.malformed "an escape character")

/-- Reads the text of a quoted scalar, behind its opening quote, up to its closing quote. `acc`
holds what was read before, last character first. -/
def quotedText (single : Bool) (acc : List Char) (cur : Cursor) :
    Except Error (List Char × Cursor) :=
  match _h : cur.next? with
  | none => .error (.malformed "a closing quote")
  | some (c, cur') =>
    if cur.atDocumentMark then .error (.malformed "a closing quote")
    else if isGap c then
      let r := cur'.gap (Gap.push {} c cur.column)
      quotedText single (r.1.text.reverse ++ acc) r.2
    else if single then
      if c = '\'' then
        match _h' : cur'.next? with
        | some ('\'', cur'') => quotedText single ('\'' :: acc) cur''
        | _ => .ok (acc.reverse, cur')
      else quotedText single (c :: acc) cur'
    else if c = '"' then .ok (acc.reverse, cur')
    else if c = '\\' then
      match takeEscape cur' with
      | .error e => .error e
      | .ok (some e, cur'') =>
        if _hlt : cur''.rest.length < cur.rest.length then quotedText single (e :: acc) cur''
        else .error (.malformed "an escape character")
      | .ok (none, cur'') =>
        let r := cur''.gap { broken := true }
        if _hlt : r.2.rest.length < cur.rest.length then
          quotedText single (r.1.text.reverse ++ acc) r.2
        else .error (.malformed "an escape character")
    else quotedText single (c :: acc) cur'
termination_by cur.rest.length
decreasing_by
  · exact Nat.lt_of_le_of_lt (Cursor.length_rest_gap_le _ _) (Cursor.length_rest_of_next? _h)
  · exact Nat.lt_trans (Cursor.length_rest_of_next? _h') (Cursor.length_rest_of_next? _h)
  · exact Cursor.length_rest_of_next? _h
  · exact _hlt
  · exact _hlt
  · exact Cursor.length_rest_of_next? _h

end EntityGraph.Yaml
