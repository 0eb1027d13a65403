import EntityGraph.Decimal.Read
import EntityGraph.Yaml.Cursor
import EntityGraph.Yaml.Tag

/-!
# Tokens of a YAML text

Tokens stand for the indicators and scalars of a text and for the beginning and end of the
collections that indentation forms. This module reads those that are made of a name: anchors,
aliases, tags and directives.
-/

namespace EntityGraph.Yaml

/-- A tag as it is written: a handle, which a directive or the language binds, and the rest. The
empty handle stands for the tag that is the rest. -/
structure TagName where
  handle : String
  rest : Tag
  deriving DecidableEq, Repr

/-- A token. -/
inductive Token where
  | version (major minor : Nat)
  | tagHandle (handle : String) (expansion : Tag)
  | documentStart
  | documentEnd
  | blockSequenceStart
  | blockMappingStart
  | blockEnd
  | flowSequenceStart
  | flowSequenceEnd
  | flowMappingStart
  | flowMappingEnd
  | blockEntry
  | flowEntry
  | key
  | value
  | alias (name : String)
  | anchor (name : String)
  | tag (name : TagName)
  /-- A scalar, and whether it stands without quotes and outside of a block. -/
  | scalar (plain : Bool) (text : String)
  deriving DecidableEq, Repr

/-- Takes the name of an anchor or alias behind its indicator. -/
def takeAnchorName (cur : Cursor) : Except Error (String × Cursor) :=
  let (name, cur') := cur.takeWhile isWord
  let ends := (cur'.peek 0).all fun c =>
    isGap c || c ∈ ['?', ':', ',', ']', '\x7d', '%', '@', '\u0060']
  if name.isEmpty || !ends then .error (.malformed "the name of an anchor")
  else .ok (String.ofList name, cur')

/-- Whether a character may stand in a tag; inside angle brackets and in directives commas and
brackets may too. -/
def isTagChar (verbatim : Bool) (c : Char) : Bool :=
  isWord c || c ∈ [';', '/', '?', ':', '@', '&', '=', '+', '$', '.', '%', '!', '~', '*', '\'', '(',
    ')'] || (verbatim && c ∈ [',', '[', ']'])

/-- The value of a byte that is written as two hexadecimal digits behind a percent sign. -/
def escapedByte? : List Char → Option Nat
  | '%' :: a :: b :: _ => Decimal.natOfDigits? 16 [a, b]
  | _ => none

/-- The number of bytes behind a first byte that belong to it. -/
def trailCount? (b : Nat) : Option Nat :=
  if b < 0x80 then some 0
  else if b / 0x20 = 6 then some 1
  else if b / 0x10 = 14 then some 2
  else if b / 8 = 30 then some 3
  else none

/-- Takes `n` escaped bytes that belong to a first one. -/
def takeTrailBytes (cur : Cursor) : (n : Nat) → Except Error (List UInt8 × Cursor)
  | 0 => .ok ([], cur)
  | n + 1 =>
    match escapedByte? cur.rest with
    | some b =>
      if b / 0x40 = 2 then do
        let (more, cur) ← takeTrailBytes (cur.skipN 3) n
        return (.ofNat b :: more, cur)
      else .error (.malformed "a trailing byte")
    | none => .error (.malformed "an escaped byte")

/-- Takes an escaped byte with those that belong to it. Whether they are a character does not
matter. -/
def takeEscapedBytes (cur : Cursor) : Except Error (List UInt8 × Cursor) :=
  match escapedByte? cur.rest with
  | none => .error (.malformed "an escaped byte")
  | some b =>
    match trailCount? b with
    | none => .error (.malformed "a leading byte")
    | some n => do
      let (more, cur) ← takeTrailBytes (cur.skipN 3) n
      return (.ofNat b :: more, cur)

/-- Takes the bytes of a tag. `acc` holds what was read before, last byte first. -/
def takeTagBytes (verbatim : Bool) (acc : List UInt8) (cur : Cursor) :
    Except Error (List UInt8 × Cursor) :=
  match _h : cur.next? with
  | none => .ok (acc.reverse, cur)
  | some (c, cur') =>
    if !isTagChar verbatim c then .ok (acc.reverse, cur)
    else if c = '%' then
      match takeEscapedBytes cur with
      | .error e => .error e
      | .ok (bytes, cur'') =>
        if _hlt : cur''.rest.length < cur.rest.length then
          takeTagBytes verbatim (bytes.reverse ++ acc) cur''
        else .error (.malformed "an escaped byte")
    else takeTagBytes verbatim (.ofNat c.toNat :: acc) cur'
termination_by cur.rest.length
decreasing_by
  · exact _hlt
  · exact Cursor.length_rest_of_next? _h

/-- Takes a tag handle: an exclamation mark, word characters and, if it is there, another
exclamation mark. -/
def takeHandle (cur : Cursor) : Except Error (List Char × Cursor) :=
  if !cur.sees '!' then .error (.malformed "an exclamation mark")
  else
    let (name, cur) := cur.skip.takeWhile isWord
    if cur.sees '!' then .ok ('!' :: name ++ ['!'], cur.skip) else .ok ('!' :: name, cur)

/-- Whether characters are a handle that is closed by an exclamation mark. -/
def isClosedHandle (handle : List Char) : Bool := handle != ['!'] && handle.getLast? == some '!'

/-- Takes a tag or the rest of one; something of it has to be written. -/
def takeTagRest (verbatim : Bool) (cur : Cursor) : Except Error (Tag × Cursor) := do
  let (bytes, cur') ← takeTagBytes verbatim [] cur
  if cur'.index = cur.index then throw (.malformed "a tag") else return (.ofBytes bytes, cur')

/-- Takes a tag, its exclamation mark included. Without a rest it is the lone exclamation mark. -/
def takeTagName (cur : Cursor) : Except Error (TagName × Cursor) :=
  if cur.peek 1 = some '<' then do
    let (rest, cur) ← takeTagRest true (cur.skipN 2)
    if cur.sees '>' then return (⟨"", rest⟩, cur.skip)
    else throw (.malformed "a closing angle bracket")
  else do
    let (handle, cur) ← takeHandle cur
    if isClosedHandle handle then
      let (rest, cur) ← takeTagRest false cur
      return (⟨String.ofList handle, rest⟩, cur)
    else
      let (bytes, cur) ← takeTagBytes false [] cur
      let rest := Tag.ofString (String.ofList (handle.drop 1)) ++ Tag.ofBytes bytes
      if rest.isEmpty then return (⟨"", .lone⟩, cur) else return (⟨"!", rest⟩, cur)

/-- Takes a tag token. A blank, a line break or, inside brackets, a comma follows it. -/
def takeTag (flow : Bool) (cur : Cursor) : Except Error (Token × Cursor) := do
  let (name, cur) ← takeTagName cur
  if cur.gapAt 0 || (flow && cur.sees ',') then return (.tag name, cur)
  else throw (.malformed "a blank or a line break")

/-- Takes the digits of one part of a version, nine at most. -/
def takeVersionNumber (cur : Cursor) : Except Error (Nat × Cursor) :=
  let (ds, cur) := cur.takeWhile Char.isDigit
  if ds.isEmpty || 9 < ds.length then .error (.malformed "a version number")
  else .ok (Decimal.ofDigits ds, cur)

/-- Takes the version that a directive states. -/
def takeVersion (cur : Cursor) : Except Error (Token × Cursor) := do
  let (major, cur) ← takeVersionNumber (cur.skipWhile isBlank)
  if !cur.sees '.' then throw (.malformed "a point")
  let (minor, cur) ← takeVersionNumber cur.skip
  return (.version major minor, cur)

/-- Takes the handle and the expansion that a directive binds. -/
def takeTagHandle (cur : Cursor) : Except Error (Token × Cursor) := do
  let (handle, cur) ← takeHandle (cur.skipWhile isBlank)
  if handle != ['!'] && !isClosedHandle handle then throw (.malformed "an exclamation mark")
  if !(cur.peek 0).any isBlank then throw (.malformed "a blank")
  let (expansion, cur) ← takeTagRest true (cur.skipWhile isBlank)
  if !cur.gapAt 0 then throw (.malformed "a blank or a line break")
  return (.tagHandle (String.ofList handle) expansion, cur)

/-- Takes a directive behind its percent sign, with the end of its line. -/
def takeDirective (cur : Cursor) : Except Error (Token × Cursor) := do
  let (name, cur) := cur.takeWhile isWord
  if name.isEmpty || !cur.gapAt 0 then throw (.malformed "the name of a directive")
  let (token, cur) ← match String.ofList name with
    | "YAML" => takeVersion cur
    | "TAG" => takeTagHandle cur
    | _ => throw (.malformed "a known directive")
  let cur := cur.skipComment
  if cur.atLineEnd then return (token, cur.skip)
  else throw (.malformed "a comment or a line break")

end EntityGraph.Yaml
