import EntityGraph.Yaml.BlockText
import EntityGraph.Yaml.PlainText
import EntityGraph.Yaml.QuotedText
import EntityGraph.Yaml.Token

/-!
# From a YAML text to its tokens

The lexer reads one token after another and keeps the columns of the open block collections. A
scalar, or a collection in brackets, may turn out to be the key of a mapping when a colon follows
it on the same line within 1024 bytes; the lexer remembers where such a candidate began, and
puts the token for a key, and for a mapping that begins with it, in front of it once the colon is
found.
-/

namespace EntityGraph.Yaml

/-- Where a possible key began. -/
structure KeyCandidate where
  /-- How many tokens stand before it. -/
  position : Nat
  /-- Whether nothing but a key may stand there. -/
  required : Bool
  line : Nat
  column : Nat
  index : Nat

/-- The state of the lexer. -/
structure Lexer where
  cursor : Cursor
  /-- The tokens so far, last token first. -/
  tokens : List Token := []
  /-- The number of tokens so far. -/
  count : Nat := 0
  /-- The possible key at the current level of brackets, and those at the enclosing levels. -/
  candidate : Option KeyCandidate := none
  enclosing : List (Option KeyCandidate) := []
  /-- The column of the innermost block collection, and those of the enclosing ones. -/
  indent : Int := -1
  indents : List Int := []
  /-- Whether a key may begin here. -/
  keyAllowed : Bool := true

namespace Lexer

/-- Whether the lexer is inside brackets. -/
def inFlow (l : Lexer) : Bool := !l.enclosing.isEmpty

/-- Appends a token. -/
def emit (l : Lexer) (t : Token) : Lexer := { l with tokens := t :: l.tokens, count := l.count + 1 }

/-- Puts a token behind the first `position` ones. -/
def insertAt (l : Lexer) (position : Nat) (t : Token) : Lexer :=
  let later := l.count - position
  { l with tokens := l.tokens.take later ++ t :: l.tokens.drop later, count := l.count + 1 }

/-- Moves the cursor. -/
def moveTo (l : Lexer) (cursor : Cursor) : Lexer := { l with cursor }

/-- Forgets the possible key, which must not be required. -/
def dropCandidate (l : Lexer) : Except Error Lexer :=
  if l.candidate.any (·.required) then .error (.malformed "a colon behind a key")
  else .ok { l with candidate := none }

/-- Remembers that a key may begin here. -/
def saveCandidate (l : Lexer) : Except Error Lexer :=
  if !l.keyAllowed then .ok l
  else do
    let l ← l.dropCandidate
    let cur := l.cursor
    let required := !l.inFlow && l.indent == (cur.column : Int)
    return { l with candidate := some ⟨l.count, required, cur.line, cur.column, cur.index⟩ }

/-- Whether a possible key is out of reach of a colon here. -/
def isStale (cur : Cursor) (k : KeyCandidate) : Bool :=
  k.line < cur.line || k.index + 1024 < cur.index

/-- Forgets the possible keys that are out of reach, none of which may be required. -/
def dropStale (l : Lexer) : Except Error Lexer :=
  let stale := fun k : Option KeyCandidate => k.any (isStale l.cursor)
  if (l.candidate :: l.enclosing).any fun k => stale k && k.any (·.required) then
    .error (.malformed "a colon behind a key")
  else
    let keep := fun k : Option KeyCandidate => if stale k then none else k
    .ok { l with candidate := keep l.candidate, enclosing := l.enclosing.map keep }

/-- Opens a block collection at a deeper column; its token goes behind the first `position`
ones. -/
def openBlock (l : Lexer) (column position : Nat) (t : Token) : Lexer :=
  if !l.inFlow && l.indent < (column : Int) then
    { l.insertAt position t with indent := column, indents := l.indent :: l.indents }
  else l

/-- Closes the block collections deeper than a column. -/
def closeBlocksFrom (column : Int) (indent : Int) (closed : Nat) : List Int → Int × List Int × Nat
  | [] => if column < indent then (-1, [], closed + 1) else (indent, [], closed)
  | outer :: rest =>
    if column < indent then closeBlocksFrom column outer (closed + 1) rest
    else (indent, outer :: rest, closed)

/-- Closes the block collections deeper than a column, outside brackets. -/
def closeBlocks (l : Lexer) (column : Int) : Lexer :=
  if l.inFlow then l
  else
    let (indent, indents, closed) := closeBlocksFrom column l.indent 0 l.indents
    { l with
      indent, indents
      tokens := List.replicate closed .blockEnd ++ l.tokens
      count := l.count + closed }

/-- Skips blanks, comments and line breaks. Outside brackets a tab is no blank where a key may
begin, and behind a line break a key may. -/
def skipToToken (l : Lexer) : Lexer :=
  let cur := if l.cursor.column == 0 && l.cursor.sees '\ufeff' then l.cursor.skip else l.cursor
  let tabs := l.inFlow || !l.keyAllowed
  let cur := cur.skipWhile fun c => c == ' ' || (tabs && c == '\t')
  let cur := if cur.sees '#' then cur.skipWhile (!isBreak ·) else cur
  match cur.next? with
  | some (c, cur') =>
    if isBreak c then
      if _h : cur'.rest.length < l.cursor.rest.length then
        skipToToken { l with cursor := cur', keyAllowed := l.keyAllowed || !l.inFlow }
      else l.moveTo cur
    else l.moveTo cur
  | none => l.moveTo cur
termination_by l.cursor.rest.length

/-- A token that ends what came before: an indicator of a document or a directive. -/
def leaveBlocks (l : Lexer) : Except Error Lexer := do
  let l ← (l.closeBlocks (-1)).dropCandidate
  return { l with keyAllowed := false }

/-- Opens a bracket. -/
def openFlow (l : Lexer) (t : Token) : Except Error Lexer := do
  let l ← l.saveCandidate
  return { (l.emit t).moveTo l.cursor.skip with
    candidate := none, enclosing := l.candidate :: l.enclosing, keyAllowed := true }

/-- Closes a bracket. -/
def closeFlow (l : Lexer) (t : Token) : Except Error Lexer := do
  let l ← l.dropCandidate
  let l := match l.enclosing with
    | [] => l
    | k :: rest => { l with candidate := k, enclosing := rest }
  return { (l.emit t).moveTo l.cursor.skip with keyAllowed := false }

/-- An entry of a block sequence or, inside brackets, a lone dash. -/
def blockEntry (l : Lexer) : Except Error Lexer := do
  if !l.inFlow && !l.keyAllowed then throw (.malformed "no entry of a block sequence")
  let l ← (l.openBlock l.cursor.column l.count .blockSequenceStart).dropCandidate
  return { (l.emit .blockEntry).moveTo l.cursor.skip with keyAllowed := true }

/-- The indicator of a key. -/
def keyIndicator (l : Lexer) : Except Error Lexer := do
  if !l.inFlow && !l.keyAllowed then throw (.malformed "no key of a mapping")
  let l ← (l.openBlock l.cursor.column l.count .blockMappingStart).dropCandidate
  return { (l.emit .key).moveTo l.cursor.skip with keyAllowed := !l.inFlow }

/-- The indicator of a value. A possible key that is still in reach becomes its key. -/
def valueIndicator (l : Lexer) : Except Error Lexer := do
  match l.candidate with
  | some k =>
    let l := (l.insertAt k.position .key).openBlock k.column k.position .blockMappingStart
    return { (l.emit .value).moveTo l.cursor.skip with candidate := none, keyAllowed := false }
  | none =>
    if !l.inFlow && !l.keyAllowed then throw (.malformed "no value of a mapping")
    let l := l.openBlock l.cursor.column l.count .blockMappingStart
    return { (l.emit .value).moveTo l.cursor.skip with keyAllowed := !l.inFlow }

/-- A token that may begin a key and behind which none may begin. -/
def keyPart (l : Lexer) (take : Cursor → Except Error (Token × Cursor)) : Except Error Lexer := do
  let l ← l.saveCandidate
  let (t, cur) ← take l.cursor
  return { (l.emit t).moveTo cur with keyAllowed := false }

/-- A plain scalar. When it is followed by a line break, a key may begin behind it. -/
def plainScalar (l : Lexer) : Except Error Lexer := do
  let l ← l.saveCandidate
  let (text, broken, cur) ← plainText l.inFlow (l.indent + 1).toNat {} [] l.cursor
  return { (l.emit (.scalar true (String.ofList text))).moveTo cur with keyAllowed := broken }

/-- A block scalar. -/
def blockScalar (l : Lexer) (literal : Bool) : Except Error Lexer := do
  let l ← l.dropCandidate
  let (text, cur) ← blockText literal l.indent l.cursor.skip
  return { (l.emit (.scalar false (String.ofList text))).moveTo cur with keyAllowed := true }

/-- A quoted scalar. -/
def quotedScalar (l : Lexer) (single : Bool) : Except Error Lexer :=
  l.keyPart fun cur =>
    (quotedText single [] cur.skip).map fun (text, cur) =>
      (.scalar false (String.ofList text), cur)

/-- Whether a plain scalar begins with `c`, the next character behind it being `ahead`. -/
def beginsPlain (flow : Bool) (c : Char) (ahead : Option Char) : Bool :=
  !(isGap c || c ∈ ['-', '?', ':', ',', '[', ']', '\x7b', '\x7d', '#', '&', '*', '!', '|', '>',
      '\'', '"', '%', '@', '\u0060']) ||
    (c == '-' && !ahead.any isBlank) ||
    (!flow && (c == '?' || c == ':') && !ahead.all isGap)

/-- Reads the token that begins with `c`. -/
def readToken (l : Lexer) (c : Char) : Except Error Lexer :=
  let cur := l.cursor
  let flow := l.inFlow
  let gapBehind := cur.gapAt 1
  if cur.column == 0 && c == '%' then do
    let l ← l.leaveBlocks
    let (t, cur) ← takeDirective cur.skip
    return (l.emit t).moveTo cur
  else if cur.atDocumentMark then do
    let l ← l.leaveBlocks
    return (l.emit (if c == '-' then .documentStart else .documentEnd)).moveTo (cur.skipN 3)
  else if c == '[' then l.openFlow .flowSequenceStart
  else if c == '\x7b' then l.openFlow .flowMappingStart
  else if c == ']' then l.closeFlow .flowSequenceEnd
  else if c == '\x7d' then l.closeFlow .flowMappingEnd
  else if c == ',' then do
    let l ← l.dropCandidate
    return { (l.emit .flowEntry).moveTo cur.skip with keyAllowed := true }
  else if c == '-' && gapBehind then l.blockEntry
  else if c == '?' && (flow || gapBehind) then l.keyIndicator
  else if c == ':' && (flow || gapBehind) then l.valueIndicator
  else if c == '*' then
    l.keyPart fun cur => (takeAnchorName cur.skip).map fun (n, cur) => (.alias n, cur)
  else if c == '&' then
    l.keyPart fun cur => (takeAnchorName cur.skip).map fun (n, cur) => (.anchor n, cur)
  else if c == '!' then l.keyPart (takeTag flow)
  else if c == '|' && !flow then l.blockScalar true
  else if c == '>' && !flow then l.blockScalar false
  else if c == '\'' then l.quotedScalar true
  else if c == '"' then l.quotedScalar false
  else if beginsPlain flow c (cur.peek 1) then l.plainScalar
  else .error (.malformed "a character that can begin a token")

/-- Reads the remaining tokens. -/
def run (l : Lexer) : Except Error (List Token) :=
  match (l.skipToToken).dropStale with
  | .error e => .error e
  | .ok l1 =>
    let l1 := l1.closeBlocks l1.cursor.column
    match l1.cursor.peek 0 with
    | none => ((l1.closeBlocks (-1)).dropCandidate).map fun l => l.tokens.reverse
    | some c =>
      match l1.readToken c with
      | .error e => .error e
      | .ok l2 =>
        if _h : l2.cursor.rest.length < l.cursor.rest.length then l2.run
        else .error (.malformed "a token")
termination_by l.cursor.rest.length

end Lexer

/-- The tokens of a text. -/
def tokens (text : String) : Except Error (List Token) :=
  if text.toList.all isAllowed then
    Lexer.run { cursor := { rest := unifyBreaks text.toList } }
  else .error .forbiddenCharacter

end EntityGraph.Yaml
