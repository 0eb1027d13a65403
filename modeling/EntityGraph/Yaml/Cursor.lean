/-!
# Positions in a YAML text

A cursor is what is left of a text together with the place of its first character. Carriage
returns, alone or before a line feed, and next-line characters are line feeds from the start; the
line and paragraph separators also end a line and stay what they are.

Results:
* `length_rest_of_next?`: taking a character leaves a shorter rest.
-/

namespace EntityGraph.Yaml

/-- Why a YAML text is refused. -/
inductive Error where
  /-- A character that no YAML text may hold. -/
  | forbiddenCharacter
  /-- The text does not follow the grammar. -/
  | malformed (expected : String)
  /-- An alias without anchor. -/
  | unknownAnchor (name : String)
  /-- Aliases that repeat too much of the text. -/
  | repetition
  /-- More nested collections than are allowed. -/
  | tooDeep
  /-- A key that stands twice in a mapping. -/
  | repeatedKey
  /-- A value of another shape than the reader asked for. -/
  | mismatch (expected : String)
  deriving DecidableEq, Repr

/-- The text of an error. -/
def Error.message : Error → String
  | .forbiddenCharacter => "control characters are not allowed"
  | .malformed expected => "expected " ++ expected
  | .unknownAnchor name => "unknown anchor " ++ name
  | .repetition => "repetition limit exceeded"
  | .tooDeep => "recursion limit exceeded"
  | .repeatedKey => "duplicate entry"
  | .mismatch expected => "invalid type: expected " ++ expected

/-- Whether a YAML text may hold a character. -/
def isAllowed (c : Char) : Bool :=
  let n := c.toNat
  n == 0x09 || n == 0x0A || n == 0x0D || (0x20 ≤ n && n ≤ 0x7E) || n == 0x85 ||
    (0xA0 ≤ n && n ≤ 0xD7FF) || (0xE000 ≤ n && n ≤ 0xFFFD) || 0x10000 ≤ n

/-- Every way of ending a line that is read as a line feed, written as one. -/
def unifyBreaks : List Char → List Char
  | [] => []
  | '\r' :: '\n' :: rest => '\n' :: unifyBreaks rest
  | c :: rest => (if c = '\r' ∨ c = '\u0085' then '\n' else c) :: unifyBreaks rest

/-- Whether a character ends a line. -/
def isBreak (c : Char) : Bool := c == '\n' || c == '\u2028' || c == '\u2029'

/-- Whether a character is a space or a tab. -/
def isBlank (c : Char) : Bool := c == ' ' || c == '\t'

/-- Whether a character is blank or ends a line. -/
def isGap (c : Char) : Bool := isBlank c || isBreak c

/-- Whether a character may stand in the name of an anchor or directive. -/
def isWord (c : Char) : Bool := c.isAlphanum || c == '_' || c == '-'

/-- The rest of a text and the place of its first character. -/
structure Cursor where
  rest : List Char
  line : Nat := 0
  /-- The characters in front of it on its line. -/
  column : Nat := 0
  /-- The bytes in front of it in the text. -/
  index : Nat := 0
  deriving Inhabited

namespace Cursor

/-- The next character and the cursor behind it. -/
def next? (cur : Cursor) : Option (Char × Cursor) :=
  match cur.rest with
  | [] => none
  | c :: rest =>
    some (c, if isBreak c then ⟨rest, cur.line + 1, 0, cur.index + c.utf8Size⟩
      else ⟨rest, cur.line, cur.column + 1, cur.index + c.utf8Size⟩)

/-- The character `n` places ahead. -/
def peek (cur : Cursor) (n : Nat) : Option Char := cur.rest[n]?

/-- Whether the text ends here. -/
def atEnd (cur : Cursor) : Bool := cur.rest.isEmpty

/-- Whether `c` stands here. -/
def sees (cur : Cursor) (c : Char) : Bool := cur.rest.head? == some c

/-- Whether the character `n` places ahead is a blank, a line break or the end of the text. -/
def gapAt (cur : Cursor) (n : Nat) : Bool := (cur.peek n).all isGap

/-- Whether a line break or the end of the text stands here. -/
def atLineEnd (cur : Cursor) : Bool := (cur.peek 0).all isBreak

/-- Whether a marker of a document's beginning or end stands here. -/
def atDocumentMark (cur : Cursor) : Bool :=
  cur.column == 0 && (cur.rest.take 3 == ['-', '-', '-'] || cur.rest.take 3 == ['.', '.', '.']) &&
    cur.gapAt 3

/-- The cursor behind the next character. -/
def skip (cur : Cursor) : Cursor := (cur.next?.map Prod.snd).getD cur

/-- The cursor behind the next `n` characters. -/
def skipN (cur : Cursor) : (n : Nat) → Cursor
  | 0 => cur
  | n + 1 => cur.skip.skipN n

theorem length_rest_of_next? {cur cur' : Cursor} {c : Char} (h : cur.next? = some (c, cur')) :
    cur'.rest.length < cur.rest.length := by
  unfold next? at h
  split at h
  · cases h
  · rename_i c' rest he
    rw [he]
    simp only [Option.some.injEq, Prod.mk.injEq] at h
    obtain ⟨_, rfl⟩ := h
    split <;> simp

/-- The cursor behind all following characters with a property. -/
def skipWhile (p : Char → Bool) (cur : Cursor) : Cursor :=
  match _h : cur.next? with
  | none => cur
  | some (c, cur') => if p c then skipWhile p cur' else cur
termination_by cur.rest.length
decreasing_by exact length_rest_of_next? _h

/-- The following characters with a property, and the cursor behind them. -/
def takeWhile (p : Char → Bool) (cur : Cursor) : List Char × Cursor :=
  (cur.rest.takeWhile p, cur.skipWhile p)

/-- The cursor behind the blanks and the comment that end a line. -/
def skipComment (cur : Cursor) : Cursor :=
  let cur := cur.skipWhile isBlank
  if cur.sees '#' then cur.skipWhile (!isBreak ·) else cur

end Cursor

end EntityGraph.Yaml
