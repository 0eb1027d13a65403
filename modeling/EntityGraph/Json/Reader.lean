import EntityGraph.Json.Number
import EntityGraph.Text.Front
import EntityGraph.Text.Search

/-!
# Reading JSON

Reads a text by the grammar of RFC 8259, value by value from its front.
-/

namespace EntityGraph.Json

open Text (Front)

/-- The four characters that may stand between tokens. -/
def isBlank (c : Char) : Bool := c == ' ' || c == '\t' || c == '\n' || c == '\r'

/-- The text without leading blanks. -/
def skipBlank (s : List Char) : List Char := s.dropWhile isBlank

theorem length_skipBlank_le (s : List Char) : (skipBlank s).length ≤ s.length :=
  (List.dropWhile_sublist isBlank).length_le

theorem length_lt_of_skipBlank {s rest : List Char} {c : Char} (h : skipBlank s = c :: rest) :
    rest.length < s.length := by
  have hle := length_skipBlank_le s
  rwa [h] at hle

/-- The error at the front of a text that fits nowhere in the grammar. -/
def refuse {α : Type} : List Char → Except Error α
  | [] => .error .unexpectedEnd
  | c :: _ => .error (.unexpected c)

/-! ## Strings -/

/-- A character of a string as it is written: itself, or a code unit of sixteen bits. -/
inductive Piece where
  | char (c : Char)
  | unit (n : Nat)

/-- Joins surrogate pairs; a half of a pair that stands alone denotes no character. -/
def joinPieces : List Piece → Option (List Char)
  | [] => some []
  | .char c :: rest => (joinPieces rest).map (c :: ·)
  | .unit n :: .unit m :: rest =>
    if 0xD800 ≤ n ∧ n < 0xDC00 then
      if 0xDC00 ≤ m ∧ m < 0xE000 then
        (joinPieces rest).map (Char.ofNat (0x10000 + (n - 0xD800) * 0x400 + (m - 0xDC00)) :: ·)
      else none
    else if 0xDC00 ≤ n ∧ n < 0xE000 then none
    else (joinPieces (.unit m :: rest)).map (Char.ofNat n :: ·)
  | .unit n :: rest =>
    if 0xD800 ≤ n ∧ n < 0xE000 then none else (joinPieces rest).map (Char.ofNat n :: ·)

/-- The character that a letter behind a backslash stands for. -/
def escape? : Char → Option Char
  | '"' => some '"'
  | '\\' => some '\\'
  | '/' => some '/'
  | 'b' => some '\x08'
  | 'f' => some '\x0c'
  | 'n' => some '\n'
  | 'r' => some '\r'
  | 't' => some '\t'
  | _ => none

/-- Reads the pieces of a string up to its closing quote. -/
def readPieces : (s : List Char) → Except Error (Front (List Piece) s)
  | [] => .error .unexpectedEnd
  | '"' :: _ => .ok (.first [])
  | '\\' :: 'u' :: a :: b :: c :: d :: rest =>
    match Decimal.natOfDigits? 16 [a, b, c, d] with
    | some n => do
      let r ← readPieces rest
      return (r.map (Piece.unit n :: ·)).behind.behind.behind.behind.behind.behind
    | none => .error (.unexpected 'u')
  | '\\' :: e :: rest =>
    match escape? e with
    | some c => do
      let r ← readPieces rest
      return (r.map (Piece.char c :: ·)).behind.behind
    | none => .error (.unexpected e)
  | c :: rest =>
    if c.toNat < 0x20 ∨ c = '\\' then .error (.unexpected c)
    else do
      let r ← readPieces rest
      return (r.map (Piece.char c :: ·)).behind

/-- Reads a string behind its opening quote; `none` when it denotes no text. -/
def readString (s : List Char) : Except Error (Front (Option String) s) := do
  let r ← readPieces s
  return r.map fun pieces => (joinPieces pieces).map String.ofList

/-! ## Numbers -/

/-- Digits at the front, one at least. -/
def readDigits (s : List Char) : Except Error (Front (List Char) s) :=
  if h : (s.dropWhile Decimal.isDigit).length < s.length then
    .ok ⟨s.takeWhile Decimal.isDigit, s.dropWhile Decimal.isDigit, h⟩
  else refuse s

/-- The exponent at the front, if there is one. -/
def readExponent (s : List Char) : Except Error (Option Int × List Char) :=
  match s with
  | c :: rest =>
    if c = 'e' ∨ c = 'E' then do
      let (negative, ds) := Decimal.sign rest
      let r ← readDigits ds
      let n : Int := Decimal.ofDigits r.value
      return (some (if negative then -n else n), r.rest)
    else .ok (none, s)
  | [] => .ok (none, s)

/-- The digits behind a point at the front, if there is one. -/
def readPart (s : List Char) : Except Error (Option (List Char) × List Char) :=
  match s with
  | '.' :: rest => do
    let r ← readDigits rest
    return (some r.value, r.rest)
  | _ => .ok (none, s)

/-- The digits before the point: a zero, or digits that do not begin with one. -/
def readWhole (s : List Char) : Except Error (List Char × List Char) :=
  match s with
  | '0' :: rest => .ok (['0'], rest)
  | _ => do
    let r ← readDigits s
    return (r.value, r.rest)

/-- Reads a number. -/
def readNumber (s : List Char) : Except Error (Json × List Char) := do
  let (negative, s) := match s with
    | '-' :: rest => (true, rest)
    | _ => (false, s)
  let (whole, s) ← readWhole s
  let (part, s) ← readPart s
  let (exponent, s) ← readExponent s
  return ((Numeral.mk negative whole part exponent).value, s)

/-! ## Values -/

/-- Reads a fixed word. -/
def readWord (word : List Char) (v : Json) (s : List Char) : Except Error (Json × List Char) :=
  match Text.stripList? word s with
  | some rest => .ok (v, rest)
  | none => refuse (s.drop 1)

/-- Reads a value that encloses no other value. -/
def readAtom (s : List Char) : Except Error (Front Json s) := do
  let (v, rest) ← match s with
    | 'n' :: _ => readWord "null".toList .null s
    | 't' :: _ => readWord "true".toList (.bool true) s
    | 'f' :: _ => readWord "false".toList (.bool false) s
    | '"' :: rest => do
      let r ← readString rest
      pure (r.value.elim .unreadable .string, r.rest)
    | _ => readNumber s
  if h : rest.length < s.length then return ⟨v, rest, h⟩ else refuse s

/-- An object, unless one of its keys denotes no text. -/
def ofMembers (members : List (Option String × Json)) : Json :=
  match members.mapM fun e => e.1.map fun k => (k, e.2) with
  | some members => .object members
  | none => .unreadable

/-- Reads a key and the colon behind it. -/
def readKey (s : List Char) : Except Error (Front (Option String) s) :=
  match h : skipBlank s with
  | '"' :: rest => do
    let r ← readString rest
    match h' : skipBlank r.rest with
    | ':' :: rest' =>
      have hr : r.rest.length < s.length := Nat.lt_trans r.shorter (length_lt_of_skipBlank h)
      return ⟨r.value, rest', Nat.lt_trans (length_lt_of_skipBlank h') hr⟩
    | s' => refuse s'
  | s' => refuse s'

mutual

/-- Reads a value, leading blanks included. -/
def readValue (s : List Char) : Except Error (Front Json s) :=
  match h : skipBlank s with
  | '[' :: rest =>
    have hlt : rest.length < s.length := length_lt_of_skipBlank h
    match h' : skipBlank rest with
    | ']' :: rest' => .ok ⟨.array [], rest', Nat.lt_trans (length_lt_of_skipBlank h') hlt⟩
    | _ => do
      let r ← readItems rest
      return (r.map .array).widen (Nat.le_of_lt hlt)
  | '\x7b' :: rest =>
    have hlt : rest.length < s.length := length_lt_of_skipBlank h
    match h' : skipBlank rest with
    | '\x7d' :: rest' => .ok ⟨.object [], rest', Nat.lt_trans (length_lt_of_skipBlank h') hlt⟩
    | _ => do
      let r ← readMembers rest
      return (r.map ofMembers).widen (Nat.le_of_lt hlt)
  | s' => do
    let r ← readAtom s'
    return r.widen (h ▸ length_skipBlank_le s)
termination_by 2 * s.length

/-- Reads the items of an array, one at least, and its closing bracket. -/
def readItems (s : List Char) : Except Error (Front (List Json) s) := do
  let r ← readValue s
  match h : skipBlank r.rest with
  | ']' :: rest => return ⟨[r.value], rest, Nat.lt_trans (length_lt_of_skipBlank h) r.shorter⟩
  | ',' :: rest =>
    have hlt : rest.length < s.length := Nat.lt_trans (length_lt_of_skipBlank h) r.shorter
    let more ← readItems rest
    return (more.map (r.value :: ·)).widen (Nat.le_of_lt hlt)
  | s' => refuse s'
termination_by 2 * s.length + 1

/-- Reads the members of an object, one at least, and its closing brace. -/
def readMembers (s : List Char) : Except Error (Front (List (Option String × Json)) s) := do
  let k ← readKey s
  have hk := k.shorter
  let r ← readValue k.rest
  have hr : r.rest.length < s.length := Nat.lt_trans r.shorter hk
  match h : skipBlank r.rest with
  | '\x7d' :: rest =>
    return ⟨[(k.value, r.value)], rest, Nat.lt_trans (length_lt_of_skipBlank h) hr⟩
  | ',' :: rest =>
    have hlt : rest.length < s.length := Nat.lt_trans (length_lt_of_skipBlank h) hr
    let more ← readMembers rest
    return (more.map ((k.value, r.value) :: ·)).widen (Nat.le_of_lt hlt)
  | s' => refuse s'
termination_by 2 * s.length + 1

end

/-- The value that the whole text writes, as far as the grammar goes. -/
def parse (text : String) : Except Error Json := do
  let r ← readValue text.toList
  match skipBlank r.rest with
  | [] => return r.value
  | c :: _ => .error (.unexpected c)

/-- The value of a text that can be read throughout, its members in written order. -/
def ofText (text : String) : Except Error Json := do
  let v ← parse text
  v.readableWithin maxDepth
  return v

/-- The value of a text with the members of every object sorted by key. -/
def sortedOfText (text : String) : Except Error Json := do
  return (← ofText text).sorted

end EntityGraph.Json
