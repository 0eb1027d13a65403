import EntityGraph.Toml.QuotedText
import EntityGraph.Toml.Scalar

/-!
# Reading TOML

Reads a text by the grammar of TOML 1.0. A carriage return counts only before a line feed, where
it is dropped; a byte order mark counts only at the very front, where it is dropped too.
-/

namespace EntityGraph.Toml

open Text (Front)

/-- Nested arrays and tables on one line, and the parts of a dotted key, stay below this. -/
def nesting : Nat := 80

/-- A text with every line ended by a line feed alone. -/
def unifyBreaks : List Char → List Char
  | [] => []
  | '\r' :: '\n' :: rest => '\n' :: unifyBreaks rest
  | c :: rest => c :: unifyBreaks rest

/-- The text without leading spaces and tabs. -/
def skipBlank (s : List Char) : List Char := s.dropWhile isBlank

theorem length_skipBlank_le (s : List Char) : (skipBlank s).length ≤ s.length :=
  (List.dropWhile_sublist isBlank).length_le

theorem length_lt_of_skipBlank {s rest : List Char} {c : Char} (h : skipBlank s = c :: rest) :
    rest.length < s.length := by
  have hle := length_skipBlank_le s
  rwa [h] at hle

/-- The text without leading blanks, line breaks and comments. -/
def skipGaps (s : List Char) : List Char :=
  match s with
  | [] => []
  | c :: rest =>
    if isGap c then skipGaps rest
    else if c = '#' then
      have := (List.dropWhile_sublist isPlain (l := rest)).length_le
      skipGaps (rest.dropWhile isPlain)
    else s
termination_by s.length
decreasing_by all_goals simp only [List.length_cons]; omega

theorem length_skipGaps_le (s : List Char) : (skipGaps s).length ≤ s.length := by
  fun_induction skipGaps s with
  | case1 => exact Nat.le_refl _
  | case2 c rest _ ih => exact Nat.le_succ_of_le ih
  | case3 rest _ this ih =>
    simp only [List.length_cons]
    omega
  | case4 c rest => exact Nat.le_refl _

theorem length_lt_of_skipGaps {s rest : List Char} {c : Char} (h : skipGaps s = c :: rest) :
    rest.length < s.length := by
  have hle := length_skipGaps_le s
  rwa [h] at hle

/-! ## Keys -/

/-- Whether a character may stand in a key without quotes. -/
def isKeyChar (c : Char) : Bool := c.isAlphanum || c == '-' || c == '_'

/-- Reads one part of a key. -/
def readKeyPart (s : List Char) : Except Error (Front String s) :=
  if h : (s.dropWhile isKeyChar).length < s.length then
    .ok ⟨String.ofList (s.takeWhile isKeyChar), s.dropWhile isKeyChar, h⟩
  else readQuoted s

/-- Reads the parts of a key with points between them, and the blanks around each. -/
def readKey (s : List Char) : Except Error (Front (List String) s) := do
  let part ← readKeyPart (skipBlank s)
  have h₁ := length_skipBlank_le s
  have h₂ := length_skipBlank_le part.rest
  have h₃ := part.shorter
  match h : skipBlank part.rest with
  | '.' :: rest =>
    have hlt : rest.length < s.length := by
      rw [h, List.length_cons] at h₂
      omega
    let more ← readKey rest
    return (more.map (part.value :: ·)).widen (Nat.le_of_lt hlt)
  | rest => return ⟨[part.value], rest, by rw [h] at h₂; omega⟩
termination_by s.length

/-- The assignment of a value to a key with parts. -/
def Assignment.ofKey (parts : List String) (v : Value) : Except Error Assignment :=
  if nesting ≤ parts.length then .error .tooDeep
  else .ok ⟨parts.dropLast, parts.getLastD "", v⟩

/-- Reads a character that has to follow, blanks before it left out. -/
def expect (c : Char) (s : List Char) : Except Error (Front Unit s) :=
  match h : skipBlank s with
  | a :: rest =>
    if a = c then
      .ok ⟨(), rest, length_lt_of_skipBlank h⟩
    else .error (.malformed (String.singleton c))
  | [] => .error (.malformed (String.singleton c))

/-! ## Values -/

/-- Reads a word, or a date and a time with a space between them. -/
def readWord (s : List Char) : Except Error (Front Value s) := do
  let word := s.takeWhile isWordChar
  let rest := s.dropWhile isWordChar
  let (word, rest) := match stripDate? word, rest with
    | some [], ' ' :: rest =>
      let time := rest.takeWhile isWordChar
      if time.isEmpty then (word, ' ' :: rest)
      else (word ++ 'T' :: time, rest.dropWhile isWordChar)
    | _, _ => (word, rest)
  let v ← scalar word
  if h : rest.length < s.length then return ⟨v, rest, h⟩ else .error (.malformed "a value")

mutual

/-- Reads a value; `depth` more arrays and tables may enclose one another. -/
def readValue (depth : Nat) (s : List Char) : Except Error (Front Value s) :=
  match s with
  | '"' :: rest => return (← readText ('"' :: rest)).map .string
  | '\'' :: rest => return (← readText ('\'' :: rest)).map .string
  | '[' :: rest =>
    match depth with
    | 0 => .error .tooDeep
    | depth + 1 => do
      let r ← readItems depth rest
      return (r.map .array).behind
  | '\x7b' :: rest =>
    match depth with
    | 0 => .error .tooDeep
    | depth + 1 =>
      match h : skipBlank rest with
      | '\x7d' :: rest' =>
        .ok ⟨.table .inline [], rest', Nat.lt_succ_of_lt (length_lt_of_skipBlank h)⟩
      | _ => do
        let r ← readPairs depth rest
        return ⟨← inlineTable r.value, r.rest, Nat.lt_succ_of_lt r.shorter⟩
  | s => readWord s
termination_by 2 * s.length

/-- Reads the items of an array and its closing bracket. A comma may follow the last item. -/
def readItems (depth : Nat) (s : List Char) : Except Error (Front (List Value) s) :=
  match h : skipGaps s with
  | ']' :: rest => .ok ⟨[], rest, length_lt_of_skipGaps h⟩
  | s' => do
    have hle : s'.length ≤ s.length := h ▸ length_skipGaps_le s
    let v ← readValue depth s'
    have hv : v.rest.length < s.length := Nat.lt_of_lt_of_le v.shorter hle
    match h' : skipGaps v.rest with
    | ']' :: rest => return ⟨[v.value], rest, Nat.lt_trans (length_lt_of_skipGaps h') hv⟩
    | ',' :: rest =>
      have hlt : rest.length < s.length := Nat.lt_trans (length_lt_of_skipGaps h') hv
      let more ← readItems depth rest
      return (more.map (v.value :: ·)).widen (Nat.le_of_lt hlt)
    | _ => .error (.malformed "a closing bracket")
termination_by 2 * s.length + 1

/-- Reads the pairs of a table on one line, one at least, and its closing brace. -/
def readPairs (depth : Nat) (s : List Char) : Except Error (Front (List Assignment) s) := do
  let key ← readKey s
  let eq ← expect '=' key.rest
  have heq : (skipBlank eq.rest).length < s.length :=
    Nat.lt_of_le_of_lt (length_skipBlank_le eq.rest) (Nat.lt_trans eq.shorter key.shorter)
  let v ← readValue depth (skipBlank eq.rest)
  have hv : v.rest.length < s.length := Nat.lt_trans v.shorter heq
  let a ← Assignment.ofKey key.value v.value
  match h : skipBlank v.rest with
  | '\x7d' :: rest => return ⟨[a], rest, Nat.lt_trans (length_lt_of_skipBlank h) hv⟩
  | ',' :: rest =>
    have hlt : rest.length < s.length := Nat.lt_trans (length_lt_of_skipBlank h) hv
    let more ← readPairs depth rest
    return (more.map (a :: ·)).widen (Nat.le_of_lt hlt)
  | _ => .error (.malformed "a closing brace")
termination_by 2 * s.length + 1

end

/-! ## Lines -/

/-- What a line of a document says. -/
inductive Line where
  | blank
  | assignment (a : Assignment)
  | header (repeated : Bool) (key : List String)

/-- Reads what may stand behind a value or header up to the end of its line: blanks and a
comment. -/
def readLineEnd (s : List Char) : Except Error (List Char) :=
  let s := skipBlank s
  let s := match s with
    | '#' :: rest => rest.dropWhile isPlain
    | s => s
  match s with
  | [] => .ok []
  | '\n' :: rest => .ok rest
  | _ => .error (.malformed "the end of the line")

/-- Reads a line from its first character that is not blank. -/
def readLine (s : List Char) : Except Error (Line × List Char) :=
  match s with
  | '[' :: '[' :: rest => do
    let key ← readKey rest
    match key.rest with
    | ']' :: ']' :: rest => return (.header true key.value, ← readLineEnd rest)
    | _ => .error (.malformed "closing brackets")
  | '[' :: rest => do
    let key ← readKey rest
    match key.rest with
    | ']' :: rest => return (.header false key.value, ← readLineEnd rest)
    | _ => .error (.malformed "a closing bracket")
  | '#' :: _ | '\n' :: _ => return (.blank, ← readLineEnd s)
  | _ => do
    let key ← readKey s
    let eq ← expect '=' key.rest
    let v ← readValue (nesting - 1) (skipBlank eq.rest)
    return (.assignment (← Assignment.ofKey key.value v.value), ← readLineEnd v.rest)

/-- Reads the lines of a document. -/
def readLines (s : List Char) : Except Error (List Line) :=
  match skipBlank s with
  | [] => .ok []
  | s' => do
    let (line, rest) ← readLine s'
    if _h : rest.length < s.length then return line :: (← readLines rest)
    else .error (.malformed "a line")
termination_by s.length

/-- Splits lines into the assignments before any header and the sections. -/
def sections : List Line → Except Error (List Assignment × List Section)
  | [] => .ok ([], [])
  | .blank :: lines => sections lines
  | .assignment a :: lines => do
    let (top, rest) ← sections lines
    return (a :: top, rest)
  | .header repeated parts :: lines => do
    let (own, rest) ← sections lines
    if nesting ≤ parts.length then .error .tooDeep
    else return ([], ⟨repeated, parts.dropLast, parts.getLastD "", own⟩ :: rest)

/-- The entries of the document that a text writes. -/
def parse (text : String) : Except Error Entries := do
  let s := unifyBreaks text.toList
  let s := match s with
    | '\uFEFF' :: rest => rest
    | s => s
  let (top, rest) ← sections (← readLines s)
  ofSections top rest

end EntityGraph.Toml
