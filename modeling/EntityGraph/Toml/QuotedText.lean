import EntityGraph.Decimal.Read
import EntityGraph.Text.Front
import EntityGraph.Toml.Value

/-!
# Quoted TOML text

Text stands between double quotes, where a backslash begins an escape, or between single quotes,
where every character is itself. Between three quotes it may run over several lines; a line break
directly behind the opening quotes does not count, and up to two more quotes than the closing
three belong to the text.
-/

namespace EntityGraph.Toml

open Text (Front)

/-- Whether a character may stand in comments and quoted text: any but a control character other
than the tab. -/
def isPlain (c : Char) : Bool := c == '\t' || (0x20 ≤ c.toNat && c.toNat != 0x7F)

/-- Whether a character is a space or a tab. -/
def isBlank (c : Char) : Bool := c == ' ' || c == '\t'

/-- Whether a character is blank or ends a line. -/
def isGap (c : Char) : Bool := isBlank c || c == '\n'

/-- The character with a number in hexadecimal digits. -/
def codePoint (ds : List Char) : Except Error Char :=
  match Decimal.natOfDigits? 16 ds with
  | some n => if n.isValidChar then .ok (Char.ofNat n) else .error .outOfRange
  | none => .error (.malformed "hexadecimal digits")

/-- Reads an escape behind its backslash. -/
def readEscape (s : List Char) : Except Error (Front Char s) :=
  match s with
  | 'b' :: rest => .ok (.first '\x08')
  | 't' :: rest => .ok (.first '\t')
  | 'n' :: rest => .ok (.first '\n')
  | 'f' :: rest => .ok (.first '\x0c')
  | 'r' :: rest => .ok (.first '\r')
  | '"' :: rest => .ok (.first '"')
  | '\\' :: rest => .ok (.first '\\')
  | 'u' :: a :: b :: c :: d :: rest => do
    return ⟨← codePoint [a, b, c, d], rest, by simp only [List.length_cons]; omega⟩
  | 'U' :: a :: b :: c :: d :: e :: f :: g :: h :: rest => do
    return ⟨← codePoint [a, b, c, d, e, f, g, h], rest, by simp only [List.length_cons]; omega⟩
  | _ => .error (.malformed "an escape")

/-- Reads up to a closing double quote. -/
def readBasic (s : List Char) : Except Error (Front (List Char) s) :=
  match s with
  | '"' :: rest => .ok (.first [])
  | '\\' :: rest => do
    let c ← readEscape rest
    have _h := c.shorter
    let r ← readBasic c.rest
    return (r.map (c.value :: ·)).widen (by simp only [List.length_cons]; omega)
  | c :: rest =>
    if isPlain c then do
      let r ← readBasic rest
      return (r.map (c :: ·)).behind
    else .error (.malformed "a closing quote")
  | [] => .error (.malformed "a closing quote")
termination_by s.length

/-- Reads up to a closing single quote. -/
def readLiteral (s : List Char) : Except Error (Front (List Char) s) :=
  match s with
  | '\'' :: _ => .ok (.first [])
  | c :: rest =>
    if isPlain c then do
      let r ← readLiteral rest
      return (r.map (c :: ·)).behind
    else .error (.malformed "a closing quote")
  | [] => .error (.malformed "a closing quote")

/-- The closing three quotes at the front, and the one or two quotes before them that belong to
the text. -/
def closing? (quote : Char) (s : List Char) : Option (Front (List Char) s) :=
  let run := (s.takeWhile (· == quote)).length
  if _h : 3 ≤ run then
    some ⟨List.replicate (min run 5 - 3) quote, s.drop (min run 5), by
      have := (List.takeWhile_sublist (p := (· == quote)) (l := s)).length_le
      rw [List.length_drop]
      omega⟩
  else none

/-- What is left behind a backslash that hides the end of its line and the gap behind it. -/
def foldedLine? (s : List Char) : Option (List Char) :=
  match s.dropWhile isBlank with
  | '\n' :: rest => some (rest.dropWhile isGap)
  | _ => none

theorem length_foldedLine?_le {s rest : List Char} (h : foldedLine? s = some rest) :
    rest.length ≤ s.length := by
  unfold foldedLine? at h
  split at h
  · rename_i t ht
    have h₁ := (List.dropWhile_sublist isBlank (l := s)).length_le
    have h₂ := (List.dropWhile_sublist isGap (l := t)).length_le
    rw [ht, List.length_cons] at h₁
    rw [← Option.some.inj h]
    omega
  · cases h

/-- Reads up to three closing double quotes. -/
def readLongBasic (s : List Char) : Except Error (Front (List Char) s) :=
  match closing? '"' s with
  | some r => .ok r
  | none =>
    match s with
    | '\\' :: rest =>
      match h : foldedLine? rest with
      | some rest' => do
        have _h := length_foldedLine?_le h
        let r ← readLongBasic rest'
        return r.widen (by simp only [List.length_cons]; omega)
      | none => do
        let c ← readEscape rest
        have _h := c.shorter
        let r ← readLongBasic c.rest
        return (r.map (c.value :: ·)).widen (by simp only [List.length_cons]; omega)
    | c :: rest =>
      if isPlain c || c == '\n' then do
        let r ← readLongBasic rest
        return (r.map (c :: ·)).behind
      else .error (.malformed "closing quotes")
    | [] => .error (.malformed "closing quotes")
termination_by s.length

/-- Reads up to three closing single quotes. -/
def readLongLiteral (s : List Char) : Except Error (Front (List Char) s) :=
  match closing? '\'' s with
  | some r => .ok r
  | none =>
    match s with
    | c :: rest =>
      if isPlain c || c == '\n' then do
        let r ← readLongLiteral rest
        return (r.map (c :: ·)).behind
      else .error (.malformed "closing quotes")
    | [] => .error (.malformed "closing quotes")

/-- A text without the line break at its front. -/
def dropBreak : List Char → List Char
  | '\n' :: rest => rest
  | s => s

theorem length_dropBreak_le (s : List Char) : (dropBreak s).length ≤ s.length := by
  unfold dropBreak
  split
  · exact Nat.le_succ _
  · exact Nat.le_refl _

/-- Reads quoted text on one line. -/
def readQuoted (s : List Char) : Except Error (Front String s) :=
  match s with
  | '"' :: rest => do
    let r ← readBasic rest
    return (r.map String.ofList).behind
  | '\'' :: rest => do
    let r ← readLiteral rest
    return (r.map String.ofList).behind
  | _ => .error (.malformed "a quote")

/-- Reads quoted text of either kind. -/
def readText (s : List Char) : Except Error (Front String s) :=
  match s with
  | '"' :: '"' :: '"' :: rest => do
    let r ← readLongBasic (dropBreak rest)
    return (r.map String.ofList).widen (by
      have := length_dropBreak_le rest
      simp only [List.length_cons]
      omega)
  | '\'' :: '\'' :: '\'' :: rest => do
    let r ← readLongLiteral (dropBreak rest)
    return (r.map String.ofList).widen (by
      have := length_dropBreak_le rest
      simp only [List.length_cons]
      omega)
  | s => readQuoted s

end EntityGraph.Toml
