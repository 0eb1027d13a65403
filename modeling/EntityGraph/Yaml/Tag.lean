/-!
# Tags of YAML nodes

A tag says what a node stands for. It is a sequence of bytes and not a text, for the escapes in
it may write bytes that are no UTF-8. It holds no zero byte: one that is written ends the tag, and
what stands behind it does not count.
-/

namespace EntityGraph.Yaml

/-- A tag. -/
structure Tag where
  bytes : List UInt8
  zero_notMem : 0 ∉ bytes
  deriving DecidableEq, Repr

namespace Tag

/-- The tag that bytes write, up to the first zero byte. -/
def ofBytes (bytes : List UInt8) : Tag where
  bytes := bytes.takeWhile (· ≠ 0)
  zero_notMem h := by simpa using List.all_eq_true.1 List.all_takeWhile 0 h

/-- The tag that a text writes. -/
def ofString (s : String) : Tag := ofBytes s.toUTF8.data.toList

/-- A tag and the rest of it. -/
def append (t rest : Tag) : Tag where
  bytes := t.bytes ++ rest.bytes
  zero_notMem := by simp [t.zero_notMem, rest.zero_notMem]

instance : Append Tag := ⟨append⟩

/-- Whether there is nothing of a tag. -/
def isEmpty (t : Tag) : Bool := t.bytes.isEmpty

/-- The lone exclamation mark. -/
def lone : Tag := ofString "!"

/-- Whether a tag begins with an exclamation mark; the tags of the language do not. -/
def isLocal (t : Tag) : Bool := t.bytes.head? == some 0x21

/-- The text by which the application knows a tag: what stands behind the leading exclamation
mark, or the lone mark itself. A tag that is no text is none of the application. -/
def application? (t : Tag) : Option String :=
  match t.bytes with
  | [] => none
  | b :: rest =>
    if b = 0x21 then String.fromUTF8? ⟨(if rest.isEmpty then [b] else rest).toArray⟩ else none

end Tag

end EntityGraph.Yaml
