/-!
# Reading from the front of a text

A reader gives back what it read together with the rest of the text and a proof that the rest is
shorter, and so readers of nested values need no further bound.
-/

namespace EntityGraph.Text

/-- What was read from the front of `s`, and the shorter rest. -/
structure Front (α : Type) (s : List Char) where
  value : α
  rest : List Char
  shorter : rest.length < s.length

/-- A value for the first character of a text. -/
def Front.first {α : Type} {c : Char} {rest : List Char} (value : α) : Front α (c :: rest) :=
  ⟨value, rest, Nat.lt_succ_self _⟩

/-- The same front, of a text that is longer. -/
def Front.widen {α : Type} {s t : List Char} (r : Front α s) (h : s.length ≤ t.length) :
    Front α t :=
  ⟨r.value, r.rest, Nat.lt_of_lt_of_le r.shorter h⟩

/-- The same front, of a text with one more character before it. -/
def Front.behind {α : Type} {c : Char} {s : List Char} (r : Front α s) : Front α (c :: s) :=
  r.widen (Nat.le_succ _)

/-- The front with its value changed. -/
def Front.map {α β : Type} {s : List Char} (f : α → β) (r : Front α s) : Front β s :=
  ⟨f r.value, r.rest, r.shorter⟩

end EntityGraph.Text
