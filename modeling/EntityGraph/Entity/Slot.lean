import EntityGraph.Entity.Literal

/-!
# Slots

A predicate of an entity holds one value or a sequence of values. A single value counts as one
occurrence, and stays distinct from a sequence of length one.

Results:
* `length_toList`: the occurrences counted are the ones listed.
* `toList_map`: mapping a slot maps its values in order.
-/

namespace EntityGraph

/-- The content of a predicate. -/
inductive Slot (α : Type) where
  | one (value : α)
  | many (values : List α)
  deriving DecidableEq

namespace Slot

variable {α β : Type}

instance : Inhabited (Slot α) := ⟨.many []⟩

/-- The values in order. -/
def toList : Slot α → List α
  | .one v => [v]
  | .many vs => vs

/-- The number of occurrences. -/
def count : Slot α → Nat
  | .one _ => 1
  | .many vs => vs.length

/-- The first value. -/
def first? (s : Slot α) : Option α := s.toList.head?

/-- Whether the slot holds `a`. -/
def contains [DecidableEq α] (s : Slot α) (a : α) : Bool := decide (a ∈ s.toList)

/-- Every value replaced by its image. -/
def map (f : α → β) : Slot α → Slot β
  | .one v => .one (f v)
  | .many vs => .many (vs.map f)

/-- Every value replaced by its image, unless one of them, the first in order, fails. -/
def mapE {ε : Type} (f : α → Except ε β) : Slot α → Except ε (Slot β)
  | .one v => (f v).map .one
  | .many vs => (vs.mapM f).map .many

/-- Appends a value; what held one value or a sequence then holds a sequence. -/
def append (s : Slot α) (a : α) : Slot α := .many (s.toList ++ [a])

/-- The JSON value of a slot: that of its one value, or an array. -/
def toJson (f : α → Json) : Slot α → Json
  | .one v => f v
  | .many vs => .array (vs.map f)

/-- The slot that a JSON value writes. -/
def ofJson? (f : Json → Option α) : Json → Option (Slot α)
  | .array items => (items.mapM f).map .many
  | v => (f v).map .one

@[simp] theorem length_toList (s : Slot α) : s.toList.length = s.count := by
  cases s <;> rfl

@[simp] theorem toList_map (f : α → β) (s : Slot α) : (s.map f).toList = s.toList.map f := by
  cases s <;> rfl

end Slot

end EntityGraph
