import EntityGraph.Entity.Collection

/-!
# Occurrence bounds

How often a predicate may occur. A declared upper bound of `-1` stands for no bound.

Results:
* `admits_iff`: a count is admitted exactly between the bounds.
* `ofDeclared_eq_ok_iff`: which declared bounds make which bounds.
* `ofDeclared_ok_iff`: which declared bounds are bounds.
-/

namespace EntityGraph

/-- Why a schema cannot be built, or a question about it not be answered. -/
inductive SchemaError where
  | unknownClass (id : String)
  /-- A class names a parent that the schema does not define. -/
  | missingParent (id : String)
  | cyclicHierarchy (id : String)
  | missingAttribute (constraint field : String)
  | invalidCardinality (constraint : String) (min max : Int)
  | entity (error : EntityError)
  deriving DecidableEq, Repr

/-- The text of an error. -/
def SchemaError.message : SchemaError → String
  | .unknownClass id => "Unknown entity class: " ++ id
  | .missingParent id => "Missing parent class: " ++ id
  | .cyclicHierarchy id => "Cyclic class hierarchy involving: " ++ id
  | .missingAttribute constraint field =>
    "Constraint " ++ constraint ++ " is missing required attribute " ++ field
  | .invalidCardinality constraint min max =>
    "Constraint " ++ constraint ++ " has invalid cardinality (min " ++ toString min ++ ", max " ++
      toString max ++ ")"
  | .entity error => error.message

/-- A least number of occurrences and, unless there is no bound, a greatest. -/
structure Cardinality where
  min : Nat := 0
  max : Option Nat := none
  deriving DecidableEq, Repr, Inhabited

namespace Cardinality

/-- Any number of occurrences. -/
def any : Cardinality := {}

/-- Whether a count is below the lower bound. -/
def isBelow (c : Cardinality) (count : Nat) : Bool := count < c.min

/-- Whether a count is above the upper bound. -/
def isAbove (c : Cardinality) (count : Nat) : Bool := c.max.any (· < count)

/-- Whether a count lies between the bounds. -/
def admits (c : Cardinality) (count : Nat) : Bool := !c.isBelow count && !c.isAbove count

/-- The bounds that a constraint declares. Absent ones are `0` and no bound. -/
def ofDeclared (constraint : String) (min max : Option Int) : Except SchemaError Cardinality :=
  let low := min.getD 0
  let high := max.getD (-1)
  if low < 0 then .error (.invalidCardinality constraint low high)
  else if high = -1 then .ok ⟨low.toNat, none⟩
  else if low ≤ high then .ok ⟨low.toNat, some high.toNat⟩
  else .error (.invalidCardinality constraint low high)

/-- The bounds as they are shown. -/
def display (c : Cardinality) : String :=
  "[" ++ toString c.min ++ ".." ++ (match c.max with | some n => toString n | none => "*") ++ "]"

/-- A count is admitted exactly between the bounds. -/
theorem admits_iff {c : Cardinality} {n : Nat} :
    c.admits n = true ↔ c.min ≤ n ∧ ∀ m ∈ c.max, n ≤ m := by
  cases h : c.max <;> simp [admits, isBelow, isAbove, h]

/-- The upper bound as it is declared. -/
def upper (c : Cardinality) : Int := c.max.elim (-1) fun n => (n : Int)

theorem upper_eq_neg_one_iff {c : Cardinality} : c.upper = -1 ↔ c.max = none := by
  unfold upper
  cases c.max with
  | none => exact iff_of_true rfl rfl
  | some n => simp only [Option.elim_some, reduceCtorEq]

/-- A count is admitted exactly between the bounds as they are declared. -/
theorem admits_iff_upper {c : Cardinality} {n : Nat} :
    c.admits n = true ↔ (c.min : Int) ≤ n ∧ (c.upper = -1 ∨ (n : Int) ≤ c.upper) := by
  rw [admits_iff, upper_eq_neg_one_iff]
  unfold upper
  cases c.max <;> simp

/-- **Which declared bounds make which bounds.** -/
theorem ofDeclared_eq_ok_iff {constraint : String} {min max : Option Int} {c : Cardinality} :
    ofDeclared constraint min max = .ok c ↔
      min.getD 0 = c.min ∧ max.getD (-1) = c.upper ∧ ∀ m ∈ c.max, c.min ≤ m := by
  obtain ⟨least, greatest⟩ := c
  unfold ofDeclared upper
  generalize min.getD 0 = low
  generalize max.getD (-1) = high
  simp only
  by_cases hlow : low < 0
  · rw [if_pos hlow]
    refine iff_of_false (fun h => nomatch h) fun h => ?_
    omega
  · rw [if_neg hlow]
    by_cases hnone : high = -1
    · rw [if_pos hnone, Except.ok.injEq, mk.injEq]
      cases greatest with
      | none => simp; omega
      | some m => simp; omega
    · rw [if_neg hnone]
      by_cases hle : low ≤ high
      · rw [if_pos hle, Except.ok.injEq, mk.injEq]
        cases greatest with
        | none => simp; omega
        | some m => simp; omega
      · rw [if_neg hle]
        refine iff_of_false (fun h => nomatch h) fun h => ?_
        cases greatest with
        | none => simp at h; omega
        | some m => simp at h; omega

/-- Declared bounds are bounds exactly if the lower is not negative and the upper is `-1` or not
below it. -/
theorem ofDeclared_ok_iff {constraint : String} {min max : Option Int} :
    (∃ c, ofDeclared constraint min max = .ok c) ↔
      0 ≤ min.getD 0 ∧ (max.getD (-1) = -1 ∨ min.getD 0 ≤ max.getD (-1)) := by
  unfold ofDeclared
  simp only
  split
  · rename_i h
    simp only [reduceCtorEq, exists_false, false_iff, not_and]
    omega
  · split
    · rename_i h h'
      simp only [Except.ok.injEq, exists_eq', h', true_or, and_true, true_iff]
      omega
    · split
      · rename_i h h' h''
        simp only [Except.ok.injEq, exists_eq', h'', or_true, and_true, true_iff]
        omega
      · rename_i h h' h''
        simp only [reduceCtorEq, exists_false, h', h'', or_self, and_false]

end Cardinality

end EntityGraph
