import EntityGraph.OrderedMap

/-!
# Indexes

An index assigns to each key an ordered set of names. A key whose set becomes empty leaves the
index.

Results:
* `mem_names_add`, `mem_names_drop`: the names of a key after the two operations.
-/

namespace EntityGraph

/-- Names listed under keys, each list in order of insertion. -/
structure Index (κ : Type) where
  table : OrderedMap κ (OrderedSet String) := ∅

namespace Index

variable {κ : Type}

instance : EmptyCollection (Index κ) := ⟨⟨∅⟩⟩

instance : Inhabited (Index κ) := ⟨∅⟩

variable [DecidableEq κ]

/-- The names listed under a key. -/
def names (idx : Index κ) (k : κ) : List String := (idx.table.get? k).elim [] OrderedSet.toList

/-- Lists a name under a key, at the end unless it is listed already. -/
def add (idx : Index κ) (k : κ) (name : String) : Index κ :=
  ⟨idx.table.insert k (((idx.table.get? k).getD ∅).insert name)⟩

/-- Takes a name from the list of a key. -/
def drop (idx : Index κ) (k : κ) (name : String) : Index κ :=
  match idx.table.get? k with
  | none => idx
  | some set =>
    let set := set.erase name
    ⟨if set.isEmpty then idx.table.erase k else idx.table.insert k set⟩

@[simp] theorem names_empty (k : κ) : (∅ : Index κ).names k = [] := rfl

/-- The names of a key after a listing. -/
theorem mem_names_add {idx : Index κ} {k j : κ} {name n : String} :
    n ∈ (idx.add k name).names j ↔ (j = k ∧ n = name) ∨ n ∈ idx.names j := by
  unfold names add
  simp only [OrderedMap.get?_insert]
  by_cases h : k = j
  · subst h
    cases h' : idx.table.get? k with
    | none =>
      simpa using @OrderedSet.mem_toList_insert String _ ∅ name n
    | some set =>
      simpa using @OrderedSet.mem_toList_insert String _ set name n
  · simp [h, Ne.symm h]

/-- The names of a key after a removal. -/
theorem mem_names_drop {idx : Index κ} {k j : κ} {name n : String} :
    n ∈ (idx.drop k name).names j ↔ n ∈ idx.names j ∧ ¬ (j = k ∧ n = name) := by
  unfold names drop
  cases h' : idx.table.get? k with
  | none =>
    by_cases h : j = k
    · subst h; simp [h']
    · simp [h]
  | some set =>
    simp only
    by_cases he : (set.erase name).isEmpty = true
    · rw [if_pos he]
      simp only [OrderedMap.get?_erase]
      by_cases h : k = j
      · subst h
        have hall : ∀ m, m ∈ set.toList → m = name := by
          intro m hm
          by_cases hn : m = name
          · exact hn
          · have : m ∈ (set.erase name).toList := OrderedSet.mem_toList_erase.2 ⟨hm, hn⟩
            simp only [OrderedSet.isEmpty, List.isEmpty_iff] at he
            simp [he] at this
        simp only [if_true, Option.elim_none, List.not_mem_nil, h', Option.elim_some, true_and,
          false_iff, not_and, Decidable.not_not]
        exact hall n
      · simp [h, Ne.symm h]
    · rw [if_neg he]
      simp only [OrderedMap.get?_insert]
      by_cases h : k = j
      · subst h
        simpa [h'] using @OrderedSet.mem_toList_erase String _ set name n
      · simp [h, Ne.symm h]

end Index

end EntityGraph
