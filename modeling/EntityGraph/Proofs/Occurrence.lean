import EntityGraph.Validation.Occurrence
import Mathlib.Data.List.Nodup

/-!
# Occurrences and declared bounds

What an entity has at a predicate, in any spelling, and what the integers that a constraint
declares say about a count.

Results:
* `count_getSame?`: where no two predicates denote the same, the slot found holds all there is.
* `bounds_cases`: declared bounds are refused exactly if the lower is negative or the upper,
  unless it is `-1`, is below it; otherwise they bound counts as the integers say.
-/

namespace EntityGraph

/-! ## Slots at a predicate -/

/-- The number of values at all predicates that denote the same as one. -/
def OrderedMap.total {α : Type} (ns : Namespaces) (slots : OrderedMap String (Slot α))
    (predicate : String) : Nat :=
  ((slots.toList.filter fun b => ns.same b.1 predicate).flatMap fun b => b.2.toList).length

/-- No two properties of the entity denote the same, and no two references. -/
def Entity.DistinctPredicates (ns : Namespaces) (e : Entity) : Prop :=
  (e.properties.keys.map ns.canonical).Nodup ∧ (e.references.keys.map ns.canonical).Nodup

/-- Where keys are distinct, the elements with a key are the first with it, if there is one. -/
theorem filter_eq_toList_find? {α κ : Type} [DecidableEq κ] {key : α → κ} {l : List α}
    (h : (l.map key).Nodup) (k : κ) :
    (l.filter fun a => decide (key a = k)) = (l.find? fun a => decide (key a = k)).toList := by
  induction l with
  | nil => rfl
  | cons a l ih =>
    rw [List.map_cons, List.nodup_cons] at h
    by_cases ha : key a = k
    · have hnone : l.filter (fun b => decide (key b = k)) = [] := by
        rw [List.filter_eq_nil_iff]
        intro b hb
        have hne : key b ≠ k := fun hk => h.1 (List.mem_map.mpr ⟨b, hb, hk.trans ha.symm⟩)
        simpa using hne
      simp [ha, hnone]
    · simp [ha, ih h.2]

namespace OrderedMap

variable {α : Type} {ns : Namespaces} {slots : OrderedMap String α}

/-- Where no two predicates denote the same, the slots at a predicate are the one found. -/
theorem filter_same_eq (h : (slots.keys.map ns.canonical).Nodup) (predicate : String) :
    ((slots.toList.filter fun b => ns.same b.1 predicate).map Prod.snd) =
      (slots.getSame? ns predicate).toList := by
  have hkeys : (slots.toList.map fun b => ns.canonical b.1).Nodup := by
    unfold keys at h
    rwa [List.map_map] at h
  have hsame : ∀ b : String × α, ns.same b.1 predicate =
      decide (ns.canonical b.1 = ns.canonical predicate) := fun b => by
    rw [Bool.eq_iff_iff, decide_eq_true_eq, Namespaces.same_iff]
  have hfilter := filter_eq_toList_find? hkeys (ns.canonical predicate)
  unfold getSame?
  simp only [hsame, hfilter]
  cases hget : slots.get? predicate with
  | none =>
    rw [Option.none_or]
    cases slots.toList.find? fun b => decide (ns.canonical b.1 = ns.canonical predicate) <;> rfl
  | some v =>
    -- The exact hit is the one element that denotes the predicate.
    have hmem : (predicate, v) ∈ slots.toList.filter
        fun b => decide (ns.canonical b.1 = ns.canonical predicate) := by
      rw [List.mem_filter]
      exact ⟨mem_toList_of_get? hget, by simp⟩
    rw [hfilter] at hmem
    rw [Option.mem_toList.mp hmem, Option.some_or]
    rfl

/-- **The slot found holds all that is at a predicate.** -/
theorem count_getSame? {slots : OrderedMap String (Slot α)}
    (h : (slots.keys.map ns.canonical).Nodup) (predicate : String) :
    ((slots.getSame? ns predicate).map Slot.count).getD 0 = slots.total ns predicate := by
  have hsplit : slots.total ns predicate =
      (((slots.toList.filter fun b => ns.same b.1 predicate).map Prod.snd).flatMap
        Slot.toList).length := by
    rw [List.flatMap_map]
    rfl
  rw [hsplit, filter_same_eq h]
  cases slots.getSame? ns predicate <;> simp

end OrderedMap

theorem Entity.propertyCountAt_eq {ns : Namespaces} {e : Entity} (h : e.DistinctPredicates ns)
    (predicate : String) : e.propertyCountAt ns predicate = e.properties.total ns predicate :=
  OrderedMap.count_getSame? h.1 predicate

theorem Entity.length_targetsAt_eq {ns : Namespaces} {e : Entity} (h : e.DistinctPredicates ns)
    (predicate : String) :
    (e.targetsAt ns predicate).length = e.references.total ns predicate := by
  rw [← OrderedMap.count_getSame? h.2 predicate]
  unfold targetsAt
  cases e.references.getSame? ns predicate <;> simp

/-! ## Declared bounds -/

namespace Constraint

/-- The lower bound declared at a predicate, `0` if there is none. -/
def leastAt (c : Constraint) (predicate : String) : Int := (c.entity.firstInt? predicate).getD 0

/-- The upper bound declared at a predicate, `-1` if there is none. -/
def greatestAt (c : Constraint) (predicate : String) : Int :=
  (c.entity.firstInt? predicate).getD (-1)

/-- The declared bounds are no bounds: the lower is negative, or the upper stands for a number
and is below the lower. -/
def BadBounds (c : Constraint) (min max : String) : Prop :=
  c.leastAt min < 0 ∨ (c.greatestAt max ≠ -1 ∧ c.greatestAt max < c.leastAt min)

/-- **Declared bounds are refused exactly if they are bad**, and otherwise a count is below or
above them as the declared integers say. -/
theorem bounds_cases (c : Constraint) (min max : String) :
    (c.BadBounds min max ∧ ∃ err, c.bounds min max = .error err) ∨
    (¬ c.BadBounds min max ∧ ∃ b, c.bounds min max = .ok b ∧
      (∀ n : Nat, b.isBelow n = decide ((n : Int) < c.leastAt min)) ∧
      ∀ n : Nat, b.isAbove n = decide (c.greatestAt max ≠ -1 ∧ c.greatestAt max < (n : Int))) := by
  unfold BadBounds bounds Cardinality.ofDeclared
  rw [show (c.entity.firstInt? min).getD 0 = c.leastAt min from rfl,
    show (c.entity.firstInt? max).getD (-1) = c.greatestAt max from rfl]
  generalize c.leastAt min = low
  generalize c.greatestAt max = high
  by_cases hlow : low < 0
  · exact Or.inl ⟨Or.inl hlow, _, if_pos hlow⟩
  · rw [if_neg hlow]
    by_cases hnone : high = -1
    · rw [if_pos hnone]
      refine Or.inr ⟨by omega, _, rfl, fun n => ?_, fun n => ?_⟩
      · simp only [Cardinality.isBelow, decide_eq_decide]
        omega
      · simp [Cardinality.isAbove, hnone]
    · rw [if_neg hnone]
      by_cases hle : low ≤ high
      · rw [if_pos hle]
        refine Or.inr ⟨by omega, _, rfl, fun n => ?_, fun n => ?_⟩
        · simp only [Cardinality.isBelow, decide_eq_decide]
          omega
        · simp only [Cardinality.isAbove, Option.any_some, decide_eq_decide]
          omega
      · rw [if_neg hle]
        exact Or.inl ⟨Or.inr ⟨hnone, by omega⟩, _, rfl⟩

end Constraint

end EntityGraph
