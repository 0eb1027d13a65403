import EntityGraph.Proofs.Outcome
import EntityGraph.Schema.Builder

/-!
# Bounds as they are declared

A constraint declares its bounds as literals of its entity, and a document may hold any literal
there. What is no integer is taken for a bound that was not declared, and a whole number beyond 64
bits for the nearest integer of 64 bits; neither is reported. Everything else is heeded: integers,
and whole numbers in floating point, are the bounds that a count is held against, or an error if
they do not fit together.

Results:
* `Constraint.heeds_iff`: bounds are the declared ones exactly if these are integers of 64 bits.
* `Constraint.Heeds.admits_iff`: which counts are then admitted.
* `Constraint.boundsOf_heeded_iff`: when no declared bound is passed over.
-/

namespace EntityGraph

/-! ## Literals that stand for integers -/

namespace Literal

/-- The integer that a literal stands for, also beyond 64 bits. -/
def integer? : Literal → Option Int
  | .int i => some i
  | .float x => x.toInt?
  | _ => none

/-- The literal stands for an integer of 64 bits. -/
def Integral : Literal → Prop
  | .int _ => True
  | .float x => ∃ i ∈ x.toInt?, minInt ≤ i ∧ i ≤ maxInt
  | _ => False

/-- An integer of 64 bits is read as it is. -/
theorem Integral.exists_int? {v : Literal} (h : v.Integral) :
    ∃ i, v.integer? = some i ∧ v.int? = some i := by
  cases v with
  | int i => exact ⟨i, rfl, rfl⟩
  | float x =>
    obtain ⟨i, hi, hlow, hhigh⟩ := h
    refine ⟨i, hi, ?_⟩
    rw [int?, Option.mem_def.mp hi, Option.map_some, Int.min_eq_right hhigh, Int.max_eq_right hlow]
  | null => exact h.elim
  | bool b => exact h.elim
  | string s => exact h.elim

/-- The integer used in place of a literal is the one that it stands for exactly if the literal is
an integer of 64 bits, whatever stands in for a literal that is none. -/
theorem integer?_eq_some_iff {v : Literal} {default i : Int} (h : v.int?.getD default = i) :
    v.integer? = some i ↔ v.Integral := by
  constructor
  · intro hi
    cases v with
    | int j => trivial
    | float x =>
      have hx : x.toInt? = some i := hi
      rw [int?, hx, Option.map_some, Option.getD_some] at h
      refine ⟨i, hx, ?_⟩
      unfold minInt maxInt at h ⊢
      omega
    | null => cases hi
    | bool b => cases hi
    | string s => cases hi
  · intro hv
    obtain ⟨j, hj, hread⟩ := hv.exists_int?
    rw [hread, Option.getD_some] at h
    rw [hj, h]

end Literal

/-! ## Declared literals -/

namespace Constraint

/-- The literal declared at a predicate: the first one, unless it stands for a missing value. -/
def declared? (c : Constraint) (predicate : String) : Option Literal :=
  (c.entity.firstProperty? predicate).filter fun v => !v.isNull

theorem firstInt?_eq (c : Constraint) (predicate : String) :
    c.entity.firstInt? predicate = (c.declared? predicate).bind Literal.int? := by
  unfold Entity.firstInt? declared?
  cases c.entity.firstProperty? predicate with
  | none => rfl
  | some v => cases v <;> rfl

/-- What is declared at a predicate, if anything is, is an integer of 64 bits. -/
def IntegralAt (c : Constraint) (predicate : String) : Prop :=
  ∀ v ∈ c.declared? predicate, v.Integral

/-- The integer declared at a predicate, or what stands for none. -/
def integerAt (c : Constraint) (predicate : String) (default : Int) : Int :=
  ((c.declared? predicate).bind Literal.integer?).getD default

/-- The bounds are exactly the declared integers, `-1` for no upper bound. Where nothing is declared
there is no bound. -/
structure Heeds (c : Constraint) (min max : String) (b : Cardinality) : Prop where
  least : ∀ v ∈ c.declared? min, v.integer? = some (b.min : Int)
  greatest : ∀ v ∈ c.declared? max, v.integer? = some b.upper
  noLeast : c.declared? min = none → b.min = 0
  noGreatest : c.declared? max = none → b.max = none

section

variable {c : Constraint} {min max : String}

/-- What is read at a predicate is what is declared there exactly if this is an integer of 64
bits. -/
theorem forall_integer?_iff {predicate : String} {default i : Int}
    (h : (c.entity.firstInt? predicate).getD default = i) :
    (∀ v ∈ c.declared? predicate, v.integer? = some i) ↔ c.IntegralAt predicate := by
  rw [firstInt?_eq] at h
  refine forall₂_congr fun v hv => ?_
  rw [Option.mem_def.mp hv] at h
  exact Literal.integer?_eq_some_iff h

/-- **Bounds are the declared ones exactly if these are integers of 64 bits.** -/
theorem heeds_iff {b : Cardinality} (h : c.bounds min max = .ok b) :
    c.Heeds min max b ↔ c.IntegralAt min ∧ c.IntegralAt max := by
  obtain ⟨hmin, hmax, -⟩ := Cardinality.ofDeclared_eq_ok_iff.mp h
  rw [← forall_integer?_iff hmin, ← forall_integer?_iff hmax]
  constructor
  · exact fun h => ⟨h.least, h.greatest⟩
  · rintro ⟨hleast, hgreatest⟩
    refine ⟨hleast, hgreatest, fun hnone => ?_, fun hnone => ?_⟩
    · rw [firstInt?_eq, hnone] at hmin
      exact (Int.natCast_eq_zero.mp hmin.symm)
    · rw [firstInt?_eq, hnone] at hmax
      exact Cardinality.upper_eq_neg_one_iff.mp hmax.symm

theorem Heeds.integerAt_eq {b : Cardinality} (h : c.Heeds min max b) :
    c.integerAt min 0 = b.min ∧ c.integerAt max (-1) = b.upper := by
  unfold integerAt
  constructor
  · cases hv : c.declared? min with
    | none => rw [h.noLeast hv]; rfl
    | some v => rw [Option.bind_some, h.least v hv, Option.getD_some]
  · cases hv : c.declared? max with
    | none => rw [Cardinality.upper_eq_neg_one_iff.mpr (h.noGreatest hv)]; rfl
    | some v => rw [Option.bind_some, h.greatest v hv, Option.getD_some]

/-- **Bounds that are the declared ones admit the counts between them.** -/
theorem Heeds.admits_iff {b : Cardinality} (h : c.Heeds min max b) (n : Nat) :
    b.admits n = true ↔ c.integerAt min 0 ≤ n ∧
      (c.integerAt max (-1) = -1 ∨ (n : Int) ≤ c.integerAt max (-1)) := by
  obtain ⟨hmin, hmax⟩ := h.integerAt_eq
  rw [hmin, hmax]
  exact Cardinality.admits_iff_upper

theorem IntegralAt.firstInt?_getD {predicate : String} (h : c.IntegralAt predicate)
    (default : Int) :
    (c.entity.firstInt? predicate).getD default = c.integerAt predicate default := by
  unfold integerAt
  rw [firstInt?_eq]
  cases hv : c.declared? predicate with
  | none => rfl
  | some v =>
    obtain ⟨i, hi, hread⟩ := (h v hv).exists_int?
    rw [Option.bind_some, Option.bind_some, hi, hread]

end

/-! ## The two sides of a constraint -/

/-- The counts that a constraint bounds. -/
inductive Side where
  /-- The occurrences of the predicate. -/
  | occurrences
  /-- The entities that refer. -/
  | referrers

/-- The predicate of the lower bound. -/
def Side.min : Side → String
  | occurrences => Vocabulary.minCard
  | referrers => Vocabulary.inverseMinCard

/-- The predicate of the upper bound. -/
def Side.max : Side → String
  | occurrences => Vocabulary.maxCard
  | referrers => Vocabulary.inverseMaxCard

/-- The bounds on one side. -/
def boundsOf (c : Constraint) : Side → Except SchemaError Cardinality
  | .occurrences => c.cardinality
  | .referrers => c.inverseCardinality

theorem boundsOf_eq (c : Constraint) (side : Side) :
    c.boundsOf side = c.bounds side.min side.max := by
  cases side <;> rfl

/-- **When no declared bound is passed over.** The bounds on a side of a constraint are the declared
integers whenever they can be read at all, exactly if they can never be read or nothing but integers
of 64 bits is declared. And where nothing else is declared, they can be read exactly if they fit
together, and admit exactly the counts between them. -/
theorem boundsOf_heeded_iff (c : Constraint) (side : Side) :
    ((∀ b, c.boundsOf side = .ok b → c.Heeds side.min side.max b) ↔
      (∃ err, c.boundsOf side = .error err) ∨ c.IntegralAt side.min ∧ c.IntegralAt side.max) ∧
    (c.IntegralAt side.min ∧ c.IntegralAt side.max →
      ((∃ b, c.boundsOf side = .ok b) ↔ 0 ≤ c.integerAt side.min 0 ∧
        (c.integerAt side.max (-1) = -1 ∨
          c.integerAt side.min 0 ≤ c.integerAt side.max (-1))) ∧
      ∀ b, c.boundsOf side = .ok b → ∀ n : Nat, b.admits n = true ↔
        c.integerAt side.min 0 ≤ n ∧
          (c.integerAt side.max (-1) = -1 ∨ (n : Int) ≤ c.integerAt side.max (-1))) := by
  rw [boundsOf_eq]
  refine ⟨?_, fun hintegral => ⟨?_, fun b hb n => ?_⟩⟩
  · cases hbounds : c.bounds side.min side.max with
    | error err => exact iff_of_true (fun _ h => nomatch h) (Or.inl ⟨err, rfl⟩)
    | ok b =>
      have hheeds := heeds_iff hbounds
      constructor
      · exact fun h => Or.inr (hheeds.mp (h b rfl))
      · rintro (⟨err, herr⟩ | hintegral) b' hb'
        · cases herr
        · rw [← Except.ok.inj hb']
          exact hheeds.mpr hintegral
  · unfold bounds
    rw [Cardinality.ofDeclared_ok_iff, hintegral.1.firstInt?_getD, hintegral.2.firstInt?_getD]
  · exact ((heeds_iff hb).mpr hintegral).admits_iff n

/-- The rule that a person has a name, its bound written as a text. -/
def quotedBound : Collection :=
  let (draft, _) := SchemaBuilder.empty.startConstraint .property "urn:Person"
  { namespaces := .standard
    entities := [(draft.setName Vocabulary.propertyClass "urn:name").entity.setProperty
      Vocabulary.minCard (.one (.string "1"))] }

/-- Not every declared bound is heeded: a bound written as a text is passed over, and any number of
occurrences will do. -/
theorem not_forall_boundsOf_heeded :
    ¬ ∀ (col : Collection) (c : Constraint) (side : Side) (b : Cardinality),
      c ∈ (Schema.ofCollection col).constraints → c.kind = .property ∨ c.kind = .reference →
      c.boundsOf side = .ok b → c.Heeds side.min side.max b := by
  intro h
  have hquoted : ∃ c ∈ (Schema.ofCollection quotedBound).constraints, c.kind = .property ∧
      c.declared? Vocabulary.minCard = some (.string "1") ∧
      c.cardinality.toOption = some .any := by
    decide +kernel
  obtain ⟨c, hc, hkind, hdeclared, hany⟩ := hquoted
  have hheeds := h quotedBound c .occurrences .any hc (Or.inl hkind) (eq_ok_of_mem_toOption hany)
  cases hheeds.least _ hdeclared

end Constraint

end EntityGraph
