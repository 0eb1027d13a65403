import EntityGraph.Proofs.Outcome
import EntityGraph.Schema.Builder
import Mathlib.Control.Monad.Basic

/-!
# Batches of entities

Validating a batch, in one run or by several workers, gives what validating its entities one by
one gives. In `Except` every look at the signals gives the same answer, and so the cancellation
and the deadline do not change while a batch is validated; rules and provider are functions.

Results:
* `validateParallel_eq`: several workers give what one run gives, for any number of workers.
* `validateEntities_eq_gather`: a run over a batch gives what the runs over its entities give.
* `validateParallel_agrees`: the two together, spelled out as findings and first failure.
-/

namespace EntityGraph.Validator

variable {α : Type} (v : Validator (Except ValidationError)) (s : Schema)

/-- Attempting never fails: the failure becomes the result. -/
theorem attempt_eq_ok (x : Except ValidationError α) : attempt x = .ok x := by
  cases x <;> rfl

theorem lift_id_eq (x : Except ValidationError α) :
    (lift id x : Except ValidationError α) = x := by
  cases x <;> rfl

/-- **A run over a batch that is not empty gives what the runs over its entities give.** -/
theorem validateEntities_eq_gather {es : List Entity} (hes : es ≠ []) :
    v.validateEntities s es = gather (v.validateEntity s) es := by
  cases h : v.start s with
  | error err =>
    obtain ⟨e, rest, rfl⟩ := List.exists_cons_of_ne_nil hes
    rw [validateEntities_of_start_error v s h, gather_cons]
    unfold validateEntity
    rw [validateEntities_of_start_error v s h]
    rfl
  | ok r =>
    rw [gather_congr fun e _ => validateEntity_of_start v s h e]
    unfold validateEntities
    rw [h, ok_bind, checkEntities_eq_gather]

/-- The chunks of the workers are not empty. -/
theorem chunkSize_ne_zero {size workers : Nat} (h : workers = max 1 (min workers (max 1 size)))
    (hw : workers ≠ 1) : (size + workers - 1) / workers ≠ 0 := by
  have hpos : 0 < (size + workers - 1) / workers := Nat.div_pos (by omega) (by omega)
  omega

/-- **Several workers give what one run gives**, whatever their number. All chunks are run, and
the first that fails is the one with the first entity that fails. -/
theorem validateParallel_eq (es : List Entity) (workers : Nat) :
    v.validateParallel s es workers = v.validateEntities s es := by
  unfold validateParallel
  set w := max 1 (min workers (max 1 es.length)) with hw
  by_cases h1 : w = 1
  · simp only [h1, if_true]
  · have hsize : (es.length + w - 1) / w ≠ 0 := chunkSize_ne_zero (by omega) h1
    simp only [h1, if_false]
    cases hr : v.start s with
    | error err => rw [validateEntities_of_start_error v s hr, error_bind]
    | ok r =>
      have hattempt : (fun part => attempt (r.checkEntities part)) =
          fun part => pure (r.checkEntities part) := by
        funext part
        exact attempt_eq_ok _
      have hlift : (lift id : Except ValidationError (List Violation) → _) = id := by
        funext x
        exact lift_id_eq x
      rw [ok_bind, hattempt, List.mapM_pure, pure_eq_ok, ok_bind, hlift, gather_map]
      unfold validateEntities
      rw [hr, ok_bind, checkEntities_eq_gather]
      calc gather (fun part => id (r.checkEntities part)) (chunks ((es.length + w - 1) / w) es)
          = gather (gather (step r)) (chunks ((es.length + w - 1) / w) es) := rfl
        _ = gather (step r) (chunks ((es.length + w - 1) / w) es).flatten := gather_flatten _ _
        _ = gather (step r) es := by rw [flatten_chunks hsize]

/-- **Validating in parallel, in one run, and one by one agree.** A batch that is not empty gives
the findings of its entities joined in order if none of them fails, and otherwise the error of the
first that fails. On the empty batch the parallel and the single run agree as well. -/
theorem validateParallel_agrees (es : List Entity) (workers : Nat) :
    v.validateParallel s es workers = v.validateEntities s es ∧
    (es ≠ [] →
      v.validateEntities s es = gather (v.validateEntity s) es ∧
      (∀ found : Entity → List Violation, (∀ e ∈ es, v.validateEntity s e = .ok (found e)) →
        v.validateParallel s es workers = .ok (es.flatMap found) ∧
        v.validateEntities s es = .ok (es.flatMap found)) ∧
      ((∃ e ∈ es, ∃ err, v.validateEntity s e = .error err) →
        ∃ before e after err, es = before ++ e :: after ∧
          (∀ a ∈ before, ∃ vs, v.validateEntity s a = .ok vs) ∧
          v.validateEntity s e = .error err ∧
          v.validateParallel s es workers = .error err ∧
          v.validateEntities s es = .error err)) := by
  refine ⟨validateParallel_eq v s es workers, fun hes => ?_⟩
  have hseq := validateEntities_eq_gather v s hes
  refine ⟨hseq, fun found hfound => ?_, fun hfail => ?_⟩
  · have hok := hseq.trans (gather_of_forall_ok hfound)
    exact ⟨(validateParallel_eq v s es workers).trans hok, hok⟩
  · obtain ⟨err, herr⟩ := exists_gather_eq_error_iff.mpr hfail
    obtain ⟨before, e, after, hsplit, hbefore, he⟩ := gather_eq_error_iff.mp herr
    have hseq' := hseq.trans herr
    exact ⟨before, e, after, err, hsplit, hbefore, he,
      (validateParallel_eq v s es workers).trans hseq', hseq'⟩

/-- Every `urn:Person` has a name; what a `urn:Robot` has, the second constraint fails to say. -/
def namedPersons : Schema :=
  let (named, b) := SchemaBuilder.empty.startConstraint .property "urn:Person"
  let (broken, _) := b.startConstraint .property "urn:Robot"
  .ofCollection ⟨.standard, none,
    [((named.setName Vocabulary.propertyClass "urn:name").setBound Vocabulary.minCard 1).entity,
      broken.entity], ∅⟩

/-- A nameless person before two robots. -/
def party : List Entity :=
  [.ofType "urn:anna" "urn:Person", .ofType "urn:r2" "urn:Robot", .ofType "urn:c3" "urn:Robot"]

/-- Two workers take the person with one robot, and the other robot. Both chunks fail, and the
robot of the first decides. -/
theorem validateParallel_agrees_party :
    party ≠ [] ∧
    (∃ e ∈ party, ∃ err, plain.validateEntity namedPersons e = .error err) ∧
    ∃ before e after err, party = before ++ e :: after ∧
      (∀ a ∈ before, ∃ vs, plain.validateEntity namedPersons a = .ok vs) ∧
      plain.validateEntity namedPersons e = .error err ∧
      plain.validateParallel namedPersons party 2 = .error err ∧
      plain.validateEntities namedPersons party = .error err := by
  have hne : party ≠ [] := List.cons_ne_nil _ _
  have hfail : ∃ e ∈ party, ∃ err, plain.validateEntity namedPersons e = .error err :=
    ⟨.ofType "urn:r2" "urn:Robot", by decide,
      .schema (.missingAttribute "urn:Robot-constraint-1" "propertyClass"), by decide +kernel⟩
  exact ⟨hne, hfail, ((validateParallel_agrees plain namedPersons party 2).2 hne).2.2 hfail⟩

end EntityGraph.Validator
