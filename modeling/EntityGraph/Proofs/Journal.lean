import EntityGraph.Proofs.Reachable
import Mathlib.Data.List.Induction

/-!
# Journals of a store

A journal lists operations in the order in which they were made. What a store holds is described
by the journal alone: a place, which is an identifier in a dataset, is live if the last write about
it left a record, and the live records stand in the order of those writes.

Results:
* `reachable_iff_exists_replay`: the reachable stores are those that journals lead to.
* `live_concat`: a write takes the old record of its place away and adds its own at the end.
* `mem_live_iff`: a record is live exactly if the last write about its place left it.
-/

namespace EntityGraph

/-- The dataset and the identifier that a record stands under. -/
def Record.place (r : Record) : String × String := (r.dataset, r.entity.id)

namespace Store

/-! ## Journals -/

/-- An operation on a store. -/
inductive Operation where
  | create (dataset : String)
  | load (dataset : String) (es : List Entity)
  | put (dataset : String) (e : Entity)
  | remove (dataset id : String)

/-- What an operation makes of a store. -/
def apply (σ : Store) : Operation → Store
  | .create dataset => σ.create dataset
  | .load dataset es => σ.load dataset es
  | .put dataset e => σ.put dataset e
  | .remove dataset id => (σ.remove dataset id).2

/-- The store that a journal leads to. -/
def replay (journal : List Operation) : Store := journal.foldl apply empty

theorem replay_concat (journal : List Operation) (op : Operation) :
    replay (journal ++ [op]) = (replay journal).apply op := by
  unfold replay
  rw [List.foldl_append, List.foldl_cons, List.foldl_nil]

theorem reachable_replay (journal : List Operation) : (replay journal).Reachable := by
  induction journal using List.reverseRecOn with
  | nil => exact .empty
  | append_singleton journal op ih =>
    rw [replay_concat]
    cases op with
    | create dataset => exact ih.create dataset
    | load dataset es => exact ih.load dataset es
    | put dataset e => exact ih.put dataset e
    | remove dataset id => exact ih.remove dataset id

theorem exists_replay_apply {σ : Store} (h : ∃ journal, σ = replay journal) (op : Operation) :
    ∃ journal, σ.apply op = replay journal := by
  obtain ⟨journal, rfl⟩ := h
  exact ⟨journal ++ [op], (replay_concat journal op).symm⟩

/-- **The reachable stores are those that journals lead to.** -/
theorem reachable_iff_exists_replay {σ : Store} :
    σ.Reachable ↔ ∃ journal, σ = replay journal := by
  constructor
  · intro h
    induction h with
    | empty => exact ⟨[], rfl⟩
    | create _ dataset ih => exact exists_replay_apply ih (.create dataset)
    | load _ dataset es ih => exact exists_replay_apply ih (.load dataset es)
    | put _ dataset e ih => exact exists_replay_apply ih (.put dataset e)
    | remove _ dataset id ih => exact exists_replay_apply ih (.remove dataset id)
  · rintro ⟨journal, rfl⟩
    exact reachable_replay journal

/-! ## Writes and the records they leave -/

/-- A write about one place. -/
inductive Write where
  | put (dataset : String) (e : Entity)
  | remove (dataset id : String)

namespace Write

/-- The dataset and the identifier that a write is about. -/
def place : Write → String × String
  | put dataset e => (dataset, e.id)
  | remove dataset id => (dataset, id)

/-- The record that a write leaves. A removal leaves none, and neither does a record that is marked
as deleted. -/
def record? : Write → Option Record
  | put dataset e => if e.deleted then none else some ⟨dataset, e⟩
  | remove _ _ => none

theorem place_of_record? {w : Write} {r : Record} (h : w.record? = some r) : r.place = w.place := by
  cases w with
  | put dataset e =>
    simp only [record?] at h
    split at h
    · cases h
    · rw [← Option.some.inj h]
      rfl
  | remove dataset id => cases h

end Write

/-- The writes of an operation, in order. -/
def Operation.writes : Operation → List Write
  | create _ => []
  | load dataset es => es.map (.put dataset)
  | put dataset e => [.put dataset e]
  | remove dataset id => [.remove dataset id]

/-- The writes of a journal, in order. -/
def writes (journal : List Operation) : List Write := journal.flatMap Operation.writes

/-- The last write about a place. -/
def lastWrite? (ws : List Write) (place : String × String) : Option Write :=
  ws.reverse.find? fun w => decide (w.place = place)

/-- A place is live if the last write about it left a record. -/
def Live (ws : List Write) (dataset id : String) : Prop :=
  ∃ w r, lastWrite? ws (dataset, id) = some w ∧ w.record? = some r

/-- The records of the live places in the order of their last writes: of each write the record it
leaves, unless a later write is about the same place. -/
def live : List Write → List Record
  | [] => []
  | w :: ws => (if w.place ∈ ws.map Write.place then [] else w.record?.toList) ++ live ws

/-- **A write takes the old record of its place away and adds its own at the end.** -/
theorem live_concat (ws : List Write) (w : Write) :
    live (ws ++ [w]) = (live ws).filter (fun r => r.place ≠ w.place) ++ w.record?.toList := by
  induction ws with
  | nil => simp [live]
  | cons v ws ih =>
    rw [List.cons_append, live, live, ih, List.filter_append, List.append_assoc]
    refine congrArg (· ++ _) ?_
    simp only [List.map_append, List.mem_append, List.map_singleton, List.mem_singleton]
    by_cases hlater : v.place ∈ ws.map Write.place
    · rw [if_pos (Or.inl hlater), if_pos hlater]
      rfl
    · rw [if_neg hlater]
      cases hrec : v.record? with
      | none => simp
      | some r =>
        have hplace := Write.place_of_record? hrec
        by_cases hw : v.place = w.place
        · simp [hw, hplace]
        · simp [hlater, hw, hplace]

theorem lastWrite?_concat (ws : List Write) (w : Write) (place : String × String) :
    lastWrite? (ws ++ [w]) place = if w.place = place then some w else lastWrite? ws place := by
  unfold lastWrite?
  rw [List.reverse_append, List.reverse_singleton, List.singleton_append, List.find?_cons]
  by_cases h : w.place = place <;> simp [h]

/-- **A record is live exactly if the last write about its place left it.** -/
theorem mem_live_iff {ws : List Write} {r : Record} :
    r ∈ live ws ↔ ∃ w, lastWrite? ws r.place = some w ∧ w.record? = some r := by
  induction ws using List.reverseRecOn with
  | nil => simp [live, lastWrite?]
  | append_singleton ws w ih =>
    rw [live_concat, List.mem_append, List.mem_filter, ih, lastWrite?_concat,
      Option.mem_toList, decide_eq_true_eq]
    constructor
    · rintro (⟨hlast, hne⟩ | hrec)
      · rw [if_neg (Ne.symm hne)]
        exact hlast
      · rw [if_pos (Write.place_of_record? hrec).symm]
        exact ⟨w, rfl, hrec⟩
    · rintro ⟨w', hlast, hrec⟩
      split at hlast
      · obtain rfl := Option.some.inj hlast
        exact Or.inr hrec
      · rename_i hne
        exact Or.inl ⟨⟨w', hlast, hrec⟩, Ne.symm hne⟩

theorem live_iff {ws : List Write} {dataset id : String} :
    Live ws dataset id ↔ ∃ r ∈ live ws, r.dataset = dataset ∧ r.entity.id = id := by
  constructor
  · rintro ⟨w, r, hlast, hrec⟩
    have hplace : r.place = (dataset, id) := by
      rw [Write.place_of_record? hrec]
      simpa using List.find?_some hlast
    refine ⟨r, mem_live_iff.mpr ⟨w, ?_, hrec⟩, congrArg Prod.fst hplace, congrArg Prod.snd hplace⟩
    rw [hplace]
    exact hlast
  · rintro ⟨r, hr, rfl, rfl⟩
    obtain ⟨w, hlast, hrec⟩ := mem_live_iff.mp hr
    exact ⟨w, r, hlast, hrec⟩

end Store

end EntityGraph
