import EntityGraph.Schema.Basic
import EntityGraph.Schema.Builder
import Mathlib.Data.List.Nodup

/-!
# The ascent from a class

From a class the hierarchy ascends to the first declared parent, found by a look-up, and from
there again. The parents form any graph, and so an ascent ends at a class that declares no parent,
ends at a class whose first parent is not defined, or comes back to a class it has passed and
never ends.

The classes are those that look-ups find, in a schema of any collection: identifiers may be
written short, and of two classes with one canonical form the last is found.

Results:
* `consistent_ofCollection`: of the classes with one canonical identifier, look-ups find one only.
* `Climbs.eq_of_length`, `Climbs.length_le`: an ascent has one course, and none is longer than
  one that has ended.
* `ends_ancestorsFrom`: what the walk returns says how the ascent from its start ends.
* `hierarchy_classifies_ascent`: the hierarchy of an identifier, by the ascent from its class.
-/

namespace EntityGraph

/-! ## The first declared parent -/

/-- The first element of a slot begins its elements. -/
theorem Slot.first?_eq_head? {α : Type} (s : Slot α) : s.first? = s.toList.head? := by
  cases s <;> rfl

/-- The parent that the hierarchy follows is the first of the declared ones. -/
theorem EntityClass.parent?_eq_head? (cls : EntityClass) : cls.parent? = cls.parents.head? := by
  unfold parent? parents Entity.firstReference? Entity.referenceValues
  cases cls.entity.reference? Vocabulary.subClassOf with
  | none => rfl
  | some slot => exact slot.first?_eq_head?

namespace Schema

variable {s : Schema}

/-! ## Classes that look-ups find -/

/-- The canonical identifier of a class finds the class itself. -/
def Finds (s : Schema) (cls : EntityClass) : Prop :=
  s.classTable.get? (s.namespaces.canonical cls.id) = some cls

/-- Every look-up finds a class that the canonical identifier of the class finds as well. -/
def Consistent (s : Schema) : Prop :=
  ∀ id cls, s.entityClass? id = some cls → s.Finds cls

/-- The table of the classes has each class at its canonical identifier. -/
theorem canonical_id_of_classTable {c : Collection} {k : String} {cls : EntityClass}
    (h : (ofCollection c).classTable.get? k = some cls) : c.namespaces.canonical cls.id = k := by
  rw [show (ofCollection c).classTable =
      .indexLast (fun cls => c.namespaces.canonical cls.id) (ofCollection c).classes from rfl,
    OrderedMap.get?_indexLast] at h
  have hcanon := List.find?_some h
  rwa [decide_eq_true_eq] at hcanon

/-- **The schema of a collection is consistent**, however its identifiers and those of the look-ups
are written. -/
theorem consistent_ofCollection (c : Collection) : (ofCollection c).Consistent := by
  have hfinds : ∀ {k : String} {cls : EntityClass},
      (ofCollection c).classTable.get? k = some cls → (ofCollection c).Finds cls := by
    intro k cls hk
    have hk' := hk
    rwa [← canonical_id_of_classTable hk] at hk'
  intro id cls h
  rcases Option.or_eq_some_iff.mp h with hraw | ⟨-, hcanon⟩
  · exact hfinds hraw
  · exact hfinds hcanon

/-- Of the classes with one canonical identifier, look-ups find one only. -/
theorem Finds.eq_iff {cls cls' : EntityClass} (h : s.Finds cls) (h' : s.Finds cls') :
    s.namespaces.canonical cls.id = s.namespaces.canonical cls'.id ↔ cls = cls' := by
  refine ⟨fun heq => ?_, fun heq => heq ▸ rfl⟩
  unfold Finds at h h'
  rw [heq, h'] at h
  exact (Option.some.inj h).symm

/-! ## Ascents -/

/-- The ascent from a class passes the classes listed, nearest first, and is then at the last of
them: at each step it takes the first declared parent. -/
inductive Climbs (s : Schema) : EntityClass → List EntityClass → EntityClass → Prop
  | stay (cls : EntityClass) : Climbs s cls [] cls
  | step {cls parent top : EntityClass} {above : List EntityClass} {p : String}
      (hp : cls.parents.head? = some p) (hparent : s.entityClass? p = some parent)
      (h : Climbs s parent above top) : Climbs s cls (parent :: above) top

/-- The ascent does not go on above the class. -/
def Ended (s : Schema) (top : EntityClass) : Prop :=
  ∀ p, top.parents.head? = some p → s.entityClass? p = none

theorem ended_of_root {top : EntityClass} (h : top.parents = []) : s.Ended top := fun p hp => by
  rw [h] at hp
  cases hp

theorem ended_of_missing {top : EntityClass} {p : String} (hp : top.parents.head? = some p)
    (hnone : s.entityClass? p = none) : s.Ended top := fun p' hp' => by
  rwa [← Option.some.inj (hp.symm.trans hp')]

/-- The ascent from a class can always be continued. -/
def Endless (s : Schema) (cls : EntityClass) : Prop :=
  ∀ n, ∃ above top, s.Climbs cls above top ∧ above.length = n

namespace Climbs

variable {cls mid top : EntityClass} {as bs : List EntityClass}

theorem append (h : s.Climbs cls as mid) (h' : s.Climbs mid bs top) :
    s.Climbs cls (as ++ bs) top := by
  induction h with
  | stay _ => exact h'
  | step hp hparent _ ih => exact .step hp hparent (ih h')

/-- One more step at the end. -/
theorem snoc {parent : EntityClass} {p : String} (h : s.Climbs cls as top)
    (hp : top.parents.head? = some p) (hparent : s.entityClass? p = some parent) :
    s.Climbs cls (as ++ [parent]) parent :=
  h.append (.step hp hparent (.stay parent))

/-- The ascent passes through each class it has listed, itself included. -/
theorem exists_of_mem {a : EntityClass} (h : s.Climbs cls as top) (ha : a ∈ cls :: as) :
    ∃ before after, s.Climbs cls before a ∧ s.Climbs a after top := by
  induction h with
  | stay cls =>
    obtain rfl := List.mem_singleton.mp ha
    exact ⟨[], [], .stay a, .stay a⟩
  | @step cls parent top above p hp hparent h ih =>
    rcases List.mem_cons.mp ha with rfl | ha
    · exact ⟨[], parent :: above, .stay a, .step hp hparent h⟩
    · obtain ⟨before, after, hbefore, hafter⟩ := ih ha
      exact ⟨parent :: before, after, .step hp hparent hbefore, hafter⟩

/-- The ascent passes through a class after each number of steps up to its own. -/
theorem exists_of_le {n : Nat} (h : s.Climbs cls as top) (hn : n ≤ as.length) :
    ∃ before mid, s.Climbs cls before mid ∧ before.length = n := by
  induction h generalizing n with
  | stay cls => exact ⟨[], cls, .stay cls, (Nat.le_zero.mp hn).symm⟩
  | @step cls parent top above p hp hparent h ih =>
    cases n with
    | zero => exact ⟨[], cls, .stay cls, rfl⟩
    | succ n =>
      obtain ⟨before, mid, hbefore, hlen⟩ := ih (Nat.le_of_succ_le_succ hn)
      exact ⟨parent :: before, mid, .step hp hparent hbefore, congrArg (· + 1) hlen⟩

/-- **An ascent has one course**: after as many steps it has passed the same classes. -/
theorem eq_of_length {top' : EntityClass} (h : s.Climbs cls as top) (h' : s.Climbs cls bs top')
    (hlen : as.length = bs.length) : as = bs ∧ top = top' := by
  induction h generalizing bs with
  | stay _ =>
    cases h' with
    | stay _ => exact ⟨rfl, rfl⟩
    | step _ _ _ => cases hlen
  | step hp hparent _ ih =>
    cases h' with
    | stay _ => cases hlen
    | step hp' hparent' h' =>
      rw [hp] at hp'
      obtain rfl := Option.some.inj hp'
      rw [hparent] at hparent'
      obtain rfl := Option.some.inj hparent'
      obtain ⟨rfl, rfl⟩ := ih h' (Nat.succ.inj hlen)
      exact ⟨rfl, rfl⟩

/-- No ascent is longer than one that has ended. -/
theorem length_le {top' : EntityClass} (h : s.Climbs cls as top) (h' : s.Climbs cls bs top')
    (hend : s.Ended top) : bs.length ≤ as.length := by
  induction h generalizing bs with
  | stay cls =>
    cases h' with
    | stay _ => exact Nat.le_refl _
    | step hp hparent _ => rw [hend _ hp] at hparent; cases hparent
  | step hp hparent _ ih =>
    cases h' with
    | stay _ => exact Nat.zero_le _
    | step hp' hparent' h' =>
      rw [hp] at hp'
      obtain rfl := Option.some.inj hp'
      rw [hparent] at hparent'
      obtain rfl := Option.some.inj hparent'
      exact Nat.succ_le_succ (ih h' hend)

/-- An ascent that has ended has one course. -/
theorem eq_of_ended {top' : EntityClass} (h : s.Climbs cls as top) (h' : s.Climbs cls bs top')
    (hend : s.Ended top) (hend' : s.Ended top') : as = bs ∧ top = top' :=
  h.eq_of_length h' (Nat.le_antisymm (h'.length_le h hend') (h.length_le h' hend))

/-- An ascent that has ended is not endless. -/
theorem not_endless (h : s.Climbs cls as top) (hend : s.Ended top) : ¬ s.Endless cls := by
  intro hendless
  obtain ⟨bs, top', h', hlen⟩ := hendless (as.length + 1)
  have := h.length_le h' hend
  omega

/-- An ascent that comes back is endless. -/
theorem endless_of_loop {loop : List EntityClass} (h : s.Climbs cls as top) (hloop : loop ≠ [])
    (hback : s.Climbs top loop top) : s.Endless cls := by
  have hpos : 0 < loop.length := List.length_pos_iff.mpr hloop
  have hrounds : ∀ n, ∃ around, s.Climbs top around top ∧ n ≤ around.length := by
    intro n
    induction n with
    | zero => exact ⟨[], .stay top, Nat.le_refl _⟩
    | succ n ih =>
      obtain ⟨around, haround, hle⟩ := ih
      refine ⟨loop ++ around, hback.append haround, ?_⟩
      rw [List.length_append]
      omega
  intro n
  obtain ⟨around, haround, hle⟩ := hrounds n
  refine (h.append haround).exists_of_le ?_
  rw [List.length_append]
  omega

/-- The classes above a class are found by look-ups. -/
theorem finds_of_mem (hs : s.Consistent) {a : EntityClass} (h : s.Climbs cls as top)
    (ha : a ∈ as) : s.Finds a := by
  induction h with
  | stay _ => exact absurd ha List.not_mem_nil
  | step _ hparent _ ih =>
    rcases List.mem_cons.mp ha with rfl | ha
    · exact hs _ _ hparent
    · exact ih ha

end Climbs

/-! ## The walk -/

/-- How the ascent from a class ends, and what the walk returns there. -/
inductive Ends (s : Schema) (start : EntityClass) : Except SchemaError (List String) → Prop
  | root {above : List EntityClass} {top : EntityClass} (h : s.Climbs start above top)
      (hroot : top.parents = []) (hnodup : (start :: above).Nodup) :
      Ends s start (.ok (above.map EntityClass.id))
  | missing {above : List EntityClass} {top : EntityClass} {p : String}
      (h : s.Climbs start above top) (hp : top.parents.head? = some p)
      (hnone : s.entityClass? p = none) : Ends s start (.error (.missingParent p))
  | cyclic {before loop : List EntityClass} {top : EntityClass} (h : s.Climbs start before top)
      (hloop : loop ≠ []) (hback : s.Climbs top loop top) :
      Ends s start (.error (.cyclicHierarchy top.id))

namespace Ends

variable {cls top : EntityClass} {above : List EntityClass}
  {result : Except SchemaError (List String)}

theorem eq_ok_iff {chain : List String} (h : s.Ends cls result) :
    result = .ok chain ↔ ∃ above top, s.Climbs cls above top ∧ top.parents = [] ∧
      chain = above.map EntityClass.id := by
  constructor
  · rintro rfl
    cases h with
    | root h hroot _ => exact ⟨_, _, h, hroot, rfl⟩
  · rintro ⟨above, top, hclimbs, hroot, rfl⟩
    have hend : s.Ended top := ended_of_root hroot
    cases h with
    | root h hroot' _ =>
      obtain ⟨rfl, -⟩ := h.eq_of_ended hclimbs (ended_of_root hroot') hend
      rfl
    | missing h hp hnone =>
      obtain ⟨-, rfl⟩ := h.eq_of_ended hclimbs (ended_of_missing hp hnone) hend
      rw [hroot] at hp
      cases hp
    | cyclic h hloop hback =>
      exact absurd (h.endless_of_loop hloop hback) (hclimbs.not_endless hend)

theorem eq_missingParent_iff {p : String} (h : s.Ends cls result) :
    result = .error (.missingParent p) ↔ ∃ above top, s.Climbs cls above top ∧
      top.parents.head? = some p ∧ s.entityClass? p = none := by
  constructor
  · rintro rfl
    cases h with
    | missing h hp hnone => exact ⟨_, _, h, hp, hnone⟩
  · rintro ⟨above, top, hclimbs, hp, hnone⟩
    have hend : s.Ended top := ended_of_missing hp hnone
    cases h with
    | root h hroot _ =>
      obtain ⟨-, rfl⟩ := h.eq_of_ended hclimbs (ended_of_root hroot) hend
      rw [hroot] at hp
      cases hp
    | missing h hp' hnone' =>
      obtain ⟨-, rfl⟩ := h.eq_of_ended hclimbs (ended_of_missing hp' hnone') hend
      rw [Option.some.inj (hp'.symm.trans hp)]
    | cyclic h hloop hback =>
      exact absurd (h.endless_of_loop hloop hback) (hclimbs.not_endless hend)

theorem exists_cyclicHierarchy_iff (h : s.Ends cls result) :
    (∃ a, result = .error (.cyclicHierarchy a)) ↔ s.Endless cls := by
  constructor
  · rintro ⟨a, rfl⟩
    cases h with
    | cyclic h hloop hback => exact h.endless_of_loop hloop hback
  · intro hendless
    cases h with
    | root h hroot _ => exact absurd hendless (h.not_endless (ended_of_root hroot))
    | missing h hp hnone =>
      exact absurd hendless (h.not_endless (ended_of_missing hp hnone))
    | cyclic h hloop hback => exact ⟨_, rfl⟩

theorem ok_or_missing_or_cyclic (h : s.Ends cls result) :
    (∃ chain, result = .ok chain) ∨ (∃ p, result = .error (.missingParent p)) ∨
      ∃ a, result = .error (.cyclicHierarchy a) := by
  cases h with
  | root _ _ _ => exact .inl ⟨_, rfl⟩
  | missing _ _ _ => exact .inr (.inl ⟨_, rfl⟩)
  | cyclic _ _ _ => exact .inr (.inr ⟨_, rfl⟩)

/-- The class at which the walk reports a cycle is above the start, and above itself. -/
theorem exists_loop {a : String} (h : s.Ends cls (.error (.cyclicHierarchy a))) :
    ∃ before top loop, s.Climbs cls before top ∧ top.id = a ∧ loop ≠ [] ∧
      s.Climbs top loop top := by
  cases h with
  | cyclic h hloop hback => exact ⟨_, _, _, h, rfl, hloop, hback⟩

/-- No two classes of a hierarchy have one canonical identifier, the start included. -/
theorem nodup_canonical (hs : s.Consistent) (hcls : s.Finds cls) {chain : List String}
    (h : s.Ends cls (.ok chain)) : ((cls.id :: chain).map s.namespaces.canonical).Nodup := by
  cases h with
  | @root above top h hroot hnodup =>
    have hfound : ∀ a ∈ cls :: above, s.Finds a :=
      List.forall_mem_cons.mpr ⟨hcls, fun a ha => h.finds_of_mem hs ha⟩
    rw [← List.map_cons, List.map_map]
    exact hnodup.map_on fun a ha b hb heq => ((hfound a ha).eq_iff (hfound b hb)).mp heq

end Ends

/-- **What the walk returns says how the ascent from its start ends.** The invariant: of the
classes that look-ups find, those not yet met are exactly those that the ascent has not passed,
and it has passed none twice. -/
theorem ends_ancestorsFrom (hs : s.Consistent) {start : EntityClass} (unvisited : List String)
    (current : EntityClass) :
    ∀ before, s.Climbs start before current → unvisited.Nodup → (start :: before).Nodup →
      (∀ a, s.Finds a → (s.namespaces.canonical a.id ∈ unvisited ↔ a ∉ start :: before)) →
      s.Ends start ((before.map EntityClass.id ++ ·) <$> s.ancestorsFrom unvisited current) := by
  induction unvisited, current using ancestorsFrom.induct s with
  | case1 unvisited current hp =>
    intro before hbefore _ hnodup _
    rw [ancestorsFrom, hp]
    rw [EntityClass.parent?_eq_head?] at hp
    have := Ends.root hbefore (List.head?_eq_none_iff.mp hp) hnodup
    rwa [← List.append_nil (before.map _)] at this
  | case2 unvisited current p hp hnone =>
    intro before hbefore _ _ _
    rw [ancestorsFrom, hp]
    rw [EntityClass.parent?_eq_head?] at hp
    simp only [hnone]
    exact .missing hbefore hp hnone
  | case3 unvisited current p hp parent hparent hmem ih =>
    intro before hbefore hunvisited hnodup hmet
    rw [ancestorsFrom, hp]
    rw [EntityClass.parent?_eq_head?] at hp
    simp only [hparent, hmem, dite_true]
    have hfound := hs p parent hparent
    have hnew : parent ∉ start :: before := (hmet parent hfound).mp hmem
    have hnodup' : (start :: (before ++ [parent])).Nodup := by
      rw [← List.cons_append, List.nodup_append]
      refine ⟨hnodup, List.nodup_singleton parent, fun a ha b hb hab => hnew ?_⟩
      rw [← List.mem_singleton.mp hb, ← hab]
      exact ha
    have hmet' : ∀ a, s.Finds a →
        (s.namespaces.canonical a.id ∈ unvisited.erase (s.namespaces.canonical parent.id) ↔
          a ∉ start :: (before ++ [parent])) := by
      intro a ha
      rw [hunvisited.mem_erase_iff, hmet a ha, ne_eq, ha.eq_iff hfound, ← List.cons_append,
        List.mem_append, List.mem_singleton, not_or, and_comm]
    have := ih (before ++ [parent]) (hbefore.snoc hp hparent) (hunvisited.erase _) hnodup' hmet'
    cases hrest : s.ancestorsFrom (unvisited.erase (s.namespaces.canonical parent.id)) parent with
    | ok rest =>
      rw [hrest, List.map_append] at this
      have hchain : before.map EntityClass.id ++ [parent].map EntityClass.id ++ rest =
          before.map EntityClass.id ++ parent.id :: rest := by simp
      exact Eq.mp (congrArg (fun x => s.Ends start (.ok x)) hchain) this
    | error err =>
      rw [hrest] at this
      exact this
  | case4 unvisited current p hp parent hparent hmem =>
    intro before hbefore _ _ hmet
    rw [ancestorsFrom, hp]
    rw [EntityClass.parent?_eq_head?] at hp
    simp only [hparent, hmem, dite_false]
    -- the parent has been passed: the ascent goes on from there to the current class and back
    have hpassed : parent ∈ start :: before :=
      not_not.mp fun h => hmem ((hmet parent (hs p parent hparent)).mpr h)
    obtain ⟨toParent, loop, htoParent, hloop⟩ := hbefore.exists_of_mem hpassed
    exact .cyclic htoParent (by simp) (hloop.snoc hp hparent)

/-- The hierarchy of an identifier that finds a class says how the ascent from the class ends. -/
theorem ends_hierarchy (hs : s.Consistent) {id : String} {cls : EntityClass}
    (hcls : s.entityClass? id = some cls) : s.Ends cls (s.hierarchy id) := by
  have hkeys : s.classTable.keys.Nodup := s.classTable.nodup
  have hmet : ∀ a, s.Finds a →
      (s.namespaces.canonical a.id ∈ s.classTable.keys.erase (s.namespaces.canonical cls.id) ↔
        a ∉ [cls]) := by
    intro a ha
    have hkey : s.namespaces.canonical a.id ∈ s.classTable.keys :=
      OrderedMap.mem_keys_iff.mpr ⟨a, ha⟩
    rw [hkeys.mem_erase_iff, ne_eq, ha.eq_iff (hs id cls hcls), List.mem_singleton]
    exact and_iff_left hkey
  have := ends_ancestorsFrom hs _ cls [] (.stay cls) (hkeys.erase (s.namespaces.canonical cls.id))
    (List.nodup_singleton cls) hmet
  unfold hierarchy
  simp only [hcls]
  have hnil : ∀ x : Except SchemaError (List String), (([] : List String) ++ ·) <$> x = x :=
    fun x => by cases x <;> rfl
  rwa [List.map_nil, hnil] at this

/-! ## The hierarchy of an identifier -/

theorem hierarchy_of_unknown {id : String} (h : s.entityClass? id = none) :
    s.hierarchy id = .error (.unknownClass id) := by
  unfold hierarchy
  rw [h]

/-- **The hierarchy of an identifier, by the ascent from its class.** In the schema of any
collection:

* it is unknown exactly if the identifier finds no class;
* it lists the ancestors, nearest first, exactly if the ascent reaches a class that declares no
  parent, and then no two of the classes, the start among them, have one canonical identifier;
* it lacks a parent exactly if the ascent reaches a class whose first parent is not defined, and
  names that parent;
* it is cyclic exactly if the ascent never ends, and then names a class from which the ascent
  comes back to it;
* it is nothing else. -/
theorem hierarchy_classifies_ascent (c : Collection) (id : String) :
    let s := ofCollection c
    (∀ a, s.hierarchy id = .error (.unknownClass a) ↔ a = id ∧ s.entityClass? id = none) ∧
    ∀ cls, s.entityClass? id = some cls →
      (∀ chain, s.hierarchy id = .ok chain ↔
        ∃ above top, s.Climbs cls above top ∧ top.parents = [] ∧
          chain = above.map EntityClass.id) ∧
      (∀ chain, s.hierarchy id = .ok chain →
        ((cls.id :: chain).map s.namespaces.canonical).Nodup) ∧
      (∀ p, s.hierarchy id = .error (.missingParent p) ↔
        ∃ above top, s.Climbs cls above top ∧ top.parents.head? = some p ∧
          s.entityClass? p = none) ∧
      ((∃ a, s.hierarchy id = .error (.cyclicHierarchy a)) ↔ s.Endless cls) ∧
      (∀ a, s.hierarchy id = .error (.cyclicHierarchy a) →
        ∃ before top loop, s.Climbs cls before top ∧ top.id = a ∧ loop ≠ [] ∧
          s.Climbs top loop top) ∧
      ((∃ chain, s.hierarchy id = .ok chain) ∨ (∃ p, s.hierarchy id = .error (.missingParent p)) ∨
        ∃ a, s.hierarchy id = .error (.cyclicHierarchy a)) := by
  intro s
  have hs : s.Consistent := consistent_ofCollection c
  refine ⟨fun a => ?_, fun cls hcls => ?_⟩
  · cases hcls : s.entityClass? id with
    | none => simp [hierarchy_of_unknown hcls, eq_comm]
    | some cls =>
      have hends := ends_hierarchy hs hcls
      refine ⟨fun h => ?_, fun h => by cases h.2⟩
      rw [h] at hends
      cases hends
  · have hends := ends_hierarchy hs hcls
    refine ⟨fun chain => hends.eq_ok_iff, fun chain h => ?_, fun p => hends.eq_missingParent_iff,
      hends.exists_cyclicHierarchy_iff, fun a h => ?_, hends.ok_or_missing_or_cyclic⟩
    · rw [h] at hends
      exact hends.nodup_canonical hs (hs id cls hcls)
    · rw [h] at hends
      exact hends.exists_loop

/-- Rivers and waters are each the parent of the other, below them the brooks. Some identifiers
are written short. -/
def waters : Collection :=
  let named (id : String) (parents : List String) : Entity :=
    parents.foldl ClassDraft.addParent (ClassDraft.named id) |>.entity
  { namespaces := Namespaces.standard.bind "ex" "urn:ex:"
    entities := [named "ex:Brook" ["urn:ex:River", "urn:Habitat"], named "ex:River" ["ex:Water"],
      named "urn:ex:Water" ["ex:River"]]
    index := .ofList [("ex:Brook", 0), ("ex:River", 1), ("urn:ex:Water", 2)] }

/-- From the brooks the ascent never ends, and the river from which it comes back is named. -/
theorem hierarchy_classifies_ascent_brook :
    ∃ brook, (ofCollection waters).entityClass? "ex:Brook" = some brook ∧
      (ofCollection waters).hierarchy "ex:Brook" = .error (.cyclicHierarchy "ex:River") ∧
      (ofCollection waters).Endless brook ∧
      ∃ before river loop, (ofCollection waters).Climbs brook before river ∧
        river.id = "ex:River" ∧ loop ≠ [] ∧ (ofCollection waters).Climbs river loop river := by
  have hfound : ((ofCollection waters).entityClass? "ex:Brook").isSome = true := by decide +kernel
  have hcyclic : (ofCollection waters).hierarchy "ex:Brook" =
      .error (.cyclicHierarchy "ex:River") := by decide +kernel
  obtain ⟨brook, hbrook⟩ := Option.isSome_iff_exists.mp hfound
  obtain ⟨-, -, -, hendless, hloop, -⟩ :=
    (hierarchy_classifies_ascent waters "ex:Brook").2 brook hbrook
  exact ⟨brook, hbrook, hcyclic, hendless.mp ⟨_, hcyclic⟩, hloop _ hcyclic⟩

end Schema

end EntityGraph
