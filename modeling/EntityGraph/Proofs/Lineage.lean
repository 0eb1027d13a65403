import EntityGraph.Proofs.Canonical
import EntityGraph.Schema.Builder
import Mathlib.Data.List.Nodup

/-!
# Lines of descent

The line of a class leads from parent to parent to a class without parent. It is a relation over
the classes of the schema, without tables and without a record of the classes visited: a class
whose walk meets an undefined parent, or a class twice, has no line.

Results:
* `entityClass?_eq_some_iff`: a look-up finds the class that denotes the same.
* `lineage_unique`, `lineage_nodup`: a class has one line at most, and no class is on it twice.
* `hierarchy_eq_ok_iff`: the hierarchy walk completes exactly on the line of the class.
* `constraintsFor_eq_ok_iff`: the constraints of a type are those of its levels, in order.
-/

namespace EntityGraph

/-- The schema is read off an expanded collection, and all its expansions are full URIs. -/
structure Schema.FromExpanded (s : Schema) : Prop where
  expansions : s.namespaces.FullExpansions
  source : ∃ c c', Collection.expanded c = .ok c' ∧ s = .ofCollection c'

/-- Where a schema is read off an expanded collection, it is read off the one it holds. -/
theorem Schema.FromExpanded.eq_ofCollection {s : Schema} (hs : s.FromExpanded) :
    s = .ofCollection s.collection := by
  obtain ⟨_, c, -, rfl⟩ := hs.source
  rfl

namespace Schema

/-- The identifier denotes the class. -/
def Declares (s : Schema) (id : String) (cls : EntityClass) : Prop :=
  cls ∈ s.classes ∧ s.namespaces.same cls.id id = true

/-- The line of a class: its parent, the parent of that, and so on to a class without parent. -/
inductive Lineage (s : Schema) : EntityClass → List EntityClass → Prop
  | root {cls : EntityClass} (h : cls.parent? = none) : Lineage s cls []
  | step {cls parent : EntityClass} {ancestors : List EntityClass} {p : String}
      (hp : cls.parent? = some p) (hd : s.Declares p parent) (h : Lineage s parent ancestors) :
      Lineage s cls (parent :: ancestors)

/-- The constraints whose class denotes the same as an identifier. -/
def constraintsAt (s : Schema) (id : String) : List Constraint :=
  s.constraints.filter fun c => c.entityClass?.any fun cls => s.namespaces.same cls id

/-- The levels at which a type takes constraints: the type, and the line of the class if it
denotes one. -/
def Levels (s : Schema) (type : String) (levels : List String) : Prop :=
  (∃ cls ancestors, s.Declares type cls ∧ s.Lineage cls ancestors ∧
    levels = type :: ancestors.map EntityClass.id) ∨
  ((∀ cls, ¬ s.Declares type cls) ∧ levels = [type])

/-! ## Classes of an expanded collection -/

/-- The classes of a schema are entities of its collection. -/
theorem mem_classes_ofCollection {c : Collection} {cls : EntityClass}
    (h : cls ∈ (ofCollection c).classes) : cls.entity ∈ c.entities := by
  obtain ⟨e, he, hcls⟩ := List.mem_filterMap.mp h
  unfold class? at hcls
  split at hcls
  · obtain rfl := Option.some.inj hcls
    exact he
  · cases hcls

theorem nodup_ids_classes_ofCollection {c : Collection} (h : (c.entities.map Entity.id).Nodup) :
    ((ofCollection c).classes.map EntityClass.id).Nodup := by
  have key : ∀ es : List Entity, (es.map Entity.id).Nodup →
      ((es.filterMap (class? c.namespaces)).map EntityClass.id).Nodup ∧
      ∀ cls ∈ es.filterMap (class? c.namespaces), cls.id ∈ es.map Entity.id := by
    intro es
    induction es with
    | nil => intro _; exact ⟨List.nodup_nil, fun _ h => absurd h List.not_mem_nil⟩
    | cons e es ih =>
      intro hes
      rw [List.map_cons, List.nodup_cons] at hes
      obtain ⟨hnodup, hmem⟩ := ih hes.2
      unfold class? at hnodup hmem ⊢
      rw [List.filterMap_cons]
      split
      · exact ⟨hnodup, fun cls hcls => List.mem_cons_of_mem _ (hmem cls hcls)⟩
      · rename_i cls hcls
        have hid : cls.id = e.id := by
          split at hcls
          · obtain rfl := Option.some.inj hcls; rfl
          · cases hcls
        refine ⟨?_, fun cls' hcls' => ?_⟩
        · rw [List.map_cons, List.nodup_cons]
          refine ⟨fun h => ?_, hnodup⟩
          obtain ⟨cls', hcls', heq⟩ := List.mem_map.mp h
          have := hmem cls' hcls'
          rw [heq, hid] at this
          exact hes.1 this
        · rcases List.mem_cons.mp hcls' with rfl | hcls'
          · rw [hid]; exact List.mem_cons_self
          · exact List.mem_cons_of_mem _ (hmem cls' hcls')
  exact (key c.entities h).1

namespace FromExpanded

variable {s : Schema}

theorem canonical_id (hs : s.FromExpanded) {cls : EntityClass} (h : cls ∈ s.classes) :
    s.namespaces.canonical cls.id = cls.id := by
  obtain ⟨c, c', hc, rfl⟩ := hs.source
  exact Collection.canonical_id_of_expanded hc hs.expansions (mem_classes_ofCollection h)

/-- An identifier denotes the class whose identifier is its canonical form. -/
theorem declares_iff (hs : s.FromExpanded) {id : String} {cls : EntityClass} :
    s.Declares id cls ↔ cls ∈ s.classes ∧ cls.id = s.namespaces.canonical id := by
  unfold Declares
  refine and_congr_right fun h => ?_
  rw [Namespaces.same_iff, hs.canonical_id h]

theorem nodup_ids (hs : s.FromExpanded) : (s.classes.map EntityClass.id).Nodup := by
  obtain ⟨c, c', hc, rfl⟩ := hs.source
  exact nodup_ids_classes_ofCollection (Collection.nodup_ids_of_expanded hc)

/-- An identifier denotes one class at most. -/
theorem declares_unique (hs : s.FromExpanded) {id : String} {cls cls' : EntityClass}
    (h : s.Declares id cls) (h' : s.Declares id cls') : cls = cls' := by
  rw [hs.declares_iff] at h h'
  exact List.inj_on_of_nodup_map hs.nodup_ids h.1 h'.1 (h.2.trans h'.2.symm)

theorem get?_classTable (hs : s.FromExpanded) {id : String} {cls : EntityClass} :
    s.classTable.get? id = some cls ↔ cls ∈ s.classes ∧ cls.id = id := by
  have htable : s.classTable.get? id =
      s.classes.reverse.find? fun cls => decide (s.namespaces.canonical cls.id = id) := by
    obtain ⟨c, c', _, rfl⟩ := hs.source
    exact OrderedMap.get?_indexLast _ _ _
  rw [htable]
  constructor
  · intro h
    have hmem : cls ∈ s.classes := List.mem_reverse.mp (List.mem_of_find?_eq_some h)
    have hid := List.find?_some h
    rw [decide_eq_true_eq, hs.canonical_id hmem] at hid
    exact ⟨hmem, hid⟩
  · rintro ⟨hmem, rfl⟩
    cases hfind : s.classes.reverse.find?
        fun cls' => decide (s.namespaces.canonical cls'.id = cls.id) with
    | none =>
      have := List.find?_eq_none.mp hfind cls (List.mem_reverse.mpr hmem)
      simp [hs.canonical_id hmem] at this
    | some cls' =>
      have hmem' : cls' ∈ s.classes := List.mem_reverse.mp (List.mem_of_find?_eq_some hfind)
      have hid := List.find?_some hfind
      rw [decide_eq_true_eq, hs.canonical_id hmem'] at hid
      rw [List.inj_on_of_nodup_map hs.nodup_ids hmem' hmem hid]

/-- **A look-up finds the class that the identifier denotes.** -/
theorem entityClass?_eq_some_iff (hs : s.FromExpanded) {id : String} {cls : EntityClass} :
    s.entityClass? id = some cls ↔ s.Declares id cls := by
  unfold entityClass?
  rw [hs.declares_iff]
  constructor
  · intro h
    rcases Option.or_eq_some_iff.mp h with h | ⟨-, h⟩
    · obtain ⟨hmem, hid⟩ := hs.get?_classTable.mp h
      exact ⟨hmem, by rw [← hid, hs.canonical_id hmem]⟩
    · exact hs.get?_classTable.mp h
  · rintro ⟨hmem, hid⟩
    cases hraw : s.classTable.get? id with
    | none =>
      rw [Option.none_or]
      exact hs.get?_classTable.mpr ⟨hmem, hid⟩
    | some cls' =>
      obtain ⟨hmem', hid'⟩ := hs.get?_classTable.mp hraw
      have hcanon : id = s.namespaces.canonical id := by rw [← hid', hs.canonical_id hmem']
      have heq : cls' = cls :=
        List.inj_on_of_nodup_map hs.nodup_ids hmem' hmem (hid'.trans (hcanon.trans hid.symm))
      rw [heq, Option.some_or]

theorem entityClass?_eq_none_iff (hs : s.FromExpanded) {id : String} :
    s.entityClass? id = none ↔ ∀ cls, ¬ s.Declares id cls := by
  rw [Option.eq_none_iff_forall_ne_some]
  exact forall_congr' fun cls => not_congr hs.entityClass?_eq_some_iff

/-! ## Lines -/

/-- **A class has one line at most.** -/
theorem lineage_unique (hs : s.FromExpanded) {cls : EntityClass} {as bs : List EntityClass}
    (ha : s.Lineage cls as) (hb : s.Lineage cls bs) : as = bs := by
  induction ha generalizing bs with
  | root h =>
    cases hb with
    | root _ => rfl
    | step hp _ _ => rw [h] at hp; cases hp
  | step hp hd _ ih =>
    cases hb with
    | root h => rw [h] at hp; cases hp
    | step hp' hd' h' =>
      rw [hp] at hp'
      obtain rfl := Option.some.inj hp'
      obtain rfl := hs.declares_unique hd hd'
      rw [ih h']

end FromExpanded

variable {s : Schema}

theorem Lineage.mem_classes {cls : EntityClass} {as : List EntityClass} (h : s.Lineage cls as) :
    ∀ a ∈ as, a ∈ s.classes := by
  induction h with
  | root _ => exact fun _ h => absurd h List.not_mem_nil
  | step _ hd _ ih => exact List.forall_mem_cons.mpr ⟨hd.1, ih⟩

/-- A class on a line has a shorter line of its own. -/
theorem Lineage.of_mem {cls a : EntityClass} {as : List EntityClass} (h : s.Lineage cls as)
    (ha : a ∈ as) : ∃ bs, s.Lineage a bs ∧ bs.length < as.length := by
  induction h with
  | root _ => exact absurd ha List.not_mem_nil
  | @step _ _ ancestors _ _ _ h ih =>
    rcases List.mem_cons.mp ha with rfl | ha
    · exact ⟨ancestors, h, Nat.lt_succ_self _⟩
    · obtain ⟨bs, hbs, hlt⟩ := ih ha
      exact ⟨bs, hbs, Nat.lt_succ_of_lt hlt⟩

namespace FromExpanded

/-- **No class is twice on a line**, and none is an ancestor of itself. -/
theorem lineage_nodup (hs : s.FromExpanded) {cls : EntityClass} {as : List EntityClass}
    (h : s.Lineage cls as) : (cls :: as).Nodup := by
  have hself : ∀ {cls as}, s.Lineage cls as → cls ∉ as := fun {cls as} h hmem => by
    obtain ⟨bs, hbs, hlt⟩ := h.of_mem hmem
    rw [hs.lineage_unique h hbs] at hlt
    exact absurd hlt (Nat.lt_irrefl _)
  induction h with
  | root _ => exact List.nodup_singleton _
  | step hp hd h ih => exact List.nodup_cons.mpr ⟨hself (.step hp hd h), ih⟩

/-! ## The hierarchy walk -/

/-- The walk follows a line whose classes it has not met. -/
theorem ancestorsFrom_of_lineage (hs : s.FromExpanded) {cls : EntityClass}
    {as : List EntityClass} (h : s.Lineage cls as) :
    ∀ unvisited : List String, (∀ a ∈ as, a.id ∈ unvisited) →
      s.ancestorsFrom unvisited cls = .ok (as.map EntityClass.id) := by
  induction h with
  | root h =>
    intro unvisited _
    rw [ancestorsFrom, h]
    rfl
  | @step cls parent as p hp hd h ih =>
    intro unvisited hmem
    have hparent : s.namespaces.canonical parent.id = parent.id := hs.canonical_id hd.1
    have hrest : ∀ a ∈ as, a.id ∈ unvisited.erase parent.id := fun a ha => by
      have hne : a.id ≠ parent.id := fun heq => by
        have hap := List.inj_on_of_nodup_map hs.nodup_ids (h.mem_classes a ha) hd.1 heq
        exact (List.nodup_cons.mp (hs.lineage_nodup h)).1 (hap ▸ ha)
      exact (List.mem_erase_of_ne hne).mpr (hmem a (List.mem_cons_of_mem _ ha))
    rw [ancestorsFrom, hp]
    simp only [hs.entityClass?_eq_some_iff.mpr hd, hparent, hmem parent List.mem_cons_self,
      dite_true, ih _ hrest]
    rfl

/-- Where the walk completes, it has followed a line. -/
theorem lineage_of_ancestorsFrom (hs : s.FromExpanded) {unvisited : List String}
    {cls : EntityClass} {chain : List String} (h : s.ancestorsFrom unvisited cls = .ok chain) :
    ∃ as, s.Lineage cls as ∧ chain = as.map EntityClass.id := by
  induction unvisited, cls using ancestorsFrom.induct s generalizing chain with
  | case1 unvisited cls hp =>
    rw [ancestorsFrom, hp] at h
    obtain rfl := Except.ok.inj h
    exact ⟨[], .root hp, rfl⟩
  | case2 unvisited cls p hp hcls =>
    rw [ancestorsFrom, hp] at h
    simp only [hcls] at h
    cases h
  | case3 unvisited cls p hp parent hcls hmem ih =>
    rw [ancestorsFrom, hp] at h
    simp only [hcls, hmem, dite_true] at h
    cases hrest : s.ancestorsFrom (unvisited.erase (s.namespaces.canonical parent.id)) parent with
    | error err => rw [hrest] at h; cases h
    | ok rest =>
      rw [hrest] at h
      obtain rfl := Except.ok.inj h
      obtain ⟨as, has, rfl⟩ := ih hrest
      exact ⟨parent :: as, .step hp (hs.entityClass?_eq_some_iff.mp hcls) has, rfl⟩
  | case4 unvisited cls p hp parent hcls hmem =>
    rw [ancestorsFrom, hp] at h
    simp only [hcls, hmem, dite_false] at h
    cases h

/-- **The hierarchy walk completes exactly on the line of the class**: it fails on a class whose
line meets an undefined parent or would never end. -/
theorem hierarchy_eq_ok_iff (hs : s.FromExpanded) {id : String} {cls : EntityClass}
    (hd : s.Declares id cls) {chain : List String} :
    s.hierarchy id = .ok chain ↔ ∃ as, s.Lineage cls as ∧ chain = as.map EntityClass.id := by
  unfold hierarchy
  simp only [hs.entityClass?_eq_some_iff.mpr hd]
  constructor
  · exact hs.lineage_of_ancestorsFrom
  · rintro ⟨as, has, rfl⟩
    apply hs.ancestorsFrom_of_lineage has
    intro a ha
    have hmem := has.mem_classes a ha
    have hne : a.id ≠ s.namespaces.canonical cls.id := fun heq => by
      rw [hs.canonical_id hd.1] at heq
      have hac := List.inj_on_of_nodup_map hs.nodup_ids hmem hd.1 heq
      exact (List.nodup_cons.mp (hs.lineage_nodup has)).1 (hac ▸ ha)
    rw [List.mem_erase_of_ne hne, OrderedMap.mem_keys_iff]
    exact ⟨a, hs.get?_classTable.mpr ⟨hmem, rfl⟩⟩

/-! ## Constraints of a type -/

/-- A table that groups the constraints by the canonical class that a key names has at an
identifier the constraints whose key denotes the same. -/
theorem entriesAt_group {table : OrderedMap String (List Constraint)}
    {key : Constraint → Option String}
    (h : table = .group (fun c => (key c).map s.namespaces.canonical) s.constraints)
    (id : String) : s.entriesAt table id =
      s.constraints.filter fun c => (key c).any fun cls => s.namespaces.same cls id := by
  unfold entriesAt
  rw [h, OrderedMap.getD_group]
  refine List.filter_congr fun c _ => ?_
  cases key c with
  | none => rfl
  | some cls =>
    simp only [Option.map_some, Option.some.injEq, Option.any_some]
    rw [Bool.eq_iff_iff, decide_eq_true_eq, Namespaces.same_iff]

theorem entriesAt_byClass (hs : s.FromExpanded) (id : String) :
    s.entriesAt s.byClass id = s.constraintsAt id := by
  obtain ⟨c, c', _, rfl⟩ := hs.source
  exact entriesAt_group rfl id

/-- **The constraints of a type are those of its levels, in order**, where it has levels. -/
theorem constraintsFor_eq_ok_iff (hs : s.FromExpanded) {type : String} {cs : List Constraint} :
    s.constraintsFor type true = .ok cs ↔
      ∃ levels, s.Levels type levels ∧ cs = levels.flatMap s.constraintsAt := by
  have hentries : s.entriesAt s.byClass = s.constraintsAt := funext hs.entriesAt_byClass
  unfold constraintsFor entriesFor
  rw [hentries, Bool.true_and]
  cases hcls : s.entityClass? type with
  | none =>
    have hnone := hs.entityClass?_eq_none_iff.mp hcls
    simp only [Option.isSome_none, Bool.false_eq_true, if_false, Except.ok.injEq]
    constructor
    · rintro rfl
      exact ⟨[type], Or.inr ⟨hnone, rfl⟩, by simp⟩
    · rintro ⟨levels, ⟨cls, _, hd, _⟩ | ⟨_, rfl⟩, rfl⟩
      · exact absurd hd (hnone cls)
      · simp
  | some cls =>
    have hd := hs.entityClass?_eq_some_iff.mp hcls
    simp only [Option.isSome_some, if_true]
    constructor
    · intro h
      cases hchain : s.hierarchy type with
      | error err => rw [hchain] at h; cases h
      | ok chain =>
        rw [hchain] at h
        obtain rfl := Except.ok.inj h
        obtain ⟨as, has, rfl⟩ := (hs.hierarchy_eq_ok_iff hd).mp hchain
        exact ⟨_, Or.inl ⟨cls, as, hd, has, rfl⟩, rfl⟩
    · rintro ⟨levels, ⟨cls', as, hd', has, rfl⟩ | ⟨hnone, _⟩, rfl⟩
      · obtain rfl := hs.declares_unique hd hd'
        rw [(hs.hierarchy_eq_ok_iff hd).mpr ⟨as, has, rfl⟩]
        rfl
      · exact absurd hd (hnone cls)

end FromExpanded

end Schema

/-! ## Schemas that are built -/

theorem Collection.namespaces_addAll {c c' : Collection} {es : List Entity}
    (h : c.addAll es = .ok c') : c'.namespaces = c.namespaces := by
  induction es generalizing c with
  | nil =>
    obtain rfl := Except.ok.inj h
    rfl
  | cons e es ih =>
    unfold addAll at h
    rw [List.foldlM_cons] at h
    obtain ⟨c₁, hadd, hrest⟩ := bind_eq_ok_iff.mp h
    rw [ih hrest]
    unfold add at hadd
    split at hadd
    · cases hadd
    · obtain rfl := Except.ok.inj hadd
      rfl

/-- A schema that is built keeps the namespace table, and is read off an expanded collection. -/
theorem SchemaBuilder.build_eq_ok {b : SchemaBuilder} {s : Schema} (h : b.build = .ok s) :
    s.namespaces = b.namespaces ∧
      ∃ c c', Collection.expanded c = .ok c' ∧ s = .ofCollection c' := by
  unfold build at h
  split at h
  · cases h
  · rename_i c hadd
    split at h
    · cases h
    · rename_i c' hexp
      obtain rfl := Except.ok.inj h
      exact ⟨(Collection.expanded_eq_ok hexp).1.trans (Collection.namespaces_addAll hadd),
        c, c', hexp, rfl⟩

theorem SchemaBuilder.fromExpanded_of_build {b : SchemaBuilder} {s : Schema}
    (h : b.build = .ok s)
    (hfull : ∀ binding ∈ b.namespaces.bindings.toList, isFullUri binding.2 = true) :
    s.FromExpanded := by
  obtain ⟨hns, hsource⟩ := build_eq_ok h
  exact ⟨hns ▸ Namespaces.fullExpansions_of_bindings hfull, hsource⟩

end EntityGraph
