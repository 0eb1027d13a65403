import EntityGraph.Proofs.Abstractness
import EntityGraph.Proofs.Subsumption

/-!
# Inherited constraints

Two tables assign constraints to classes: to the class that a constraint is about, and, for a
reference with an inverse name, to the class of its targets. A look-up for an identifier walks the
hierarchy and joins the entries of each class on the way. The keys of the tables are canonical and
the classes of a hierarchy are distinct, and so every constraint that applies is listed, and none is
listed twice.

Results:
* `entriesAt_byTarget`: the table of targets has the constraints placed at a class.
* `nodup_canonical_levels`: no two classes of a hierarchy denote the same, its own class included.
* `inherits_of_table`: what a look-up in a table lists, where the hierarchy is found.
* `lookups_inherit`: the constraints of a class and those on its referrers are listed once each,
  nearest class first, and those of an ancestor at the end.
-/

namespace EntityGraph

/-- The class of the targets of a reference constraint that has an inverse name. -/
def Constraint.inverseClass? (c : Constraint) : Option String :=
  if c.kind = .reference ∧ c.inverseReferenceClass?.isSome then c.referencedEntityClass? else none

namespace Schema

variable {s : Schema} {key : Constraint → Option String}

/-- The constraints that a key places at the class of an identifier, in order of declaration. -/
def placedAt (s : Schema) (key : Constraint → Option String) (id : String) : List Constraint :=
  s.constraints.filter fun c => (key c).any fun cls => s.namespaces.same cls id

/-- The identifiers listed are the ancestors of a class, nearest first; an identifier that denotes
no class has none. -/
def Ancestors (s : Schema) (id : String) (ancestors : List String) : Prop :=
  (s.entityClass? id = none ∧ ancestors = []) ∨ s.hierarchy id = .ok ancestors

/-- A look-up lists the constraints that a key places at an identifier or at one of its ancestors:
level by level, each once and no others. What it lists for an ancestor stands at the end. -/
structure Inherits (s : Schema) (key : Constraint → Option String)
    (lookup : String → Except SchemaError (List Constraint)) (id : String)
    (ancestors : List String) : Prop where
  levels : lookup id = .ok ((id :: ancestors).flatMap (s.placedAt key))
  once : ((id :: ancestors).flatMap (s.placedAt key)).Nodup
  mem_iff : ∀ c, c ∈ (id :: ancestors).flatMap (s.placedAt key) ↔
    c ∈ s.constraints ∧ ∃ cls, key c = some cls ∧
      ∃ level ∈ id :: ancestors, s.namespaces.same cls level = true
  suffix : ∀ ancestor ∈ ancestors, ∀ b, s.namespaces.same ancestor b = true →
    ∃ cs, lookup b = .ok cs ∧ cs <:+ (id :: ancestors).flatMap (s.placedAt key)

theorem mem_placedAt {id : String} {c : Constraint} :
    c ∈ s.placedAt key id ↔
      c ∈ s.constraints ∧ ∃ cls, key c = some cls ∧ s.namespaces.same cls id = true := by
  unfold placedAt
  rw [List.mem_filter, Option.any_eq_true]

theorem mem_flatMap_placedAt {levels : List String} {c : Constraint} :
    c ∈ levels.flatMap (s.placedAt key) ↔
      c ∈ s.constraints ∧ ∃ cls, key c = some cls ∧
        ∃ level ∈ levels, s.namespaces.same cls level = true := by
  simp only [List.mem_flatMap, mem_placedAt]
  constructor
  · rintro ⟨level, hlevel, hc, cls, hcls, hsame⟩
    exact ⟨hc, cls, hcls, level, hlevel, hsame⟩
  · rintro ⟨hc, cls, hcls, level, hlevel, hsame⟩
    exact ⟨level, hlevel, hc, cls, hcls, hsame⟩

/-- A constraint is placed at one level only, where no two levels denote the same. -/
theorem nodup_flatMap_placedAt (hc : s.constraints.Nodup) {levels : List String}
    (hlevels : (levels.map s.namespaces.canonical).Nodup) :
    (levels.flatMap (s.placedAt key)).Nodup := by
  rw [List.nodup_flatMap]
  refine ⟨fun _ _ => hc.filter _, (List.pairwise_map.mp hlevels).imp fun {a b} hne =>
    List.disjoint_left.mpr fun c ha hb => ?_⟩
  obtain ⟨-, cls, hcls, hsame⟩ := mem_placedAt.mp ha
  obtain ⟨-, cls', hcls', hsame'⟩ := mem_placedAt.mp hb
  obtain rfl := Option.some.inj (hcls.symm.trans hcls')
  exact hne ((Namespaces.same_iff.mp hsame).symm.trans (Namespaces.same_iff.mp hsame'))

namespace FromExpanded

theorem nodup_constraints (hs : s.FromExpanded) : s.constraints.Nodup := by
  obtain ⟨c, c', hc, rfl⟩ := hs.source
  exact Schema.nodup_constraints (Collection.nodup_ids_of_expanded hc)

/-- The table of targets has at an identifier the reference constraints with an inverse name whose
targets belong to its class. -/
theorem entriesAt_byTarget (hs : s.FromExpanded) (id : String) :
    s.entriesAt s.byTarget id = s.placedAt Constraint.inverseClass? id := by
  obtain ⟨c, c', _, rfl⟩ := hs.source
  refine entriesAt_group ?_ id
  have hkey : inverseKey? c'.namespaces =
      fun con => con.inverseClass?.map c'.namespaces.canonical := by
    funext con
    unfold inverseKey? Constraint.inverseClass?
    split <;> rfl
  exact congrArg (OrderedMap.group · (ofCollection c').constraints) hkey

/-- **No two classes of a hierarchy denote the same**, the class itself included. -/
theorem nodup_canonical_levels (hs : s.FromExpanded) {id : String} {ancestors : List String}
    (h : s.Ancestors id ancestors) : ((id :: ancestors).map s.namespaces.canonical).Nodup := by
  rcases h with ⟨-, rfl⟩ | h
  · exact List.nodup_singleton _
  · obtain ⟨cls, as, hd, hl, rfl⟩ := hs.exists_lineage_of_hierarchy h
    obtain ⟨hcls, hid⟩ := hs.declares_iff.mp hd
    have hclasses : ∀ a ∈ cls :: as, a ∈ s.classes :=
      List.forall_mem_cons.mpr ⟨hcls, hl.mem_classes⟩
    have hcanonical : (id :: as.map EntityClass.id).map s.namespaces.canonical =
        (cls :: as).map EntityClass.id := by
      rw [List.map_cons, List.map_cons, List.map_map, hid]
      exact congrArg _ (List.map_congr_left fun a ha => hs.canonical_id (hl.mem_classes a ha))
    rw [hcanonical]
    exact (hs.lineage_nodup hl).map_on fun a ha b hb =>
      List.inj_on_of_nodup_map hs.nodup_ids (hclasses a ha) (hclasses b hb)

/-- **What a look-up in a table lists, where the hierarchy is found.** -/
theorem inherits_of_table (hs : s.FromExpanded) {table : OrderedMap String (List Constraint)}
    (htable : ∀ id, s.entriesAt table id = s.placedAt key id) {id : String}
    {ancestors : List String} (h : s.Ancestors id ancestors) :
    s.Inherits key (s.entriesFor table · true) id ancestors := by
  have hlevels : s.entriesFor table id true =
      .ok ((id :: ancestors).flatMap (s.placedAt key)) := by
    unfold entriesFor
    rw [show s.entriesAt table = s.placedAt key from funext htable]
    rcases h with ⟨hnone, rfl⟩ | h
    · rw [hnone, List.flatMap_singleton]
      rfl
    · obtain ⟨cls, -, hd, -⟩ := hs.exists_lineage_of_hierarchy h
      rw [hs.entityClass?_eq_some_iff.mpr hd, h]
      rfl
  refine ⟨hlevels, nodup_flatMap_placedAt hs.nodup_constraints (hs.nodup_canonical_levels h),
    fun _ => mem_flatMap_placedAt, fun ancestor hmem b hb => ?_⟩
  have hbelow : s.isSubclassOf id b = .ok true := by
    rcases h with ⟨-, rfl⟩ | h
    · cases hmem
    · obtain ⟨cls, as, hd, hl, rfl⟩ := hs.exists_lineage_of_hierarchy h
      obtain ⟨found, hfound, rfl⟩ := List.mem_map.mp hmem
      exact hs.isSubclassOf_iff.mpr
        (Or.inr ⟨cls, as, found, hd, hl, hfound, hl.mem_classes found hfound, hb⟩)
  exact hs.entriesFor_suffix hbelow hlevels

/-- **Every constraint that applies is listed once.** For an identifier in any spelling, of a class
whose hierarchy is found or of no class, the look-up of constraints lists those that are about the
class or one of its ancestors, the nearest first, and the look-up of inverse constraints those whose
targets belong to the class or one of its ancestors. Within a class they stand in order of
declaration. What an ancestor has is the end of what the class has. -/
theorem lookups_inherit (hs : s.FromExpanded) {id : String} {ancestors : List String}
    (h : s.Ancestors id ancestors) :
    s.Inherits Constraint.entityClass? (s.constraintsFor · true) id ancestors ∧
    s.Inherits Constraint.inverseClass? (s.inverseConstraintsFor · true) id ancestors :=
  ⟨hs.inherits_of_table hs.entriesAt_byClass h, hs.inherits_of_table hs.entriesAt_byTarget h⟩

end FromExpanded

end Schema

/-- Pupils are persons and persons are agents, in two spellings. Clubs have persons as members and
schools have pupils. -/
def schoolBuilder : SchemaBuilder :=
  let b := SchemaBuilder.empty.bind "ex" "urn:ex:"
  let b := b.addClass (ClassDraft.named "ex:Agent")
  let b := b.addClass ((ClassDraft.named "ex:Person").addParent "ex:Agent")
  let b := b.addClass ((ClassDraft.named "ex:Pupil").addParent "urn:ex:Person")
  let (name, b) := b.startConstraint .property "urn:ex:Agent"
  let b := b.addConstraint (name.setName Vocabulary.propertyClass "ex:name")
  let (member, b) := b.startConstraint .reference "ex:Club"
  let b := b.addConstraint (((member.setName Vocabulary.referenceClass "ex:member").setName
    Vocabulary.referencedEntityClass "urn:ex:Person").setName
    Vocabulary.inverseReferenceClass "ex:memberOf")
  let (grade, b) := b.startConstraint .property "ex:Pupil"
  let b := b.addConstraint (grade.setName Vocabulary.propertyClass "ex:grade")
  let (email, b) := b.startConstraint .property "ex:Agent"
  let b := b.addConstraint (email.setName Vocabulary.propertyClass "ex:email")
  let (pupil, b) := b.startConstraint .reference "ex:School"
  b.addConstraint (((pupil.setName Vocabulary.referenceClass "ex:pupil").setName
    Vocabulary.referencedEntityClass "ex:Pupil").setName
    Vocabulary.inverseReferenceClass "ex:pupilOf")

/-- What is about pupils stands before what is about agents, and being a pupil of a school before
being a member of a club. -/
theorem lookups_inherit_pupil :
    ∃ s, schoolBuilder.build = .ok s ∧ s.FromExpanded ∧
      s.Ancestors "ex:Pupil" ["urn:ex:Person", "urn:ex:Agent"] ∧
      ∃ cs inverses, s.constraintsFor "ex:Pupil" true = .ok cs ∧ cs.Nodup ∧
        cs.map Constraint.id = ["urn:ex:Pupil-constraint-2", "urn:ex:Agent-constraint-0",
          "urn:ex:Agent-constraint-3"] ∧
        s.inverseConstraintsFor "ex:Pupil" true = .ok inverses ∧ inverses.Nodup ∧
        inverses.map Constraint.id =
          ["urn:ex:School-constraint-4", "urn:ex:Club-constraint-1"] ∧
        ∃ agents, s.constraintsFor "ex:Agent" true = .ok agents ∧ agents <:+ cs := by
  have hfacts : (∀ binding ∈ schoolBuilder.namespaces.bindings.toList,
        isFullUri binding.2 = true) ∧
      ∃ s ∈ schoolBuilder.build.toOption,
        s.hierarchy "ex:Pupil" = .ok ["urn:ex:Person", "urn:ex:Agent"] ∧
        s.namespaces.same "urn:ex:Agent" "ex:Agent" = true ∧
        ((s.constraintsFor "ex:Pupil" true).toOption.map (·.map Constraint.id)) =
          some ["urn:ex:Pupil-constraint-2", "urn:ex:Agent-constraint-0",
            "urn:ex:Agent-constraint-3"] ∧
        ((s.inverseConstraintsFor "ex:Pupil" true).toOption.map (·.map Constraint.id)) =
          some ["urn:ex:School-constraint-4", "urn:ex:Club-constraint-1"] := by
    decide +kernel
  obtain ⟨hbindings, s, hmem, hchain, hagent, hids, hinverseIds⟩ := hfacts
  have hbuild : schoolBuilder.build = .ok s := eq_ok_of_mem_toOption hmem
  have hs : s.FromExpanded := SchemaBuilder.fromExpanded_of_build hbuild hbindings
  have hancestors : s.Ancestors "ex:Pupil" ["urn:ex:Person", "urn:ex:Agent"] := Or.inr hchain
  obtain ⟨hown, hinverse⟩ := Schema.FromExpanded.lookups_inherit hs hancestors
  rw [hown.levels] at hids
  rw [hinverse.levels] at hinverseIds
  exact ⟨s, hbuild, hs, hancestors, _, _, hown.levels, hown.once, Option.some.inj hids,
    hinverse.levels, hinverse.once, Option.some.inj hinverseIds,
    hown.suffix _ (List.mem_cons_of_mem _ (List.mem_singleton_self _)) _ hagent⟩

end EntityGraph
