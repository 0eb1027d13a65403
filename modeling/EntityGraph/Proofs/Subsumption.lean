import EntityGraph.Proofs.Substitution

/-!
# The order of classes

Whether one class is another or inherits from it is asked for identifiers in any spelling, of
classes that are defined or not, in a schema parts of which may be broken. An identifier is below
another if both denote the same, or if the other denotes a class on the line of the first. This is
an order, for the line of an ancestor is what comes after it on the line of the class.

Results:
* `hierarchy_of_getElem?`: the hierarchy of an ancestor is the rest of the hierarchy after it.
* `isSubclassOf_iff`: when one identifier is below another.
* `isSubclassOf_trans`, `isSubclassOf_antisymm`: the two laws of an order.
* `isSubclassOf_order`: these together.
-/

namespace EntityGraph

namespace Schema

variable {s : Schema}

/-- The line of a class on a line is what comes after its place. -/
theorem Lineage.drop {cls a : EntityClass} {as : List EntityClass} (h : s.Lineage cls as) {i : Nat}
    (ha : as[i]? = some a) : s.Lineage a (as.drop (i + 1)) := by
  induction h generalizing i with
  | root _ => cases ha
  | step _ _ h ih =>
    cases i with
    | zero =>
      obtain rfl := Option.some.inj ha
      exact h
    | succ i => exact ih ha

namespace FromExpanded

/-- Identifiers that denote the same denote the same classes. -/
theorem declares_congr (hs : s.FromExpanded) {a b : String} (h : s.namespaces.same a b = true)
    (cls : EntityClass) : s.Declares a cls ↔ s.Declares b cls := by
  rw [hs.declares_iff, hs.declares_iff, Namespaces.same_iff.mp h]

/-- A hierarchy that is found is that of a class with a line. -/
theorem exists_lineage_of_hierarchy (hs : s.FromExpanded) {id : String} {chain : List String}
    (h : s.hierarchy id = .ok chain) :
    ∃ cls as, s.Declares id cls ∧ s.Lineage cls as ∧ chain = as.map EntityClass.id := by
  cases hcls : s.entityClass? id with
  | none =>
    unfold hierarchy at h
    rw [hcls] at h
    cases h
  | some cls =>
    have hd := hs.entityClass?_eq_some_iff.mp hcls
    obtain ⟨as, hl, hchain⟩ := (hs.hierarchy_eq_ok_iff hd).mp h
    exact ⟨cls, as, hd, hl, hchain⟩

/-- **The hierarchy of an ancestor is the rest of the hierarchy after it**, however the ancestor is
written. -/
theorem hierarchy_of_getElem? (hs : s.FromExpanded) {a b ancestor : String} {chain : List String}
    (h : s.hierarchy a = .ok chain) {i : Nat} (hi : chain[i]? = some ancestor)
    (hb : s.namespaces.same ancestor b = true) : s.hierarchy b = .ok (chain.drop (i + 1)) := by
  obtain ⟨cls, as, -, hl, rfl⟩ := hs.exists_lineage_of_hierarchy h
  rw [List.getElem?_map] at hi
  obtain ⟨found, hfound, rfl⟩ := Option.map_eq_some_iff.mp hi
  have hd : s.Declares b found := ⟨hl.mem_classes found (List.mem_of_getElem? hfound), hb⟩
  exact (hs.hierarchy_eq_ok_iff hd).mpr ⟨_, hl.drop hfound, List.map_drop.symm⟩

/-! ## The order -/

/-- **When one identifier is below another**: both denote the same, or the other denotes a class on
the line of the first. -/
theorem isSubclassOf_iff (hs : s.FromExpanded) {a b : String} :
    s.isSubclassOf a b = .ok true ↔
      s.namespaces.same a b = true ∨ ∃ cls as ancestor, s.Declares a cls ∧ s.Lineage cls as ∧
        ancestor ∈ as ∧ s.Declares b ancestor := by
  refine ⟨hs.isSubclassOf_cases, ?_⟩
  unfold isSubclassOf
  rintro (hsame | ⟨cls, as, ancestor, hda, hl, hmem, hdb⟩)
  · rw [if_pos hsame]
  · have hany : ((as.map EntityClass.id).any fun id => s.namespaces.same id b) = true :=
      List.any_eq_true.mpr ⟨ancestor.id, List.mem_map_of_mem hmem, hdb.2⟩
    split
    · rfl
    · rw [hs.entityClass?_eq_some_iff.mpr hda, (hs.hierarchy_eq_ok_iff hda).mpr ⟨as, hl, rfl⟩]
      simp only [Option.isNone_some, Bool.false_eq_true, if_false, Except.map, hany]

/-- What is below an identifier is below what the identifier is below. -/
theorem isSubclassOf_trans (hs : s.FromExpanded) {a b c : String}
    (h : s.isSubclassOf a b = .ok true) (h' : s.isSubclassOf b c = .ok true) :
    s.isSubclassOf a c = .ok true := by
  rw [hs.isSubclassOf_iff] at h h' ⊢
  rcases h with hab | ⟨cls, as, mid, hda, hl, hmid, hdb⟩
  · rcases h' with hbc | ⟨cls, bs, top, hdb, hl, htop, hdc⟩
    · rw [Namespaces.same_iff] at hab hbc ⊢
      exact Or.inl (hab.trans hbc)
    · exact Or.inr ⟨cls, bs, top, (hs.declares_congr hab cls).mpr hdb, hl, htop, hdc⟩
  · rcases h' with hbc | ⟨mid', bs, top, hdb', hl', htop, hdc⟩
    · exact Or.inr ⟨cls, as, mid, hda, hl, hmid, (hs.declares_congr hbc mid).mp hdb⟩
    · obtain rfl := hs.declares_unique hdb hdb'
      obtain ⟨cs, hl'', hsuffix⟩ := hl.exists_suffix hmid
      obtain rfl := hs.lineage_unique hl' hl''
      exact Or.inr ⟨cls, as, top, hda, hl, hsuffix.mem (List.mem_cons_of_mem mid htop), hdc⟩

/-- Identifiers that are below each other denote the same. -/
theorem isSubclassOf_antisymm (hs : s.FromExpanded) {a b : String}
    (h : s.isSubclassOf a b = .ok true) (h' : s.isSubclassOf b a = .ok true) :
    s.namespaces.canonical a = s.namespaces.canonical b := by
  rcases hs.isSubclassOf_iff.mp h with hab | ⟨cls, as, above, hda, hl, habove, hdb⟩
  · exact Namespaces.same_iff.mp hab
  · rcases hs.isSubclassOf_iff.mp h' with hba | ⟨above', bs, cls', hdb', hl', hcls, hda'⟩
    · exact (Namespaces.same_iff.mp hba).symm
    · -- otherwise the class would be on its own line
      obtain rfl := hs.declares_unique hda hda'
      obtain rfl := hs.declares_unique hdb hdb'
      obtain ⟨cs, hl'', hsuffix⟩ := hl.exists_suffix habove
      obtain rfl := hs.lineage_unique hl' hl''
      exact absurd (hsuffix.mem (List.mem_cons_of_mem above hcls))
        (List.nodup_cons.mp (hs.lineage_nodup hl)).1

/-- **The order of classes.** For all identifiers, of classes that are defined or not and in any
spelling, being below is reflexive, transitive and, up to the spelling, antisymmetric. An ancestor
in a hierarchy has the rest of that hierarchy as its own. -/
theorem isSubclassOf_order (hs : s.FromExpanded) :
    (∀ a, s.isSubclassOf a a = .ok true) ∧
    (∀ a b c, s.isSubclassOf a b = .ok true → s.isSubclassOf b c = .ok true →
      s.isSubclassOf a c = .ok true) ∧
    (∀ a b, s.isSubclassOf a b = .ok true → s.isSubclassOf b a = .ok true →
      s.namespaces.canonical a = s.namespaces.canonical b) ∧
    (∀ a chain, s.hierarchy a = .ok chain → ∀ (i : Nat) (ancestor : String),
      chain[i]? = some ancestor → ∀ b, s.namespaces.same ancestor b = true →
        s.hierarchy b = .ok (chain.drop (i + 1))) :=
  ⟨fun a => hs.isSubclassOf_iff.mpr (Or.inl (Namespaces.same_refl _ a)),
    fun _ _ _ => hs.isSubclassOf_trans, fun _ _ => hs.isSubclassOf_antisymm,
    fun _ _ h _ _ hi _ hb => hs.hierarchy_of_getElem? h hi hb⟩

end FromExpanded

end Schema

/-- Otters are mammals and mammals are animals. Beside them hens and eggs are each the parent of the
other, and the parent of the unicorns is not defined. -/
def faunaBuilder : SchemaBuilder :=
  let b := SchemaBuilder.empty.bind "ex" "urn:ex:"
  let b := b.addClass ((ClassDraft.named "ex:Otter").addParent "urn:ex:Mammal")
  let b := b.addClass ((ClassDraft.named "urn:ex:Mammal").addParent "ex:Animal")
  let b := b.addClass (ClassDraft.named "ex:Animal")
  let b := b.addClass ((ClassDraft.named "ex:Hen").addParent "ex:Egg")
  let b := b.addClass ((ClassDraft.named "ex:Egg").addParent "ex:Hen")
  b.addClass ((ClassDraft.named "ex:Unicorn").addParent "ex:Myth")

/-- Otters are animals because mammals are, and the hierarchy of mammals is the rest of that of
otters, in whatever spelling. That other hierarchies are broken does not matter. -/
theorem isSubclassOf_order_otter :
    ∃ s, faunaBuilder.build = .ok s ∧ s.FromExpanded ∧
      s.isSubclassOf "ex:Otter" "ex:Mammal" = .ok true ∧
      s.isSubclassOf "urn:ex:Mammal" "ex:Animal" = .ok true ∧
      s.isSubclassOf "ex:Otter" "ex:Animal" = .ok true ∧
      s.hierarchy "ex:Otter" = .ok ["urn:ex:Mammal", "urn:ex:Animal"] ∧
      s.hierarchy "ex:Mammal" = .ok ["urn:ex:Animal"] ∧
      s.hierarchy "ex:Hen" = .error (.cyclicHierarchy "urn:ex:Hen") ∧
      s.hierarchy "ex:Unicorn" = .error (.missingParent "urn:ex:Myth") := by
  have hfacts : (∀ binding ∈ faunaBuilder.namespaces.bindings.toList,
        isFullUri binding.2 = true) ∧
      ∃ s ∈ faunaBuilder.build.toOption,
        s.namespaces.same "urn:ex:Mammal" "ex:Mammal" = true ∧
        s.isSubclassOf "ex:Otter" "ex:Mammal" = .ok true ∧
        s.isSubclassOf "urn:ex:Mammal" "ex:Animal" = .ok true ∧
        s.isSubclassOf "ex:Mammal" "ex:Animal" = .ok true ∧
        s.hierarchy "ex:Otter" = .ok ["urn:ex:Mammal", "urn:ex:Animal"] ∧
        s.hierarchy "ex:Hen" = .error (.cyclicHierarchy "urn:ex:Hen") ∧
        s.hierarchy "ex:Unicorn" = .error (.missingParent "urn:ex:Myth") := by
    decide +kernel
  obtain ⟨hbindings, s, hmem, hsame, hotter, hmammal, hmammal', hchain, hhen, hunicorn⟩ := hfacts
  have hbuild : faunaBuilder.build = .ok s := eq_ok_of_mem_toOption hmem
  have hs : s.FromExpanded := SchemaBuilder.fromExpanded_of_build hbuild hbindings
  obtain ⟨-, htrans, -, hrest⟩ := Schema.FromExpanded.isSubclassOf_order hs
  exact ⟨s, hbuild, hs, hotter, hmammal, htrans _ _ _ hotter hmammal', hchain,
    hrest _ _ hchain 0 _ rfl _ hsame, hhen, hunicorn⟩

end EntityGraph
