import EntityGraph.Proofs.Grammar
import EntityGraph.Proofs.Idempotence

/-!
# Numbered constraints

A builder numbers the constraints that are started with it, one sequence for all classes, and a
constraint that is dropped uses up its number. The number is the tail of the identifier, and
expansion does not touch it: so two constraints keep apart, whichever classes they belong to and
however these are spelled.

Results:
* `Namespaces.expand_append_eq_ok_iff`: what stands behind an identifier, without colon and slash,
  stands behind its expansion.
* `SchemaBuilder.constraintId_injective`: the number is read back from the identifier.
* `SchemaBuilder.expand_constraintId_iff`: an expanded constraint is numbered as it was written.
* `SchemaBuilder.generated_issued`: the identifiers that a series of calls generates.
* `SchemaBuilder.ids_run`: the identifiers of the entities that it leaves.
* `SchemaBuilder.exists_duplicates_of_build`: two entities that a build is refused for.
* `SchemaBuilder.generated_apart`: generated identifiers never collide, and a build that is refused
  for a duplicate has one that was given by hand.
-/

namespace EntityGraph

namespace Text

/-- A part whose last character does not follow begins where it began before. -/
theorem isPrefixOf_append_eq {part l t : List Char} (hne : part ≠ [])
    (hlast : ∀ c ∈ part.getLast?, c ∉ t) : part.isPrefixOf (l ++ t) = part.isPrefixOf l := by
  rw [Bool.eq_iff_iff, List.isPrefixOf_iff_prefix, List.isPrefixOf_iff_prefix]
  refine ⟨fun h => ?_, fun h => h.trans (List.prefix_append l t)⟩
  by_cases hlength : part.length ≤ l.length
  · exact List.prefix_of_prefix_length_le h (List.prefix_append l t) hlength
  · -- the part reaches beyond the list, and ends in what follows
    obtain ⟨more, rfl⟩ := List.prefix_of_prefix_length_le (List.prefix_append l t) h (by omega)
    have hmore : more ≠ [] := by
      rintro rfl
      simp at hlength
    have hbegin : more <+: t := (List.prefix_append_right_inj l).mp h
    rw [List.getLast?_append_of_ne_nil _ hmore, List.getLast?_eq_some_getLast hmore] at hlast
    exact absurd (hbegin.subset (List.getLast_mem hmore)) (hlast _ rfl)

/-- A part whose last character does not follow occurs where it occurred before. -/
theorem occursIn_append_eq {part l t : List Char} (hne : part ≠ [])
    (hlast : ∀ c ∈ part.getLast?, c ∉ t) : occursIn part (l ++ t) = occursIn part l := by
  induction l with
  | cons c l ih =>
    rw [List.cons_append, occursIn, occursIn, ih, ← List.cons_append,
      isPrefixOf_append_eq hne hlast]
  | nil =>
    rw [List.nil_append, occursIn, List.isEmpty_eq_false_iff.mpr hne]
    induction t with
    | nil => rw [occursIn, List.isEmpty_eq_false_iff.mpr hne]
    | cons c t ih =>
      have hbegin : part.isPrefixOf ([] ++ c :: t) = part.isPrefixOf [] :=
        isPrefixOf_append_eq hne hlast
      have hnil : part.isPrefixOf [] = false := by
        cases part with
        | nil => exact absurd rfl hne
        | cons _ _ => rfl
      rw [List.nil_append, hnil] at hbegin
      rw [occursIn, hbegin, ih fun c hc hmem => hlast c hc (List.mem_cons_of_mem _ hmem)]
      rfl

end Text

namespace Namespaces

variable {ns : Namespaces} {a t u : String}

/-- What stands behind an identifier does not make it a full URI, without colon and slash. -/
theorem isFullUri_append_eq (hcolon : ':' ∉ t.toList) (hslash : '/' ∉ t.toList) :
    isFullUri (a ++ t) = isFullUri a := by
  unfold isFullUri Text.contains Text.startsWith
  rw [String.toList_append, Text.occursIn_append_eq (by decide),
    Text.isPrefixOf_append_eq (by decide)]
  · rintro c hc
    obtain rfl : ':' = c := Option.some.inj hc
    exact hcolon
  · rintro c hc
    obtain rfl : '/' = c := Option.some.inj hc
    exact hslash

/-- **What stands behind an identifier stands behind its expansion**, without colon and slash. -/
theorem expand_append_eq_ok_iff (hcolon : ':' ∉ t.toList) (hslash : '/' ∉ t.toList) :
    ns.expand (a ++ t) = .ok u ↔ ∃ v, ns.expand a = .ok v ∧ u = v ++ t := by
  unfold expand
  rw [isFullUri_append_eq hcolon hslash]
  by_cases hfull : isFullUri a = true
  · simp [hfull, eq_comm]
  rw [if_neg hfull, if_neg hfull]
  cases hcut : Text.cut? ':' a with
  | some parts =>
    obtain ⟨label, rest⟩ := parts
    rw [Text.cut?_append_of_some hcut]
    dsimp only
    cases ns.expansion? label <;> simp [eq_comm, String.append_assoc]
  | none =>
    have hnone : Text.cut? ':' (a ++ t) = none := by
      rw [Text.cut?_eq_none_iff] at hcut ⊢
      rw [String.toList_append, List.mem_append, not_or]
      exact ⟨hcut, hcolon⟩
    rw [hnone]
    dsimp only
    cases ns.expansion? bareLabel <;> simp [eq_comm, String.append_assoc]

end Namespaces

/-! ## Pairs -/

theorem exists_pair_of_sublist_map {α β : Type} {f : α → β} {a b : β} {l : List α}
    (h : [a, b].Sublist (l.map f)) : ∃ x y, [x, y].Sublist l ∧ f x = a ∧ f y = b := by
  obtain ⟨pair, hsub, heq⟩ := List.sublist_map_iff.mp h
  obtain ⟨x, rest, rfl, hx, hrest⟩ := List.map_eq_cons_iff.mp heq.symm
  obtain ⟨y, rfl, hy⟩ := List.map_eq_singleton_iff.mp hrest
  exact ⟨x, y, hsub, hx, hy⟩

theorem pair_sublist {α : Type} {a b : α} {before after : List α} (ha : a ∈ before) :
    [a, b].Sublist (before ++ b :: after) :=
  (List.singleton_sublist.mpr ha).append (List.singleton_sublist.mpr List.mem_cons_self)

/-- Two entities whose identifiers an expansion makes equal. -/
theorem Collection.exists_duplicates_of_expand {c c' : Collection} {id : String}
    (h : c.expand = ⟨c', some (.duplicateEntity id)⟩) :
    ∃ e e', [e, e'].Sublist c.entities ∧ c.namespaces.expand e.id = .ok id ∧
      c.namespaces.expand e'.id = .ok id := by
  obtain ⟨before, e', after, done, hes, hfails, -⟩ := expand_eq_error_iff.mp h
  obtain ⟨hdone, -, hhalts⟩ := hfails
  generalize hduplicate : EntityError.duplicateEntity id = err at hhalts
  cases hhalts with
  | unknownLabel _ => cases hduplicate
  | @duplicate a' ha' hmem =>
    -- the identifier is taken by the expansion of an entity before
    obtain rfl := EntityError.duplicateEntity.inj hduplicate
    obtain ⟨a, ha, hid⟩ := List.mem_map.mp hmem
    obtain ⟨e, he, hexpand⟩ := exists_mem_of_forall₂ hdone.flip ha
    refine ⟨e, e', hes ▸ pair_sublist he, ?_, (Entity.expand_eq_iff.mp ha').1⟩
    rw [← hid]
    exact (Entity.expand_eq_iff.mp hexpand).1

namespace SchemaBuilder

/-! ## Identifiers with a number -/

/-- What stands behind the class. -/
theorem constraintId_eq (cls : String) (n : Nat) :
    constraintId cls n = cls ++ ("-constraint-" ++ toString n) := by
  rw [constraintId, String.append_assoc]

theorem toList_number (n : Nat) : (toString n).toList = Nat.toDigits 10 n := Nat.toList_repr

theorem not_mem_number {c : Char} (hc : c.isDigit = false) (n : Nat) : c ∉ (toString n).toList := by
  intro h
  rw [toList_number] at h
  rw [Nat.isDigit_of_mem_toDigits (by decide) (by decide) h] at hc
  cases hc

/-- **The number is read back from the identifier**, behind its last hyphen. -/
theorem constraintId_injective {cls cls' : String} {n n' : Nat}
    (h : constraintId cls n = constraintId cls' n') : n = n' := by
  have hcut (cls : String) (n : Nat) : Text.cutList? '-' (constraintId cls n).toList.reverse =
      some ((toString n).toList.reverse, (cls ++ "-constraint").toList.reverse) := by
    refine Text.cutList?_eq_some_iff.mpr ⟨?_, ?_⟩
    · simp [constraintId]
    · rw [List.mem_reverse]
      exact not_mem_number (by decide) n
  have heq := hcut cls n
  rw [h, hcut] at heq
  have hdigits := List.reverse_injective (Prod.mk.inj (Option.some.inj heq)).1
  rw [toList_number, toList_number] at hdigits
  rw [← Nat.ofDigitChars_ten_toDigits (n := n), ← hdigits, Nat.ofDigitChars_ten_toDigits]

/-- **An expanded constraint is numbered as it was written**: its identifier is the one of the
expanded class. -/
theorem expand_constraintId_iff {ns : Namespaces} {cls u : String} {n : Nat} :
    ns.expand (constraintId cls n) = .ok u ↔
      ∃ v, ns.expand cls = .ok v ∧ u = constraintId v n := by
  have hplain (c : Char) (hc : c.isDigit = false) (hconstraint : c ∉ "-constraint-".toList) :
      c ∉ ("-constraint-" ++ toString n).toList := by
    rw [String.toList_append, List.mem_append, not_or]
    exact ⟨hconstraint, not_mem_number hc n⟩
  simp only [constraintId_eq]
  exact Namespaces.expand_append_eq_ok_iff (hplain ':' (by decide) (by decide))
    (hplain '/' (by decide) (by decide))

/-- Two identifiers differ as they are written, and after expansion by any table. -/
def Apart (a b : String) : Prop :=
  a ≠ b ∧ ∀ (ns : Namespaces) u, ns.expand a = .ok u → ns.expand b ≠ .ok u

theorem apart_of_ne {n n' : Nat} (h : n ≠ n') (cls cls' : String) :
    Apart (constraintId cls n) (constraintId cls' n') := by
  refine ⟨fun heq => h (constraintId_injective heq), fun ns u hu hu' => ?_⟩
  obtain ⟨v, -, rfl⟩ := expand_constraintId_iff.mp hu
  obtain ⟨v', -, heq⟩ := expand_constraintId_iff.mp hu'
  exact h (constraintId_injective heq)

/-! ## Series of calls -/

/-- An attribute that a constraint under construction is given. -/
inductive Attribute where
  | name (predicate target : String)
  | bound (predicate : String) (bound : Int)
  | flag (predicate : String)

/-- A call of a builder, up to the end of the class or constraint that it starts. No constraint is
given another identifier. -/
inductive Call where
  | bind (label expansion : String)
  | entity (e : Entity)
  | cls (d : ClassDraft)
  | constraint (kind : Constraint.Kind) (cls : String) (attributes : List Attribute)
  /-- A constraint that is started and never finished. -/
  | dropped (kind : Constraint.Kind) (cls : String)

/-- Where an identifier comes from. -/
inductive Origin where
  /-- Given by hand, to an entity or a class. -/
  | named
  /-- Generated for a constraint that is finished. -/
  | finished
  /-- Generated for a constraint that is dropped. -/
  | dropped
  deriving DecidableEq

/-- An identifier and its origin. -/
structure Issued where
  origin : Origin
  id : String

/-- The identifiers that were generated, also those of dropped constraints. -/
def generated (is : List Issued) : List String :=
  (is.filter fun i => i.origin != .named).map Issued.id

/-- The identifiers that entities have. -/
def kept (is : List Issued) : List Issued := is.filter fun i => i.origin != .dropped

/-- Sets an attribute. -/
def Attribute.set (d : ConstraintDraft) : Attribute → ConstraintDraft
  | .name predicate target => d.setName predicate target
  | .bound predicate value => d.setBound predicate value
  | .flag predicate => d.setFlag predicate

theorem id_foldl_set (attributes : List Attribute) (d : ConstraintDraft) :
    (attributes.foldl Attribute.set d).entity.id = d.entity.id := by
  induction attributes generalizing d with
  | nil => rfl
  | cons a attributes ih =>
    rw [List.foldl_cons, ih]
    cases a <;> rfl

namespace Call

/-- The class of the constraint that a call starts. -/
def owner? : Call → Option String
  | .bind _ _ => none
  | .entity _ => none
  | .cls d => if d.isAbstract then some d.entity.id else none
  | .constraint _ owner _ => some owner
  | .dropped _ owner => some owner

/-- The builder after a call. -/
def run (b : SchemaBuilder) : Call → SchemaBuilder
  | .bind label expansion => b.bind label expansion
  | .entity e => b.addEntity e
  | .cls d => b.addClass d
  | .constraint kind owner attributes =>
    let (d, b) := b.startConstraint kind owner
    b.addConstraint (attributes.foldl Attribute.set d)
  | .dropped kind owner => (b.startConstraint kind owner).2

/-- The identifiers that a call issues, in order. -/
def issued (b : SchemaBuilder) : Call → List Issued
  | .bind _ _ => []
  | .entity e => [⟨.named, e.id⟩]
  | .cls d =>
    ⟨.named, d.entity.id⟩ ::
      if d.isAbstract then [⟨.finished, ((b.addEntity d.entity).addAbstract d.entity.id).1⟩] else []
  | .constraint kind owner _ => [⟨.finished, (b.startConstraint kind owner).1.entity.id⟩]
  | .dropped kind owner => [⟨.dropped, (b.startConstraint kind owner).1.entity.id⟩]

/-- **A call adds the entities whose identifiers it issues**, but for a dropped constraint. -/
theorem ids_run (b : SchemaBuilder) (c : Call) :
    (c.run b).entities.map Entity.id =
      b.entities.map Entity.id ++ (kept (c.issued b)).map Issued.id := by
  cases c with
  | bind _ _ => exact (List.append_nil _).symm
  | entity e => exact List.map_append
  | cls d =>
    cases hd : d.isAbstract <;>
      simp [run, issued, hd, addClass, addAbstract, startConstraint, addConstraint, addEntity, kept]
  | constraint kind owner attributes =>
    refine List.map_append.trans (congrArg (_ ++ [·]) ?_)
    exact id_foldl_set attributes _
  | dropped _ _ => exact (List.append_nil _).symm

/-- **A call that starts a constraint generates the next identifier.** -/
theorem generated_issued (b : SchemaBuilder) (c : Call) :
    generated (c.issued b) = (c.owner?.map fun owner => constraintId owner b.next).toList := by
  cases c with
  | bind _ _ | entity _ | constraint _ _ _ | dropped _ _ => rfl
  | cls d =>
    cases hd : d.isAbstract <;>
      simp only [issued, owner?, hd, if_true, Bool.false_eq_true, if_false]
    all_goals rfl

theorem next_run (b : SchemaBuilder) (c : Call) :
    (c.run b).next = b.next + c.owner?.toList.length := by
  cases c with
  | bind _ _ | entity _ | constraint _ _ _ | dropped _ _ => rfl
  | cls d =>
    cases hd : d.isAbstract <;>
      simp only [run, owner?, addClass, hd, if_true, Bool.false_eq_true, if_false]
    all_goals rfl

end Call

/-- The builder after a series of calls. -/
def run (b : SchemaBuilder) (calls : List Call) : SchemaBuilder := calls.foldl Call.run b

/-- The identifiers that a series of calls issues, in order. -/
def issued : SchemaBuilder → List Call → List Issued
  | _, [] => []
  | b, c :: calls => c.issued b ++ issued (c.run b) calls

/-- **The generated identifiers are numbered in the order of the calls**, whichever classes they are
made for. -/
theorem generated_issued (calls : List Call) (b : SchemaBuilder) :
    generated (issued b calls) =
      ((calls.filterMap Call.owner?).zipIdx b.next).map fun x => constraintId x.1 x.2 := by
  induction calls generalizing b with
  | nil => rfl
  | cons c calls ih =>
    have happend : generated (issued b (c :: calls)) =
        generated (c.issued b) ++ generated (issued (c.run b) calls) := by
      rw [issued, generated, List.filter_append, List.map_append, generated, generated]
    rw [happend, c.generated_issued, ih, c.next_run, List.filterMap_cons]
    cases c.owner? <;> rfl

/-- **The entities of a builder have the identifiers that its calls issued**, but for those of
dropped constraints. -/
theorem ids_run (calls : List Call) (b : SchemaBuilder) :
    (b.run calls).entities.map Entity.id =
      b.entities.map Entity.id ++ (kept (issued b calls)).map Issued.id := by
  induction calls generalizing b with
  | nil => exact (List.append_nil _).symm
  | cons c calls ih =>
    rw [run, List.foldl_cons, ← run, ih, c.ids_run, issued, kept, kept, kept, List.filter_append,
      List.map_append, List.append_assoc]

theorem pairwise_generated (calls : List Call) (b : SchemaBuilder) :
    (generated (issued b calls)).Pairwise Apart := by
  have hnumbers : (((calls.filterMap Call.owner?).zipIdx b.next).map Prod.snd).Nodup := by
    rw [List.zipIdx_map_snd]
    exact List.nodup_range'
  rw [generated_issued, List.pairwise_map]
  exact (List.pairwise_map.mp hnumbers).imp fun hne => apart_of_ne hne _ _

/-! ## Refused builds -/

/-- Two identifiers are the same, as they are written or after expansion. -/
def Meet (ns : Namespaces) (a b id : String) : Prop :=
  a = id ∧ b = id ∨ ns.expand a = .ok id ∧ ns.expand b = .ok id

theorem not_meet_of_apart {ns : Namespaces} {a b id : String} (h : Apart a b) :
    ¬ Meet ns a b id := by
  rintro (⟨rfl, hb⟩ | ⟨ha, hb⟩)
  · exact h.1 hb.symm
  · exact h.2 ns id ha hb

/-- **Two entities that a build is refused for.** -/
theorem exists_duplicates_of_build {b : SchemaBuilder} {id : String}
    (h : b.build = .error (.entity (.duplicateEntity id))) :
    ∃ e e', [e, e'].Sublist b.entities ∧ Meet b.namespaces e.id e'.id id := by
  unfold build at h
  split at h
  · rename_i err hadd
    obtain rfl : err = .duplicateEntity id := by simpa using h
    obtain ⟨before, e', after, hes, -, hmem, herr⟩ := Collection.addAll_eq_error hadd
    obtain ⟨e, he, hid⟩ := List.mem_map.mp hmem
    obtain rfl : id = e'.id := by simpa using herr
    exact ⟨e, e', hes ▸ pair_sublist he, .inl ⟨hid, rfl⟩⟩
  · rename_i c hadd
    obtain ⟨-, rfl⟩ := Collection.addAll_eq_ok_iff.mp hadd
    split at h
    · rename_i err hexpanded
      obtain rfl : err = .duplicateEntity id := by simpa using h
      obtain ⟨c', hexpand⟩ := Collection.expand_of_expanded hexpanded
      obtain ⟨e, e', hsub, hexpansions⟩ := Collection.exists_duplicates_of_expand hexpand
      exact ⟨e, e', hsub, .inr hexpansions⟩
    · cases h

/-- The builder that has been given nothing but a table. -/
def withNamespaces (ns : Namespaces) : SchemaBuilder := { namespaces := ns }

/-- **Generated identifiers never collide.** They are made of the class and a number, and so are
their expansions; and a build that is refused for a duplicate has two entities with the same
identifier, as written or after expansion, at least one of which was named by hand. -/
theorem generated_apart (ns : Namespaces) (calls : List Call) :
    generated (issued (withNamespaces ns) calls) =
      ((calls.filterMap Call.owner?).zipIdx.map fun x => constraintId x.1 x.2) ∧
    (generated (issued (withNamespaces ns) calls)).Pairwise Apart ∧
    (∀ (table : Namespaces) cls n u, table.expand (constraintId cls n) = .ok u ↔
      ∃ v, table.expand cls = .ok v ∧ u = constraintId v n) ∧
    ((withNamespaces ns).run calls).entities.map Entity.id =
      (kept (issued (withNamespaces ns) calls)).map Issued.id ∧
    ∀ id, ((withNamespaces ns).run calls).build = .error (.entity (.duplicateEntity id)) →
      ∃ x y, [x, y].Sublist (kept (issued (withNamespaces ns) calls)) ∧
        (x.origin = .named ∨ y.origin = .named) ∧
        Meet ((withNamespaces ns).run calls).namespaces x.id y.id id := by
  have hapart := pairwise_generated calls (withNamespaces ns)
  have hids := ids_run calls (withNamespaces ns)
  refine ⟨generated_issued calls _, hapart, fun _ _ _ _ => expand_constraintId_iff, hids,
    fun id hbuild => ?_⟩
  obtain ⟨e, e', hentities, hmeet⟩ := exists_duplicates_of_build hbuild
  have hpair : [e.id, e'.id].Sublist
      ((kept (issued (withNamespaces ns) calls)).map Issued.id) := by
    have := hentities.map Entity.id
    rw [hids] at this
    exact this
  obtain ⟨x, y, hsub, hx, hy⟩ := exists_pair_of_sublist_map hpair
  refine ⟨x, y, hsub, ?_, hx ▸ hy ▸ hmeet⟩
  by_contra hneither
  rw [not_or] at hneither
  have hgenerated : [x.id, y.id].Sublist (generated (issued (withNamespaces ns) calls)) := by
    have := (hsub.trans List.filter_sublist).filter fun i => i.origin != .named
    simp only [List.filter_cons, bne_iff_ne, ne_eq, hneither.1, hneither.2, not_false_eq_true,
      if_true, List.filter_nil] at this
    exact this.map Issued.id
  rw [← hx, ← hy] at hmeet
  exact not_meet_of_apart (List.pairwise_pair.mp (hapart.sublist hgenerated)) hmeet

/-- One class under two spellings, and an entity that is named like its last constraint. -/
def crossing : List Call := [
  .bind "ex" "http://x/",
  .cls (ClassDraft.named "ex:A").makeAbstract,
  .dropped .property "http://x/A",
  .constraint .property "ex:A" [.name Vocabulary.propertyClass "ex:p"],
  .entity { id := "http://x/A-constraint-2" }]

/-- The build is refused for the entity, and not for one of the constraints. -/
theorem generated_apart_crossing :
    generated (issued (withNamespaces .standard) crossing) =
      ["ex:A-constraint-0", "http://x/A-constraint-1", "ex:A-constraint-2"] ∧
    ((withNamespaces .standard).run crossing).build =
      .error (.entity (.duplicateEntity "http://x/A-constraint-2")) ∧
    ∃ x y, [x, y].Sublist (kept (issued (withNamespaces .standard) crossing)) ∧
      (x.origin = .named ∨ y.origin = .named) ∧
      Meet ((withNamespaces .standard).run crossing).namespaces x.id y.id
        "http://x/A-constraint-2" := by
  obtain ⟨hgenerated, -, -, -, hbuild⟩ := generated_apart .standard crossing
  have hrefused : failure? ((withNamespaces .standard).run crossing).build =
      some (.entity (.duplicateEntity "http://x/A-constraint-2")) := by decide +kernel
  have herror := failure?_eq_some_iff.mp hrefused
  exact ⟨hgenerated.trans (by decide +kernel), herror, hbuild _ herror⟩

end SchemaBuilder

end EntityGraph
