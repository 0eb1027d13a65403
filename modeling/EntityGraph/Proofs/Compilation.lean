import EntityGraph.Proofs.Declarations

/-!
# What becomes of a compact document

The classes and the constraints of a compact document come back from the schema that the document
compiles to, unless further properties or references of a block take the place of what the block
says of the class itself. Such a predicate may be written in another way than the class writes it
and meet it only when both are expanded. A class whose type is replaced is no class any more, and
may even be taken for a constraint.

Results:
* `OrderedMap.last?_over`: which of the entries that meet at a URI decides.
* `ClassBlock.keeps_iff`: a class entity says what its block says exactly if the further entries of
  the block are harmless.
* `Document.schema_keeps_iff`: the same for all classes and constraints of a document.
-/

namespace EntityGraph

/-! ## Entries written over others -/

namespace OrderedMap

section

variable {κ ν : Type} [DecidableEq κ]

theorem put_of_mem {k : κ} {v : ν} {l : List (κ × ν)} (hl : (l.map Prod.fst).Nodup)
    (h : k ∈ l.map Prod.fst) : put k v l = l.map fun e => (e.1, if e.1 = k then v else e.2) := by
  induction l with
  | nil => cases h
  | cons e l ih =>
    rw [List.map_cons, List.nodup_cons] at hl
    by_cases hk : e.1 = k
    · have hrest : l.map (fun e => (e.1, if e.1 = k then v else e.2)) = l := by
        refine (List.map_congr_left fun e' he' => ?_).trans (List.map_id l)
        have hne : e'.1 ≠ k := fun heq => hl.1 (hk ▸ heq ▸ List.mem_map_of_mem he')
        rw [if_neg hne]
        rfl
      rw [put, if_pos hk, List.map_cons, if_pos hk, hrest]
    · have hmem : k ∈ l.map Prod.fst := (List.mem_cons.mp h).resolve_left (Ne.symm hk)
      rw [put, if_neg hk, List.map_cons, if_neg hk, ih hl.2 hmem]

/-- Entries written over a map replace values in place, and new keys follow behind. -/
theorem toList_foldl_insert {l : List (κ × ν)} (hl : (l.map Prod.fst).Nodup)
    (m : OrderedMap κ ν) :
    (l.foldl (fun (m : OrderedMap κ ν) e => m.insert e.1 e.2) m).toList =
      m.toList.map (fun e => (e.1, (find e.1 l).getD e.2)) ++
        l.filter fun e => decide (e.1 ∉ m.keys) := by
  induction l generalizing m with
  | nil => simp [find]
  | cons e l ih =>
    obtain ⟨k, v⟩ := e
    rw [List.map_cons, List.nodup_cons] at hl
    have hnone : find k l = none := find_eq_none_iff.mpr hl.1
    rw [List.foldl_cons, ih hl.2]
    by_cases hk : k ∈ m.keys
    · have hkeys : (m.insert k v).keys = m.keys := by rw [keys_insert, if_pos hk]
      rw [hkeys, List.filter_cons_of_neg (by simpa using hk)]
      refine congrArg (· ++ _) ?_
      show (put k v m.toList).map _ = _
      rw [put_of_mem m.nodup hk, List.map_map]
      refine List.map_congr_left fun e _ => Prod.ext rfl ?_
      by_cases heq : e.1 = k
      · simp [find, heq, hnone]
      · simp [find, heq, Ne.symm heq]
    · have hlist : (m.insert k v).toList = m.toList ++ [(k, v)] := toList_insert_of_not_mem hk v
      have hfilter : l.filter (fun e => decide (e.1 ∉ (m.insert k v).keys)) =
          l.filter fun e => decide (e.1 ∉ m.keys) := by
        refine List.filter_congr fun e he => decide_eq_decide.mpr ?_
        have hmem : e.1 ∈ l.map Prod.fst := List.mem_map_of_mem he
        have hne : e.1 ≠ k := fun heq => hl.1 (heq ▸ hmem)
        rw [keys_insert, if_neg hk, List.mem_append, List.mem_singleton, not_or,
          and_iff_left hne]
      rw [hlist, hfilter, List.filter_cons_of_pos (by simpa using hk), List.map_append,
        List.append_assoc]
      refine congrArg₂ (· ++ ·) (List.map_congr_left fun e he => Prod.ext rfl ?_) ?_
      · have hne : k ≠ e.1 := fun heq => hk (heq ▸ List.mem_map_of_mem he)
        simp [find, hne]
      · simp [hnone]

/-- Entries written behind others: the old ones with their new values, and then the new ones. -/
theorem toList_ofList_append {own l : List (κ × ν)} (hown : (own.map Prod.fst).Nodup)
    (hl : (l.map Prod.fst).Nodup) :
    (ofList (own ++ l)).toList = own.map (fun e => (e.1, (find e.1 l).getD e.2)) ++
      l.filter fun e => decide (e.1 ∉ own.map Prod.fst) := by
  have h := toList_foldl_insert hl (ofList own)
  rw [toList_ofList_of_nodup hown, keys_ofList_of_nodup hown] at h
  unfold ofList
  rwa [List.foldl_append]

end

variable {α β ν : Type}

/-- The one of further entries that decides at a predicate which is written in full already: the
last whose key is written in another way, or else the one written alike. The latter stands where
the entry was that it replaces, in front of all others. -/
def deciding? (ns : Namespaces) (extras : OrderedMap String α) (p : String) : Option α :=
  ((extras.toList.reverse.find? fun e => decide (e.1 ≠ p ∧ ns.expand e.1 = .ok p)).map
    Prod.snd).or (extras.get? p)

/-- Some entry decides at a predicate exactly if some entry expands to it. -/
theorem deciding?_eq_none_iff {ns : Namespaces} {extras : OrderedMap String α} {p : String}
    (hp : isFullUri p = true) : extras.deciding? ns p = none ↔ extras.last? ns p = none := by
  unfold deciding? last?
  simp only [Option.or_eq_none_iff, Option.map_eq_none_iff, List.find?_eq_none,
    List.mem_reverse, decide_eq_true_eq]
  constructor
  · rintro ⟨hother, hsame⟩ e he hexp
    by_cases heq : e.1 = p
    · exact find_eq_none_iff.mp hsame (heq ▸ List.mem_map_of_mem he)
    · exact hother e he ⟨heq, hexp⟩
  · refine fun h => ⟨fun e he hexp => h e he hexp.2, find_eq_none_iff.mpr fun hmem => ?_⟩
    obtain ⟨e, he, rfl⟩ := List.mem_map.mp hmem
    exact h e he (Namespaces.expand_of_isFullUri hp)

section

variable {ns : Namespaces} {own : List (String × ν)} {p : String}

/-- Of the keys that expand to a URI only the URI itself may be one of those written in full. -/
theorem mem_map_fst_iff_of_expand (hfull : ∀ k ∈ own.map Prod.fst, isFullUri k = true) {k : String}
    (hk : ns.expand k = .ok p) : k ∈ own.map Prod.fst ↔ k = p ∧ p ∈ own.map Prod.fst := by
  constructor
  · intro hmem
    obtain rfl := Except.ok.inj ((Namespaces.expand_of_isFullUri (hfull k hmem)).symm.trans hk)
    exact ⟨rfl, hmem⟩
  · rintro ⟨rfl, hmem⟩
    exact hmem

/-- Among entries whose keys are full URIs, whatever their values have become, the one at a URI is
the one with this key. -/
theorem last_of_old (hown : (own.map Prod.fst).Nodup)
    (hfull : ∀ k ∈ own.map Prod.fst, isFullUri k = true) (g : String → ν → ν) :
    ((own.map fun e => (e.1, g e.1 e.2)).reverse.find? fun e =>
      decide (ns.expand e.1 = .ok p)).map Prod.snd = (find p own).map (g p) := by
  have hkeys : (own.map fun e => (e.1, g e.1 e.2)).map Prod.fst = own.map Prod.fst := by
    rw [List.map_map]
    rfl
  rw [← find_map]
  exact last?_of_isFullUri (m := ⟨_, hkeys ▸ hown⟩) (fun k hk => hfull k (hkeys ▸ hk)) p

/-- Among entries under new keys, the one at a URI is the last further entry under a new key that
expands to it. -/
theorem last_of_new (extras : OrderedMap String α) (f : α → ν) :
    (((extras.toList.map fun e => (e.1, f e.2)).filter fun e =>
      decide (e.1 ∉ own.map Prod.fst)).reverse.find? fun e =>
        decide (ns.expand e.1 = .ok p)).map Prod.snd =
      ((extras.toList.reverse.find? fun e =>
        decide (e.1 ∉ own.map Prod.fst ∧ ns.expand e.1 = .ok p)).map Prod.snd).map f := by
  rw [← List.filter_reverse, List.find?_filter, ← List.map_reverse, List.find?_map,
    Option.map_map, Option.map_map]
  simp only [Bool.decide_and, Bool.decide_eq_true, Function.comp_def]

/-- **Which of the entries that meet at a URI decides**, when further entries are written over
entries whose keys are full URIs. -/
theorem last?_over (hown : (own.map Prod.fst).Nodup)
    (hfull : ∀ k ∈ own.map Prod.fst, isFullUri k = true) (extras : OrderedMap String α)
    (f : α → ν) (p : String) :
    (ofList (own ++ extras.toList.map fun e => (e.1, f e.2))).last? ns p =
      if p ∈ own.map Prod.fst then ((extras.deciding? ns p).map f).or (find p own)
      else (extras.last? ns p).map f := by
  have hnodup : ((extras.toList.map fun e => (e.1, f e.2)).map Prod.fst).Nodup := by
    rw [List.map_map]
    exact extras.nodup
  have hfind : find p (extras.toList.map fun e => (e.1, f e.2)) = (extras.get? p).map f :=
    find_map (fun _ => f) p extras.toList
  have hnew : ∀ e : String × α, (e.1 ∉ own.map Prod.fst ∧ ns.expand e.1 = .ok p) ↔
      ¬ (e.1 = p ∧ p ∈ own.map Prod.fst) ∧ ns.expand e.1 = .ok p :=
    fun e => and_congr_left fun he => not_congr (mem_map_fst_iff_of_expand hfull he)
  unfold last?
  rw [toList_ofList_append hown hnodup, List.reverse_append, List.find?_append, Option.map_or,
    last_of_old hown hfull fun k v => (find k _).getD v, last_of_new, hfind]
  simp only [hnew]
  by_cases hp : p ∈ own.map Prod.fst
  · obtain ⟨v, hv⟩ := Option.ne_none_iff_exists'.mp fun hnone => find_eq_none_iff.mp hnone hp
    rw [if_pos hp, hv]
    simp only [and_true, hp, deciding?]
    cases (extras.toList.reverse.find? fun e => decide (e.1 ≠ p ∧ ns.expand e.1 = .ok p)) with
    | some e => rfl
    | none => cases extras.get? p <;> rfl
  · rw [if_neg hp, find_eq_none_iff.mpr hp, Option.map_none, Option.or_none]
    simp only [hp, and_false, not_false_eq_true, true_and]

end

/-- **Further entries only add to those they are written over exactly if none of them changes what
it decides on.** -/
theorem adds_iff {ns : Namespaces} {read : ν → Except UnknownLabel β} {own : List (String × ν)}
    (hown : (own.map Prod.fst).Nodup) (hfull : ∀ p ∈ own.map Prod.fst, isFullUri p = true)
    {extras : OrderedMap String α} {f : α → ν} {t m : OrderedMap String β}
    (ht : (ofList (own ++ extras.toList.map fun e => (e.1, f e.2))).Expands ns read t)
    (hm : (ofList own).Expands ns read m) :
    (∀ p, t.get? p =
        (m.get? p).or ((extras.last? ns p).bind fun a => (read (f a)).toOption)) ↔
      ∀ p ∈ own.map Prod.fst, ∀ a, extras.deciding? ns p = some a →
        (read (f a)).toOption = m.get? p := by
  have hm' : ∀ p, m.get? p = (find p own).bind fun v => (read v).toOption := by
    intro p
    rw [hm.get?_eq, last?_of_isFullUri (by rwa [keys_ofList_of_nodup hown]), get?,
      toList_ofList_of_nodup hown]
  refine forall_congr' fun p => ?_
  rw [ht.get?_eq, last?_over hown hfull]
  by_cases hp : p ∈ own.map Prod.fst
  · obtain ⟨v, hv⟩ := Option.ne_none_iff_exists'.mp fun hnone => find_eq_none_iff.mp hnone hp
    obtain ⟨w, hw⟩ : ∃ w, read v = .ok w :=
      (exists_expands_iff.mp ⟨_, hm⟩ (p, v) (by
        rw [toList_ofList_of_nodup hown]
        exact mem_of_find hv)).2
    rw [if_pos hp, hm', hv, Option.bind_some, hw]
    cases extras.deciding? ns p <;> simp [hp, hw, Except.toOption]
  · have hnone : m.get? p = none := by
      rw [hm', find_eq_none_iff.mpr hp, Option.bind_none]
    rw [if_neg hp, hnone, Option.none_or, Option.bind_map]
    exact iff_of_true rfl fun hmem => absurd hmem hp

end OrderedMap

/-! ## Classes -/

namespace Compact

open OrderedMap (given)

namespace ClassBlock

/-- The block without its further properties and references. -/
def bare (b : ClassBlock) : ClassBlock := { b with props := ∅, refs := ∅ }

/-- A class is what its block says: it has the identifier and the parents of the block, and further
properties and references are only added to what the class has without them. -/
structure Keeps (ns : Namespaces) (b : ClassBlock) (cls : EntityClass) : Prop where
  id : ns.expand b.id = .ok cls.id
  parents : b.superclasses.mapM ns.expand = .ok cls.parents
  properties : ∀ p, cls.entity.property? p =
    ((b.bare.entity.expand ns).value.property? p).or ((b.props.last? ns p).map .one)
  references : ∀ p, cls.entity.reference? p =
    ((b.bare.entity.expand ns).value.reference? p).or
      ((b.refs.last? ns p).bind fun target => (ns.expand target).toOption.map .one)

/-- The further properties and references of a block leave what it says of the class: where one of
them decides, it says the same. -/
structure Harmless (ns : Namespaces) (b : ClassBlock) : Prop where
  type : ∀ target, b.refs.deciding? ns Vocabulary.rdfType = some target →
    ns.expand target = .ok Vocabulary.entityClassType
  parents : ∀ target, b.refs.deciding? ns Vocabulary.subClassOf = some target →
    ∃ uri, ns.expand target = .ok uri ∧ b.superclasses.mapM ns.expand = .ok [uri]
  label : ∀ text v, b.label = some text → b.props.deciding? ns Vocabulary.label = some v →
    v = .string text
  description : ∀ text v, b.description = some text →
    b.props.deciding? ns Vocabulary.description = some v → v = .string text

/-! ### The class without further entries -/

theorem bare_entity (b : ClassBlock) : b.bare.entity =
    { id := b.id
      properties := .ofList (given b.texts)
      references := .ofList (given b.ties) } := by
  unfold entity
  rw [show b.bare.props.toList = [] from rfl, show b.bare.refs.toList = [] from rfl, List.map_nil,
    List.append_nil, List.map_nil, List.append_nil]
  rfl

theorem nodup_given_texts (b : ClassBlock) : ((given b.texts).map Prod.fst).Nodup :=
  b.nodup_texts.sublist (OrderedMap.map_fst_given_sublist _)

theorem nodup_given_ties (b : ClassBlock) : ((given b.ties).map Prod.fst).Nodup :=
  b.nodup_ties.sublist (OrderedMap.map_fst_given_sublist _)

theorem full_given_texts (b : ClassBlock) :
    ∀ p ∈ (given b.texts).map Prod.fst, isFullUri p = true :=
  fun p hp => b.full_texts p ((OrderedMap.map_fst_given_sublist _).subset hp)

theorem full_given_ties (b : ClassBlock) :
    ∀ p ∈ (given b.ties).map Prod.fst, isFullUri p = true :=
  fun p hp => b.full_ties p ((OrderedMap.map_fst_given_sublist _).subset hp)

theorem fullKeys_bare (b : ClassBlock) : b.bare.entity.FullKeys := by
  rw [bare_entity]
  constructor
  · rw [OrderedMap.keys_ofList_of_nodup b.nodup_given_texts]
    exact b.full_given_texts
  · rw [OrderedMap.keys_ofList_of_nodup b.nodup_given_ties]
    exact b.full_given_ties

theorem property?_bare (b : ClassBlock) (p : String) :
    b.bare.entity.property? p = (OrderedMap.find p b.texts).join := by
  rw [bare_entity]
  exact OrderedMap.get?_ofList_given b.nodup_texts p

theorem reference?_bare (b : ClassBlock) (p : String) :
    b.bare.entity.reference? p = (OrderedMap.find p b.ties).join := by
  rw [bare_entity]
  exact OrderedMap.get?_ofList_given b.nodup_ties p

/-- Without further entries a class expands as soon as its identifier and its parents do. -/
theorem exists_expand_bare {b : ClassBlock} {ns : Namespaces} {id : String} {uris : List String}
    (hid : ns.expand b.id = .ok id) (hparents : b.superclasses.mapM ns.expand = .ok uris) :
    ∃ e, b.bare.entity.expand ns = ⟨e, none⟩ := by
  have hfull := b.fullKeys_bare
  refine Entity.exists_expand_eq_iff.mpr ⟨⟨id, hid⟩, ?_, ?_⟩
  · refine OrderedMap.exists_expands_iff.mpr fun e he => ⟨⟨e.1, ?_⟩, e.2, rfl⟩
    exact Namespaces.expand_of_isFullUri (hfull.properties e.1 (List.mem_map_of_mem he))
  · refine OrderedMap.exists_expands_iff.mpr fun e he => ⟨⟨e.1, ?_⟩, ?_⟩
    · exact Namespaces.expand_of_isFullUri (hfull.references e.1 (List.mem_map_of_mem he))
    · rw [bare_entity, OrderedMap.toList_ofList_of_nodup b.nodup_given_ties] at he
      have hmem := OrderedMap.mem_given.mp he
      unfold ties at hmem
      rcases List.mem_cons.mp hmem with heq | hmem
      · obtain ⟨-, hslot⟩ := Prod.mk.inj heq
        rw [Option.some.inj hslot, Slot.mapE,
          Namespaces.expand_of_isFullUri isFullUri_entityClassType]
        exact ⟨_, rfl⟩
      · obtain ⟨-, hslot⟩ := Prod.mk.inj (List.mem_singleton.mp hmem)
        exact (exists_mapE_iff hslot.symm).mpr ⟨uris, hparents⟩

theorem mapE_one_eq_some_iff {ns : Namespaces} {target uri : String} :
    ((Slot.one target).mapE ns.expand).toOption = some (.one uri) ↔
      ns.expand target = .ok uri := by
  rw [Slot.mapE]
  cases ns.expand target <;> simp [Except.map, Except.toOption]

theorem reference?_rdfType_of_bare {b : ClassBlock} {ns : Namespaces} {own : Entity}
    (hown : b.bare.entity.expand ns = ⟨own, none⟩) :
    own.reference? Vocabulary.rdfType = some (.one Vocabulary.entityClassType) := by
  have hexp : ns.expand Vocabulary.entityClassType = .ok Vocabulary.entityClassType :=
    Namespaces.expand_of_isFullUri isFullUri_entityClassType
  rw [b.fullKeys_bare.reference?_expand hown, reference?_bare]
  exact mapE_one_eq_some_iff.mpr hexp

theorem reference?_subClassOf_of_bare {b : ClassBlock} {ns : Namespaces} {own : Entity}
    {uris : List String} (hown : b.bare.entity.expand ns = ⟨own, none⟩)
    (huris : b.superclasses.mapM ns.expand = .ok uris) :
    own.reference? Vocabulary.subClassOf = parents? uris := by
  rw [b.fullKeys_bare.reference?_expand hown, reference?_bare]
  exact mapE_parents? huris

/-! ### What further entries may change -/

/-- What the texts of a block ask of its further properties. -/
theorem texts_iff {b : ClassBlock} {ns : Namespaces} :
    (∀ p ∈ (given b.texts).map Prod.fst, ∀ v, b.props.deciding? ns p = some v →
        some (Slot.one v) = b.bare.entity.property? p) ↔
      (∀ text v, b.label = some text → b.props.deciding? ns Vocabulary.label = some v →
        v = .string text) ∧
      ∀ text v, b.description = some text →
        b.props.deciding? ns Vocabulary.description = some v → v = .string text := by
  have hlabel : b.bare.entity.property? Vocabulary.label =
      b.label.map fun text => .one (.string text) := by
    rw [property?_bare]
    rfl
  have hdescription : b.bare.entity.property? Vocabulary.description =
      b.description.map fun text => .one (.string text) := by
    rw [property?_bare]
    rfl
  have hmem : ∀ p, p ∈ (given b.texts).map Prod.fst ↔
      (p = Vocabulary.label ∧ b.label.isSome) ∨
        (p = Vocabulary.description ∧ b.description.isSome) := by
    intro p
    unfold texts
    cases b.label <;> cases b.description <;> simp [given]
  constructor
  · intro h
    constructor
    · intro text v htext hv
      have := h _ ((hmem _).mpr (Or.inl ⟨rfl, by rw [htext]; rfl⟩)) v hv
      rw [hlabel, htext] at this
      simpa using this
    · intro text v htext hv
      have := h _ ((hmem _).mpr (Or.inr ⟨rfl, by rw [htext]; rfl⟩)) v hv
      rw [hdescription, htext] at this
      simpa using this
  · rintro ⟨h, h'⟩ p hp v hv
    rcases (hmem p).mp hp with ⟨rfl, hsome⟩ | ⟨rfl, hsome⟩
    · obtain ⟨text, htext⟩ := Option.isSome_iff_exists.mp hsome
      rw [hlabel, htext, h text v htext hv]
      rfl
    · obtain ⟨text, htext⟩ := Option.isSome_iff_exists.mp hsome
      rw [hdescription, htext, h' text v htext hv]
      rfl

/-- What the type and the parents of a block ask of its further references. -/
theorem ties_iff {b : ClassBlock} {ns : Namespaces} {own : Entity} {uris : List String}
    (hown : b.bare.entity.expand ns = ⟨own, none⟩)
    (huris : b.superclasses.mapM ns.expand = .ok uris) :
    (∀ p ∈ (given b.ties).map Prod.fst, ∀ target, b.refs.deciding? ns p = some target →
        ((Slot.one target).mapE ns.expand).toOption = own.reference? p) ↔
      (∀ target, b.refs.deciding? ns Vocabulary.rdfType = some target →
        ns.expand target = .ok Vocabulary.entityClassType) ∧
      (b.superclasses ≠ [] → ∀ target, b.refs.deciding? ns Vocabulary.subClassOf = some target →
        ∃ uri, ns.expand target = .ok uri ∧ uris = [uri]) := by
  have htype := reference?_rdfType_of_bare hown
  have hparents := reference?_subClassOf_of_bare hown huris
  have hmem : ∀ p, p ∈ (given b.ties).map Prod.fst ↔
      p = Vocabulary.rdfType ∨ (p = Vocabulary.subClassOf ∧ b.superclasses ≠ []) := by
    intro p
    unfold ties
    match b.superclasses with
    | [] => simp [given, parents?]
    | [_] => simp [given, parents?]
    | _ :: _ :: _ => simp [given, parents?]
  -- a single target is the slot of the parents exactly if it is the only parent
  have hone : b.superclasses ≠ [] → ∀ target,
      ((Slot.one target).mapE ns.expand).toOption = parents? uris →
      ∃ uri, ns.expand target = .ok uri ∧ uris = [uri] := by
    intro hne target h
    cases hexp : ns.expand target with
    | error err =>
      rw [Slot.mapE, hexp, eq_comm] at h
      have hlength := (mapM_eq_ok_iff.mp huris).length_eq
      rw [parents?_eq_none_iff.mp h] at hlength
      exact absurd (List.length_eq_zero_iff.mp hlength) hne
    | ok uri =>
      rw [mapE_one_eq_some_iff.mpr hexp, eq_comm] at h
      exact ⟨uri, rfl, parents?_eq_one_iff.mp h⟩
  constructor
  · intro h
    constructor
    · intro target htarget
      have := h _ ((hmem _).mpr (Or.inl rfl)) target htarget
      rw [htype] at this
      exact mapE_one_eq_some_iff.mp this
    · intro hne target htarget
      exact hone hne target ((h _ ((hmem _).mpr (Or.inr ⟨rfl, hne⟩)) target htarget).trans hparents)
  · rintro ⟨h, h'⟩ p hp target htarget
    rcases (hmem p).mp hp with rfl | ⟨rfl, hne⟩
    · rw [htype]
      exact mapE_one_eq_some_iff.mpr (h target htarget)
    · obtain ⟨uri, huri, rfl⟩ := h' hne target htarget
      rw [hparents]
      exact mapE_one_eq_some_iff.mpr huri

theorem last?_subClassOf (b : ClassBlock) (ns : Namespaces) :
    b.entity.references.last? ns Vocabulary.subClassOf =
      if b.superclasses = [] then (b.refs.last? ns Vocabulary.subClassOf).map .one
      else ((b.refs.deciding? ns Vocabulary.subClassOf).map .one).or
        (parents? b.superclasses) := by
  have hfind : OrderedMap.find Vocabulary.subClassOf (given b.ties) = parents? b.superclasses := by
    have h := OrderedMap.get?_ofList_given b.nodup_ties Vocabulary.subClassOf
    rwa [OrderedMap.get?, OrderedMap.toList_ofList_of_nodup b.nodup_given_ties] at h
  refine (OrderedMap.last?_over b.nodup_given_ties b.full_given_ties b.refs .one _).trans ?_
  rw [hfind]
  by_cases hnone : b.superclasses = []
  · rw [if_pos hnone, if_neg]
    rw [← OrderedMap.find_eq_none_iff, hfind, parents?_eq_none_iff]
    exact hnone
  · rw [if_neg hnone, if_pos]
    rw [← Decidable.not_not (p := _ ∈ _), ← OrderedMap.find_eq_none_iff, hfind,
      parents?_eq_none_iff]
    exact hnone

/-- The texts and the ties of a class are kept exactly if the further entries that decide on them
say the same. -/
theorem entries_kept_iff {b : ClassBlock} {ns : Namespaces} {e own : Entity}
    (h : b.entity.expand ns = ⟨e, none⟩) (hown : b.bare.entity.expand ns = ⟨own, none⟩) :
    ((∀ p, e.property? p = (own.property? p).or ((b.props.last? ns p).map .one)) ↔
      ∀ p ∈ (given b.texts).map Prod.fst, ∀ v, b.props.deciding? ns p = some v →
        some (Slot.one v) = b.bare.entity.property? p) ∧
    ((∀ p, e.reference? p = (own.reference? p).or
        ((b.refs.last? ns p).bind fun target => (ns.expand target).toOption.map .one)) ↔
      ∀ p ∈ (given b.ties).map Prod.fst, ∀ target, b.refs.deciding? ns p = some target →
        ((Slot.one target).mapE ns.expand).toOption = own.reference? p) := by
  obtain ⟨-, hproperties, hreferences, -⟩ := Entity.expand_eq_iff.mp h
  obtain ⟨-, hown₁, hown₂, -⟩ := Entity.expand_eq_iff.mp hown
  rw [bare_entity] at hown₁ hown₂
  constructor
  · have hadds := OrderedMap.adds_iff b.nodup_given_texts b.full_given_texts hproperties hown₁
    simp only [← b.fullKeys_bare.property?_expand hown, Option.map_eq_bind]
    exact hadds
  · have hadds := OrderedMap.adds_iff b.nodup_given_ties b.full_given_ties hreferences hown₂
    have hread : ∀ target, ((Slot.one target).mapE ns.expand).toOption =
        (ns.expand target).toOption.map .one := fun target => by
      rw [Slot.mapE]
      cases ns.expand target <;> rfl
    simp only [hread] at hadds ⊢
    exact hadds

/-- No further entry decides on the parents of a class that ends up without any. -/
theorem deciding?_subClassOf_eq_none {b : ClassBlock} {ns : Namespaces} {e : Entity}
    (h : b.entity.expand ns = ⟨e, none⟩) (hnone : b.superclasses = [])
    (hparents : (⟨e⟩ : EntityClass).parents = []) :
    b.refs.deciding? ns Vocabulary.subClassOf = none := by
  rw [OrderedMap.deciding?_eq_none_iff isFullUri_subClassOf]
  refine Option.eq_none_iff_forall_ne_some.mpr fun target htarget => ?_
  have hlast := b.last?_subClassOf ns
  rw [if_pos hnone, htarget] at hlast
  obtain ⟨slot, hread, hget⟩ := (Entity.expand_eq_iff.mp h).2.2.1.get?_of_last? hlast
  unfold EntityClass.parents Entity.referenceValues Entity.reference? at hparents
  rw [hget] at hparents
  rw [Slot.mapE] at hread
  cases hexp : ns.expand target with
  | error err =>
    rw [hexp] at hread
    cases hread
  | ok uri =>
    rw [hexp] at hread
    rw [← Except.ok.inj hread] at hparents
    cases hparents

/-- The parents of a block expand if the class does and the further entries are harmless. -/
theorem Harmless.exists_parents {b : ClassBlock} {ns : Namespaces} {e : Entity}
    (hb : b.Harmless ns) (h : b.entity.expand ns = ⟨e, none⟩) :
    ∃ uris, b.superclasses.mapM ns.expand = .ok uris := by
  by_cases hnone : b.superclasses = []
  · exact ⟨[], by rw [hnone]; rfl⟩
  · have hlast := b.last?_subClassOf ns
    rw [if_neg hnone] at hlast
    cases hdeciding : b.refs.deciding? ns Vocabulary.subClassOf with
    | some target =>
      obtain ⟨uri, -, huris⟩ := hb.parents target hdeciding
      exact ⟨[uri], huris⟩
    | none =>
      obtain ⟨slot, hslot⟩ := Option.ne_none_iff_exists'.mp (mt parents?_eq_none_iff.mp hnone)
      rw [hdeciding, hslot] at hlast
      obtain ⟨w, hw, -⟩ := (Entity.expand_eq_iff.mp h).2.2.1.get?_of_last? hlast
      exact (exists_mapE_iff hslot).mp ⟨w, hw⟩

theorem Keeps.harmless {b : ClassBlock} {ns : Namespaces} {e : Entity} (hb : b.Keeps ns ⟨e⟩)
    (h : b.entity.expand ns = ⟨e, none⟩) : b.Harmless ns := by
  obtain ⟨own, hown⟩ := exists_expand_bare hb.id hb.parents
  have htexts := hb.properties
  have hties := hb.references
  rw [hown] at htexts hties
  obtain ⟨hlabel, hdescription⟩ := texts_iff.mp ((entries_kept_iff h hown).1.mp htexts)
  obtain ⟨htype, hparents⟩ := (ties_iff hown hb.parents).mp ((entries_kept_iff h hown).2.mp hties)
  refine ⟨htype, fun target htarget => ?_, hlabel, hdescription⟩
  by_cases hnone : b.superclasses = []
  · have hempty := hb.parents
    rw [hnone] at hempty
    rw [deciding?_subClassOf_eq_none h hnone (Except.ok.inj hempty).symm] at htarget
    cases htarget
  · obtain ⟨uri, huri, heq⟩ := hparents hnone target htarget
    exact ⟨uri, huri, hb.parents.trans (congrArg _ heq)⟩

theorem Harmless.keeps {b : ClassBlock} {ns : Namespaces} {e : Entity} (hb : b.Harmless ns)
    (h : b.entity.expand ns = ⟨e, none⟩) : b.Keeps ns ⟨e⟩ := by
  have hid := (Entity.expand_eq_iff.mp h).1
  obtain ⟨uris, huris⟩ := hb.exists_parents h
  obtain ⟨own, hown⟩ := exists_expand_bare hid huris
  obtain ⟨htexts, hties⟩ := entries_kept_iff h hown
  have hreferences := hties.mpr ((ties_iff hown huris).mpr ⟨hb.type, fun _ target htarget => by
    obtain ⟨uri, huri, heq⟩ := hb.parents target htarget
    exact ⟨uri, huri, Except.ok.inj (huris.symm.trans heq)⟩⟩)
  have hslot : e.reference? Vocabulary.subClassOf = parents? uris := by
    rw [hreferences, reference?_subClassOf_of_bare hown huris]
    cases hparents : parents? uris with
    | some slot => rfl
    | none =>
      -- no parents: then no further entry declares any
      obtain rfl := parents?_eq_none_iff.mp hparents
      have hdeciding : b.refs.deciding? ns Vocabulary.subClassOf = none := by
        refine Option.eq_none_iff_forall_ne_some.mpr fun target htarget => ?_
        obtain ⟨uri, -, heq⟩ := hb.parents target htarget
        rw [huris] at heq
        cases heq
      rw [(OrderedMap.deciding?_eq_none_iff isFullUri_subClassOf).mp hdeciding]
      rfl
  refine ⟨hid, ?_, ?_, ?_⟩
  · rw [huris]
    unfold EntityClass.parents Entity.referenceValues
    rw [hslot, toList_parents?]
  · rw [hown]
    exact htexts.mpr (texts_iff.mpr ⟨hb.label, hb.description⟩)
  · rw [hown]
    exact hreferences

/-- **A class is what its block says exactly if the further entries of the block are harmless.** -/
theorem keeps_iff {b : ClassBlock} {ns : Namespaces} {e : Entity}
    (h : b.entity.expand ns = ⟨e, none⟩) : b.Keeps ns ⟨e⟩ ↔ b.Harmless ns :=
  ⟨fun hb => hb.harmless h, fun hb => hb.keeps h⟩

/-- What keeps to its block is read as a class. -/
theorem Keeps.classify_eq {b : ClassBlock} {ns : Namespaces} {e : Entity} (hb : b.Keeps ns ⟨e⟩) :
    classify ns e = some .cls := by
  obtain ⟨own, hown⟩ := exists_expand_bare hb.id hb.parents
  have htype := hb.references Vocabulary.rdfType
  rw [hown, reference?_rdfType_of_bare hown] at htype
  refine classify_of_types_cls ?_
  unfold Entity.types Entity.referenceValues
  rw [show e.reference? Vocabulary.rdfType = _ from htype]
  rfl

/-- Further entries that meet none of the predicates of a class are harmless. -/
theorem harmless_of_apart {b : ClassBlock} {ns : Namespaces}
    (hrefs : ∀ p ∈ [Vocabulary.rdfType, Vocabulary.subClassOf], b.refs.deciding? ns p = none)
    (hprops : ∀ p ∈ [Vocabulary.label, Vocabulary.description],
      b.props.deciding? ns p = none) : b.Harmless ns := by
  simp only [List.forall_mem_cons] at hrefs hprops
  obtain ⟨htype, hparents, -⟩ := hrefs
  obtain ⟨hlabel, hdescription, -⟩ := hprops
  constructor <;> simp [htype, hparents, hlabel, hdescription]

/-! ## Documents -/

/-- The kinds of the constraints of a block, in order. -/
def kinds (b : ClassBlock) : List Constraint.Kind :=
  (if b.isAbstract then [.isAbstract] else []) ++ b.propertyConstraints.map (fun _ => .property) ++
    b.referenceConstraints.map (fun _ => .reference) ++
    b.applicationConstraints.map (fun _ => .application)

theorem map_kind_parts (b : ClassBlock) : b.parts.map Part.kind = b.kinds := by
  unfold parts nested kinds
  cases b.isAbstract <;>
    simp [Function.comp_def, abstractness, PropertyBlock.part, ReferenceBlock.part,
      ApplicationBlock.part]

end ClassBlock

/-- The constraints that blocks declare, in order: their kinds and the classes they belong to. -/
def declared (bs : List ClassBlock) : List (Constraint.Kind × String) :=
  bs.flatMap fun b => b.kinds.map fun kind => (kind, b.id)

/-- The constraint of a kind that was declared for a class under a number. -/
structure Numbered (ns : Namespaces) (kind : Constraint.Kind) (cls : String) (n : Nat)
    (c : Constraint) : Prop where
  kind : c.kind = kind
  id : ns.expand (SchemaBuilder.constraintId cls n) = .ok c.id
  entityClass : ∃ uri, ns.expand cls = .ok uri ∧ c.entityClass? = some uri

/-- The constraints of a class are read in order, and none of them as a class. -/
theorem filterMap_parts {ns : Namespaces} {cls : String} {parts : List Part} {n : Nat}
    {es : List Entity} (h : List.Forall₂ (fun e e' => e.expand ns = ⟨e', none⟩)
      ((parts.zipIdx n).map fun e => e.1.entity cls e.2) es) :
    es.filterMap (Schema.class? ns) = [] ∧
      List.Forall₂ (fun d c => Numbered ns d.1.1 d.1.2 d.2 c)
        ((parts.map fun part => (part.kind, cls)).zipIdx n)
        (es.filterMap (Schema.constraint? ns)) := by
  induction parts generalizing n es with
  | nil =>
    obtain rfl := List.forall₂_nil_left_iff.mp h
    exact ⟨rfl, .nil⟩
  | cons part parts ih =>
    obtain ⟨e, es, he, hes, rfl⟩ := List.forall₂_cons_left_iff.mp h
    obtain ⟨hclass, hrest⟩ := ih hes
    obtain ⟨hclassify, hid, hcls⟩ := Part.reads_back he
    have hnone : Schema.class? ns e = none := by
      unfold Schema.class?
      rw [hclassify]
    have hsome : Schema.constraint? ns e = some ⟨part.kind, e⟩ := by
      unfold Schema.constraint?
      rw [hclassify]
    rw [List.filterMap_cons_none hnone, List.filterMap_cons_some hsome]
    exact ⟨hclass, .cons ⟨rfl, hid, hcls⟩ hrest⟩

/-- The classes and the constraints of blocks with harmless further entries are read in order. -/
theorem filterMap_blocks {ns : Namespaces} {bs : List ClassBlock} {n : Nat} {es : List Entity}
    (h : List.Forall₂ (fun e e' => e.expand ns = ⟨e', none⟩) (entitiesFrom n bs) es)
    (hbs : ∀ b ∈ bs, b.Harmless ns) :
    List.Forall₂ (ClassBlock.Keeps ns) bs (es.filterMap (Schema.class? ns)) ∧
      List.Forall₂ (fun d c => Numbered ns d.1.1 d.1.2 d.2 c) ((declared bs).zipIdx n)
        (es.filterMap (Schema.constraint? ns)) := by
  induction bs generalizing n es with
  | nil =>
    obtain rfl := List.forall₂_nil_left_iff.mp h
    exact ⟨.nil, .nil⟩
  | cons b bs ih =>
    obtain ⟨block, rest, rfl, hblock, hrest⟩ := exists_append_of_forall₂ h
    obtain ⟨e, parts, he, hparts, rfl⟩ := List.forall₂_cons_left_iff.mp hblock
    obtain ⟨hclasses, hconstraints⟩ := ih hrest fun b' hb' => hbs b' (List.mem_cons_of_mem b hb')
    obtain ⟨hnoclass, hown⟩ := filterMap_parts hparts
    have hkeeps := (ClassBlock.keeps_iff he).mpr (hbs b List.mem_cons_self)
    have hsome : Schema.class? ns e = some ⟨e⟩ := by
      unfold Schema.class?
      rw [hkeeps.classify_eq]
    have hnone : Schema.constraint? ns e = none := by
      unfold Schema.constraint?
      rw [hkeeps.classify_eq]
    have hdeclared : declared (b :: bs) =
        (b.parts.map fun part => (part.kind, b.id)) ++ declared bs := by
      unfold declared
      rw [List.flatMap_cons, ← b.map_kind_parts, List.map_map]
      rfl
    constructor
    · rw [List.cons_append, List.filterMap_cons_some hsome, List.filterMap_append, hnoclass]
      exact .cons hkeeps hclasses
    · rw [List.cons_append, List.filterMap_cons_none hnone, List.filterMap_append, hdeclared,
        List.zipIdx_append, List.length_map]
      exact List.rel_append hown hconstraints

theorem mem_entitiesFrom {bs : List ClassBlock} {b : ClassBlock} (h : b ∈ bs) (n : Nat) :
    b.entity ∈ entitiesFrom n bs := by
  induction bs generalizing n with
  | nil => cases h
  | cons b' bs ih =>
    rw [entitiesFrom, List.mem_append]
    rcases List.mem_cons.mp h with rfl | h
    · exact Or.inl List.mem_cons_self
    · exact Or.inr (ih h _)

namespace Document

/-- A schema is what a document says: its classes are those of the blocks, in order, and its
constraints those that the blocks declare, in order and numbered. -/
structure Keeps (doc : Document) (s : Schema) : Prop where
  classes : List.Forall₂ (ClassBlock.Keeps s.namespaces) doc.classes s.classes
  constraints : List.Forall₂ (fun d c => Numbered s.namespaces d.1.1 d.1.2 d.2 c)
    (declared doc.classes).zipIdx s.constraints

/-- **A schema is what its document says exactly if the further entries of every block are
harmless.** -/
theorem schema_keeps_iff {doc : Document} {s : Schema} (h : doc.schema = .ok s) :
    doc.Keeps s ↔ ∀ b ∈ doc.classes, b.Harmless s.namespaces := by
  obtain ⟨es, hes, hnodup, rfl⟩ := schema_eq_ok_iff.mp h
  constructor
  · intro hkeeps b hb
    obtain ⟨cls, hcls, hkept⟩ := exists_mem_of_forall₂ hkeeps.classes hb
    obtain ⟨e, he, hexp⟩ := exists_mem_of_forall₂ hes (mem_entitiesFrom hb 0)
    -- the class and the expanded entity of the block have the same identifier
    have hid : cls.entity.id = e.id :=
      Except.ok.inj (hkept.id.symm.trans (Entity.expand_eq_iff.mp hexp).1)
    have heq : cls = ⟨e⟩ := congrArg EntityClass.mk
      (List.inj_on_of_nodup_map hnodup (Schema.mem_classes_ofCollection hcls) he hid)
    rw [heq] at hkept
    exact (ClassBlock.keeps_iff hexp).mp hkept
  · intro hharmless
    obtain ⟨hclasses, hconstraints⟩ := filterMap_blocks hes hharmless
    exact ⟨hclasses, hconstraints⟩

/-- Persons with a further reference to another scheme, and tags that a rule decides on. -/
def people : Document where
  namespaces := .ofList [("ex", "http://example.org/")]
  classes := [
    { id := "ex:Person", superclasses := ["ex:Thing"], label := some "Person", isAbstract := true
      refs := .ofList [("ex:seeAlso", "ex:Human")]
      propertyConstraints := [{ propertyClass := some "ex:name", min := some 1 }] },
    { id := "ex:Tag", applicationConstraints := [{ rule := some "ex:unique" }] }]

theorem schema_keeps_iff_people :
    ∃ s, people.schema = .ok s ∧ people.Keeps s ∧ s.constraints.length = 3 := by
  have hschema : people.schema.toOption.map (fun s => s.constraints.length) = some 3 := by
    decide +kernel
  obtain ⟨s, hok, hlength⟩ := exists_ok_of_toOption_map hschema
  have hns : s.namespaces = people.table := by
    obtain ⟨_, _, _, rfl⟩ := schema_eq_ok_iff.mp hok
    rfl
  refine ⟨s, hok, (schema_keeps_iff hok).mpr ?_, hlength⟩
  rw [hns]
  intro b hb
  have hapart : ∀ b ∈ people.classes,
      (∀ p ∈ [Vocabulary.rdfType, Vocabulary.subClassOf],
        b.refs.deciding? people.table p = none) ∧
      ∀ p ∈ [Vocabulary.label, Vocabulary.description],
        b.props.deciding? people.table p = none := by
    decide +kernel
  exact ClassBlock.harmless_of_apart (hapart b hb).1 (hapart b hb).2

/-- A class with a further reference at another spelling of the type predicate. -/
def retyped : Document where
  namespaces := .ofList [("ex", "http://example.org/")]
  classes := [{ id := "ex:Person", refs := .ofList [("rdf:type", "ex:Concept")] }]

/-- Not every schema is what its document says: the class of `retyped` is lost. -/
theorem not_forall_keeps :
    ¬ ∀ (doc : Document) (s : Schema), doc.schema = .ok s → doc.Keeps s := by
  intro h
  have hschema : retyped.schema.toOption.map (fun s => s.classes.length) = some 0 := by
    decide +kernel
  obtain ⟨s, hok, hlength⟩ := exists_ok_of_toOption_map hschema
  have hclasses := (h retyped s hok).classes.length_eq
  rw [hlength] at hclasses
  cases hclasses

end Document

end Compact

end EntityGraph
