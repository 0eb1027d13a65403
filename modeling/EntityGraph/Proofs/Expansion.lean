import EntityGraph.Proofs.Lineage
import EntityGraph.Proofs.Pointwise
import Mathlib.Data.List.Find

/-!
# What expanding gives

Expanding a table reads its entries in order, and so of the entries whose keys expand alike the
last one decides. An entity expands exactly if its identifier, its keys and its targets do, and a
schema is built exactly if every entity that was added expands and no two of them meet in one
identifier.

Results:
* `Expands.get?_eq`: what an expanded table holds at a URI.
* `Entity.expand_eq_iff`: which entity another one expands to.
* `Collection.addAll_eq_ok_iff`, `Collection.expanded_eq_ok_iff`: when entities are collected and
  expanded, and to what.
* `SchemaBuilder.build_eq_ok_iff`: the schema of a builder.
-/

namespace EntityGraph

/-- A traversal completes exactly if it does at each element. -/
theorem mapM_eq_ok_iff {ε α β : Type} {f : α → Except ε β} {l : List α} {out : List β} :
    l.mapM f = .ok out ↔ List.Forall₂ (fun a b => f a = .ok b) l out := by
  induction l generalizing out with
  | nil => simp [eq_comm]
  | cons a l ih =>
    rw [List.mapM_cons, bind_eq_ok_iff, List.forall₂_cons_left_iff]
    constructor
    · rintro ⟨b, hb, h⟩
      obtain ⟨bs, hbs, heq⟩ := bind_eq_ok_iff.mp h
      exact ⟨b, bs, hb, ih.mp hbs, (Except.ok.inj heq).symm⟩
    · rintro ⟨b, bs, hb, hbs, rfl⟩
      exact ⟨b, hb, bind_eq_ok_iff.mpr ⟨bs, ih.mpr hbs, rfl⟩⟩

/-- A fold of insertions that may fail inserts what it reads, one after another. -/
theorem foldlM_insert_eq_ok_iff {ε α κ ν : Type} [DecidableEq κ] {f : α → Except ε (κ × ν)}
    {l : List α} {m m' : OrderedMap κ ν} :
    l.foldlM (fun acc a => do let e ← f a; return acc.insert e.1 e.2) m = .ok m' ↔
      ∃ es, List.Forall₂ (fun a e => f a = .ok e) l es ∧
        m' = es.foldl (fun m e => m.insert e.1 e.2) m := by
  induction l generalizing m with
  | nil => simp [eq_comm]
  | cons a l ih =>
    rw [List.foldlM_cons, bind_eq_ok_iff]
    constructor
    · rintro ⟨m₁, hm₁, hrest⟩
      obtain ⟨e, he, heq⟩ := bind_eq_ok_iff.mp hm₁
      obtain rfl := Except.ok.inj heq
      obtain ⟨es, hes, rfl⟩ := ih.mp hrest
      exact ⟨e :: es, .cons he hes, rfl⟩
    · rintro ⟨_, h, rfl⟩
      obtain ⟨e, es, he, hes, rfl⟩ := List.forall₂_cons_left_iff.mp h
      exact ⟨m.insert e.1 e.2, bind_eq_ok_iff.mpr ⟨e, he, rfl⟩, ih.mpr ⟨es, hes, rfl⟩⟩

/-! ## Tables -/

namespace OrderedMap

variable {α β : Type}

/-- The last value of a table whose key expands to a URI. -/
def last? (ns : Namespaces) (m : OrderedMap String α) (uri : String) : Option α :=
  (m.toList.reverse.find? fun e => decide (ns.expand e.1 = .ok uri)).map Prod.snd

/-- A table expands to another one: the keys are expanded, the values are read, and the entries are
inserted in order. -/
def Expands (ns : Namespaces) (read : α → Except UnknownLabel β) (m : OrderedMap String α)
    (m' : OrderedMap String β) : Prop :=
  ∃ es, List.Forall₂ (fun e e' => ns.expand e.1 = .ok e'.1 ∧ read e.2 = .ok e'.2) m.toList es ∧
    m' = .ofList es

/-- Of pairs inserted one after another the last at a key decides. -/
theorem get?_ofList {κ ν : Type} [DecidableEq κ] (l : List (κ × ν)) (k : κ) :
    (ofList l).get? k = (l.reverse.find? fun e => decide (e.1 = k)).map Prod.snd := by
  induction l with
  | nil => rfl
  | cons e l ih =>
    rw [← List.singleton_append, get?_ofList_append, ih, List.reverse_append, List.find?_append]
    cases (l.reverse.find? fun e => decide (e.1 = k)) with
    | some e' => rfl
    | none =>
      rw [Option.map_none, Option.none_or, Option.none_or, List.reverse_singleton, ofList,
        List.foldl_cons, List.foldl_nil]
      exact (get?_insert ∅ e.1 k e.2).trans (by by_cases h : e.1 = k <;> simp [h])

/-- At a key that stands once the first entry is the last. -/
theorem find_eq_find?_reverse {κ ν : Type} [DecidableEq κ] {l : List (κ × ν)}
    (h : (l.map Prod.fst).Nodup) (k : κ) :
    find k l = (l.reverse.find? fun e => decide (e.1 = k)).map Prod.snd := by
  rw [← get?_ofList]
  exact (get?_ofList_toList ⟨l, h⟩ k).symm

/-- **What an expanded table holds at a URI**: of the entries whose keys expand to it the last. -/
theorem Expands.get?_eq {ns : Namespaces} {read : α → Except UnknownLabel β}
    {m : OrderedMap String α} {m' : OrderedMap String β} (h : m.Expands ns read m')
    (uri : String) : m'.get? uri = (m.last? ns uri).bind fun v => (read v).toOption := by
  obtain ⟨es, hes, rfl⟩ := h
  rw [get?_ofList]
  unfold last?
  have hrev := List.rel_reverse hes
  generalize m.toList.reverse = l at hrev ⊢
  generalize es.reverse = l' at hrev ⊢
  induction hrev with
  | nil => rfl
  | @cons e e' l l' he _ ih =>
    rw [List.find?_cons, List.find?_cons, he.1]
    by_cases heq : e'.1 = uri
    · simp [heq, he.2, Except.toOption]
    · simp [heq, ih]

/-- The deciding entry of a table that expands is read. -/
theorem Expands.get?_of_last? {ns : Namespaces} {read : α → Except UnknownLabel β}
    {m : OrderedMap String α} {m' : OrderedMap String β} (h : m.Expands ns read m')
    {uri : String} {v : α} (hv : m.last? ns uri = some v) :
    ∃ w, read v = .ok w ∧ m'.get? uri = some w := by
  obtain ⟨e, he, rfl⟩ := Option.map_eq_some_iff.mp hv
  obtain ⟨es, hes, -⟩ := id h
  obtain ⟨e', -, -, hread⟩ :=
    exists_mem_of_forall₂ hes (List.mem_reverse.mp (List.mem_of_find?_eq_some he))
  refine ⟨e'.2, hread, ?_⟩
  rw [h.get?_eq, hv, Option.bind_some, hread]
  rfl

/-- A table expands exactly if its keys and its values do. -/
theorem exists_expands_iff {ns : Namespaces} {read : α → Except UnknownLabel β}
    {m : OrderedMap String α} : (∃ m', m.Expands ns read m') ↔
      ∀ e ∈ m.toList, (∃ uri, ns.expand e.1 = .ok uri) ∧ ∃ v, read e.2 = .ok v := by
  have hes : (∃ m', m.Expands ns read m') ↔ ∃ es, List.Forall₂
      (fun e (e' : String × β) => ns.expand e.1 = .ok e'.1 ∧ read e.2 = .ok e'.2) m.toList es :=
    ⟨fun ⟨_, es, hes, _⟩ => ⟨es, hes⟩, fun ⟨es, hes⟩ => ⟨_, es, hes, rfl⟩⟩
  rw [hes, exists_forall₂_iff]
  refine forall₂_congr fun e _ => ?_
  exact ⟨fun ⟨e', hk, hv⟩ => ⟨⟨_, hk⟩, _, hv⟩, fun ⟨⟨k, hk⟩, v, hv⟩ => ⟨(k, v), hk, hv⟩⟩

/-- In a table whose keys are full URIs the last value at a URI is the one at this key. -/
theorem last?_of_isFullUri {ns : Namespaces} {m : OrderedMap String α}
    (hm : ∀ k ∈ m.keys, isFullUri k = true) (uri : String) : m.last? ns uri = m.get? uri := by
  unfold last? get?
  rw [find_eq_find?_reverse m.nodup]
  refine congrArg (Option.map Prod.snd) (List.find?_congr fun e he => ?_)
  rw [Namespaces.expand_of_isFullUri (hm e.1 (List.mem_map_of_mem (List.mem_reverse.mp he)))]
  simp

end OrderedMap

/-! ## Entities -/

namespace Entity

theorem expandProperties_eq_ok_iff {ns : Namespaces} {m m' : OrderedMap String (Slot Literal)} :
    expandProperties ns m = .ok m' ↔ m.Expands ns .ok m' := by
  have hbody : (fun (acc : OrderedMap String (Slot Literal)) (e : String × Slot Literal) =>
      (do return acc.insert (← ns.expand e.1) e.2 : Except UnknownLabel _)) =
      fun acc e => do
        let e' ← (do return (← ns.expand e.1, e.2) : Except UnknownLabel (String × Slot Literal))
        return acc.insert e'.1 e'.2 := by
    funext acc e
    cases ns.expand e.1 <;> rfl
  unfold expandProperties OrderedMap.Expands
  rw [hbody, foldlM_insert_eq_ok_iff]
  refine exists_congr fun es => and_congr_left fun _ => ?_
  have hpair : ∀ e e' : String × Slot Literal,
      (do return (← ns.expand e.1, e.2) : Except UnknownLabel (String × Slot Literal)) = .ok e' ↔
        ns.expand e.1 = .ok e'.1 ∧ (Except.ok e.2 : Except UnknownLabel _) = .ok e'.2 := by
    rintro e ⟨k, v⟩
    cases ns.expand e.1 <;> simp [Prod.ext_iff]
  simp only [hpair]

theorem expandReferences_eq_ok_iff {ns : Namespaces} {m m' : OrderedMap String (Slot String)} :
    expandReferences ns m = .ok m' ↔ m.Expands ns (Slot.mapE ns.expand) m' := by
  have hbody : (fun (acc : OrderedMap String (Slot String)) (e : String × Slot String) =>
      (do
        let targets ← e.2.mapE ns.expand
        return acc.insert (← ns.expand e.1) targets : Except UnknownLabel _)) =
      fun acc e => do
        let e' ← (do
          let targets ← e.2.mapE ns.expand
          return (← ns.expand e.1, targets) : Except UnknownLabel (String × Slot String))
        return acc.insert e'.1 e'.2 := by
    funext acc e
    cases e.2.mapE ns.expand with
    | error err => rfl
    | ok targets => cases ns.expand e.1 <;> rfl
  unfold expandReferences OrderedMap.Expands
  rw [hbody, foldlM_insert_eq_ok_iff]
  refine exists_congr fun es => and_congr_left fun _ => ?_
  have hpair : ∀ e e' : String × Slot String,
      (do
        let targets ← e.2.mapE ns.expand
        return (← ns.expand e.1, targets) : Except UnknownLabel (String × Slot String)) = .ok e' ↔
        ns.expand e.1 = .ok e'.1 ∧ e.2.mapE ns.expand = .ok e'.2 := by
    rintro e ⟨k, v⟩
    cases e.2.mapE ns.expand with
    | error err => simp
    | ok targets => cases ns.expand e.1 <;> simp [Prod.ext_iff]
  simp only [hpair]

/-- **Which entity another one expands to.** -/
theorem expand_eq_iff {ns : Namespaces} {e e' : Entity} :
    e.expand ns = ⟨e', none⟩ ↔ ns.expand e.id = .ok e'.id ∧
      e.properties.Expands ns .ok e'.properties ∧
      e.references.Expands ns (Slot.mapE ns.expand) e'.references ∧ e'.deleted = e.deleted := by
  rw [← expandProperties_eq_ok_iff, ← expandReferences_eq_ok_iff]
  unfold expand
  obtain ⟨id', properties', references', deleted'⟩ := e'
  cases ns.expand e.id with
  | error err => simp
  | ok id =>
    cases expandProperties ns e.properties with
    | error err => simp
    | ok properties =>
      cases expandReferences ns e.references with
      | error err => simp
      | ok references => simp [eq_comm]

/-- An entity expands exactly if its identifier, its keys and its targets do. -/
theorem exists_expand_eq_iff {ns : Namespaces} {e : Entity} :
    (∃ e', e.expand ns = ⟨e', none⟩) ↔ (∃ uri, ns.expand e.id = .ok uri) ∧
      (∃ m, e.properties.Expands ns .ok m) ∧
      ∃ m, e.references.Expands ns (Slot.mapE ns.expand) m := by
  constructor
  · rintro ⟨e', he'⟩
    obtain ⟨hid, hproperties, hreferences, -⟩ := expand_eq_iff.mp he'
    exact ⟨⟨_, hid⟩, ⟨_, hproperties⟩, _, hreferences⟩
  · rintro ⟨⟨uri, hid⟩, ⟨properties, hproperties⟩, references, hreferences⟩
    exact ⟨⟨uri, properties, references, e.deleted⟩,
      expand_eq_iff.mpr ⟨hid, hproperties, hreferences, rfl⟩⟩

end Entity

/-! ## Collections -/

namespace Collection

/-- The position of each identifier of a list of entities. -/
def positions (es : List Entity) : OrderedMap String Nat := .ofList (es.map Entity.id).zipIdx

theorem get?_foldl_zipIdx_eq_none_iff {ids : List String} {n : Nat} {idx : OrderedMap String Nat}
    {id : String} : ((ids.zipIdx n).foldl (fun m e => m.insert e.1 e.2) idx).get? id = none ↔
      id ∉ ids ∧ idx.get? id = none := by
  induction ids generalizing n idx with
  | nil => simp
  | cons i ids ih =>
    rw [List.zipIdx_cons, List.foldl_cons, ih, OrderedMap.get?_insert, List.mem_cons]
    by_cases h : i = id
    · simp [h]
    · simp [h, Ne.symm h]

theorem positions_concat (es : List Entity) (e : Entity) :
    positions (es ++ [e]) = (positions es).insert e.id es.length := by
  unfold positions OrderedMap.ofList
  rw [List.map_append, List.zipIdx_append, List.foldl_append, List.length_map, Nat.zero_add]
  rfl

/-- Entities are added to those there are unless an identifier stands twice. -/
theorem addAll_eq_ok_iff {ns : Namespaces} {es : List Entity} {c : Collection} :
    (empty ns).addAll es = .ok c ↔
      (es.map Entity.id).Nodup ∧ c = ⟨ns, none, es, positions es⟩ := by
  have key : ∀ (es before : List Entity) (c : Collection), (before.map Entity.id).Nodup →
      (addAll ⟨ns, none, before, positions before⟩ es = .ok c ↔
        ((before ++ es).map Entity.id).Nodup ∧
          c = ⟨ns, none, before ++ es, positions (before ++ es)⟩) := by
    intro es
    induction es with
    | nil =>
      intro before c hbefore
      rw [List.append_nil]
      exact ⟨fun h => ⟨hbefore, (Except.ok.inj h).symm⟩, fun h => h.2 ▸ rfl⟩
    | cons e es ih =>
      intro before c hbefore
      have hindex : (positions before).contains e.id = true ↔ e.id ∈ before.map Entity.id := by
        rw [← not_iff_not, Bool.not_eq_true, OrderedMap.contains, Option.isSome_eq_false_iff,
          Option.isNone_iff_eq_none]
        exact get?_foldl_zipIdx_eq_none_iff.trans (and_iff_left rfl)
      unfold addAll
      rw [List.foldlM_cons, bind_eq_ok_iff, ← List.singleton_append, ← List.append_assoc]
      by_cases hmem : e.id ∈ before.map Entity.id
      · constructor
        · rintro ⟨c₁, hadd, -⟩
          unfold add at hadd
          rw [if_pos (hindex.mpr hmem)] at hadd
          cases hadd
        · rintro ⟨hnodup, -⟩
          rw [List.map_append, List.map_append, List.append_assoc, List.nodup_append] at hnodup
          exact absurd rfl (hnodup.2.2 e.id hmem e.id (by simp))
      · have hadd : add ⟨ns, none, before, positions before⟩ e =
            .ok ⟨ns, none, before ++ [e], positions (before ++ [e])⟩ := by
          unfold add
          rw [if_neg (hindex.not.mpr hmem), positions_concat]
        have hnodup : ((before ++ [e]).map Entity.id).Nodup := by
          rw [List.map_append, List.nodup_append]
          refine ⟨hbefore, List.nodup_singleton _, fun a ha b hb heq => ?_⟩
          rw [List.mem_singleton.mp hb] at heq
          exact hmem (heq ▸ ha)
        rw [hadd]
        constructor
        · rintro ⟨c₁, hc₁, hrest⟩
          obtain rfl := Except.ok.inj hc₁
          exact (ih _ c hnodup).mp hrest
        · exact fun h => ⟨_, rfl, (ih _ c hnodup).mpr h⟩
  exact key es [] c List.nodup_nil

theorem expandFrom_cons_eq_iff {ns : Namespaces} {e : Entity} {es out : List Entity} {n : Nat}
    {idx idx' : OrderedMap String Nat} :
    expandFrom ns n idx (e :: es) = ⟨(out, idx'), none⟩ ↔ ∃ e' es',
      e.expand ns = ⟨e', none⟩ ∧ idx.get? e'.id = none ∧
      expandFrom ns (n + 1) (idx.insert e'.id n) es = ⟨(es', idx'), none⟩ ∧ out = e' :: es' := by
  rw [expandFrom]
  cases hexp : e.expand ns with
  | mk value error? =>
    cases error? with
    | some err => simp
    | none =>
      cases hidx : idx.get? value.id with
      | some i => simp [OrderedMap.contains, hidx]
      | none =>
        have hnew : idx.contains value.id = false := by rw [OrderedMap.contains, hidx]; rfl
        simp only [hnew, Bool.false_eq_true, if_false]
        constructor
        · cases hrest : expandFrom ns (n + 1) (idx.insert value.id n) es with
          | mk rest error? =>
            rintro ⟨⟩
            exact ⟨value, rest.1, rfl, hidx, hrest, rfl⟩
        · rintro ⟨_, es', ⟨⟩, -, hrest, rfl⟩
          rw [hrest]

theorem expandFrom_eq_iff {ns : Namespaces} {es out : List Entity} {n : Nat}
    {idx idx' : OrderedMap String Nat} :
    expandFrom ns n idx es = ⟨(out, idx'), none⟩ ↔
      List.Forall₂ (fun e e' => e.expand ns = ⟨e', none⟩) es out ∧ (out.map Entity.id).Nodup ∧
        (∀ id ∈ out.map Entity.id, idx.get? id = none) ∧
        idx' = ((out.map Entity.id).zipIdx n).foldl (fun m e => m.insert e.1 e.2) idx := by
  induction es generalizing out n idx with
  | nil =>
    rw [expandFrom, List.forall₂_nil_left_iff]
    constructor
    · intro h
      cases h
      exact ⟨rfl, List.nodup_nil, fun _ h => absurd h List.not_mem_nil, rfl⟩
    · rintro ⟨rfl, -, -, rfl⟩
      rfl
  | cons e es ih =>
    have hfree : ∀ (id : String) (ids : List String),
        (∀ i ∈ ids, (idx.insert id n).get? i = none) ↔ id ∉ ids ∧ ∀ i ∈ ids, idx.get? i = none := by
      intro id ids
      simp only [OrderedMap.get?_insert_eq_none_iff, forall₂_and]
      exact and_congr_left fun _ => ⟨fun h hid => h id hid rfl, fun h i hi heq => h (heq ▸ hi)⟩
    rw [expandFrom_cons_eq_iff, List.forall₂_cons_left_iff]
    constructor
    · rintro ⟨e', es', he', hnew, hrest, rfl⟩
      obtain ⟨hes, hnodup, hother, rfl⟩ := ih.mp hrest
      obtain ⟨hid, hother⟩ := (hfree e'.id _).mp hother
      exact ⟨⟨e', es', he', hes, rfl⟩, List.nodup_cons.mpr ⟨hid, hnodup⟩,
        List.forall_mem_cons.mpr ⟨hnew, hother⟩, rfl⟩
    · rintro ⟨⟨e', es', he', hes, rfl⟩, hnodup, hnew, rfl⟩
      obtain ⟨hid, hnodup⟩ := List.nodup_cons.mp hnodup
      obtain ⟨hnew, hother⟩ := List.forall_mem_cons.mp hnew
      exact ⟨e', es', he', hnew, ih.mpr ⟨hes, hnodup, (hfree e'.id _).mpr ⟨hid, hother⟩, rfl⟩, rfl⟩

/-- **A collection expands exactly if its entities do and no two of them meet.** -/
theorem expanded_eq_ok_iff {c c' : Collection} :
    c.expanded = .ok c' ↔ ∃ es,
      List.Forall₂ (fun e e' => e.expand c.namespaces = ⟨e', none⟩) c.entities es ∧
      (es.map Entity.id).Nodup ∧ c' = ⟨c.namespaces, c.continuation, es, positions es⟩ := by
  unfold expanded expand
  constructor
  · intro h
    cases hfrom : expandFrom c.namespaces 0 ∅ c.entities with
    | mk value error? =>
      cases error? with
      | some err => simp [hfrom] at h
      | none =>
        obtain ⟨hes, hnodup, -, hindex⟩ := expandFrom_eq_iff.mp
          (show expandFrom c.namespaces 0 ∅ c.entities = ⟨(value.1, value.2), none⟩ from hfrom)
        simp only [hfrom] at h
        refine ⟨value.1, hes, hnodup, (Except.ok.inj h).symm.trans ?_⟩
        rw [hindex]
        rfl
  · rintro ⟨es, hes, hnodup, rfl⟩
    rw [expandFrom_eq_iff.mpr ⟨hes, hnodup, fun _ _ => rfl, rfl⟩]
    rfl

/-- What expands to distinct identifiers has distinct ones. -/
theorem nodup_ids_of_expand {ns : Namespaces} {es es' : List Entity}
    (h : List.Forall₂ (fun e e' => e.expand ns = ⟨e', none⟩) es es')
    (hnodup : (es'.map Entity.id).Nodup) : (es.map Entity.id).Nodup := by
  induction h with
  | nil => exact List.nodup_nil
  | @cons e e' es es' he hes ih =>
    rw [List.map_cons, List.nodup_cons] at hnodup ⊢
    refine ⟨fun hmem => hnodup.1 ?_, ih hnodup.2⟩
    obtain ⟨a, ha, heq⟩ := List.mem_map.mp hmem
    obtain ⟨a', ha', haa'⟩ := exists_mem_of_forall₂ hes ha
    have hid := (Entity.expand_eq_iff.mp he).1
    have hid' := (Entity.expand_eq_iff.mp haa').1
    rw [heq, hid] at hid'
    rw [Except.ok.inj hid']
    exact List.mem_map_of_mem ha'

end Collection

/-- **The schema of a builder.** -/
theorem SchemaBuilder.build_eq_ok_iff {b : SchemaBuilder} {s : Schema} :
    b.build = .ok s ↔ ∃ es,
      List.Forall₂ (fun e e' => e.expand b.namespaces = ⟨e', none⟩) b.entities es ∧
      (es.map Entity.id).Nodup ∧
      s = .ofCollection ⟨b.namespaces, none, es, Collection.positions es⟩ := by
  unfold build
  constructor
  · intro h
    split at h
    · cases h
    · rename_i c hadd
      split at h
      · cases h
      · rename_i c' hexp
        obtain ⟨-, rfl⟩ := Collection.addAll_eq_ok_iff.mp hadd
        obtain ⟨es, hes, hnodup, rfl⟩ := Collection.expanded_eq_ok_iff.mp hexp
        exact ⟨es, hes, hnodup, (Except.ok.inj h).symm⟩
  · rintro ⟨es, hes, hnodup, rfl⟩
    rw [Collection.addAll_eq_ok_iff.mpr ⟨Collection.nodup_ids_of_expand hes hnodup, rfl⟩]
    have hexp : Collection.expanded
        ⟨b.namespaces, none, b.entities, Collection.positions b.entities⟩ =
        .ok ⟨b.namespaces, none, es, Collection.positions es⟩ :=
      Collection.expanded_eq_ok_iff.mpr ⟨es, hes, hnodup, rfl⟩
    simp only [hexp]

end EntityGraph
