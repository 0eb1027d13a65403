import EntityGraph.Proofs.Abstractness
import EntityGraph.Proofs.Batch
import EntityGraph.Proofs.Refinement
import EntityGraph.Proofs.Writing

/-!
# Documents as datasets

The entities of a document are validated directly or after they have been loaded into a dataset of
a store. A dataset gives back what it was given, in order, except for the entities that are marked
as deleted: these a store does not keep, while a direct validation holds them against the schema
like any other. Apart from them the two ways agree, and the second one looks at the store besides.

Results:
* `entitiesOf_load`: a dataset loaded from nothing holds the entities that are not deleted.
* `validateDataset_eq`: a dataset is validated as the list of its entities, and then the store.
* `validateDataset_load`: how validating a dataset relates to validating the document in it.
-/

namespace EntityGraph

/-! ## What is loaded -/

namespace Store

/-- Writes about distinct places all leave their records. -/
theorem live_of_nodup {ws : List Write} (h : (ws.map Write.place).Nodup) :
    live ws = ws.filterMap Write.record? := by
  induction ws with
  | nil => rfl
  | cons w ws ih =>
    rw [List.map_cons, List.nodup_cons] at h
    rw [live, if_neg h.1, ih h.2, List.filterMap_cons]
    cases w.record? with
    | none => rfl
    | some r => rfl

/-- **A dataset loaded from nothing holds the entities that are not deleted**, in order. -/
theorem entitiesOf_load {es : List Entity} (h : (es.map Entity.id).Nodup) (d : String) :
    (empty.load d es).entitiesOf d = .ok (es.filter fun e => !e.deleted) := by
  have hheld : (empty.load d es).entitiesOf d = _ :=
    (reflects_replay [.load d es]).entitiesOf ⟨_, List.mem_singleton.mpr rfl, rfl⟩
  have hwrites : writes [.load d es] = es.map (.put d) := by
    simp [writes, Operation.writes]
  have hplaces : ((es.map (Write.put d)).map Write.place).Nodup := by
    have hpair : ((es.map (Write.put d)).map Write.place) =
        (es.map Entity.id).map fun id => (d, id) := by
      rw [List.map_map, List.map_map]
      rfl
    rw [hpair]
    exact h.map fun id id' heq => (Prod.mk.inj heq).2
  have hlive : live (writes [.load d es]) =
      (es.filter fun e => !e.deleted).map fun e => (⟨d, e⟩ : Record) := by
    rw [hwrites, live_of_nodup hplaces, List.filterMap_map]
    clear hheld hwrites hplaces h
    induction es with
    | nil => rfl
    | cons e es ih =>
      rw [List.filterMap_cons, ih]
      cases hdel : e.deleted <;> simp [Write.record?, hdel]
  have hdataset : ((es.filter fun e => !e.deleted).map fun e => (⟨d, e⟩ : Record)).filter
      (fun r => r.dataset = d) = (es.filter fun e => !e.deleted).map fun e => ⟨d, e⟩ := by
    rw [List.filter_eq_self]
    intro r hr
    obtain ⟨e, -, rfl⟩ := List.mem_map.mp hr
    exact decide_eq_true rfl
  rw [hheld, hlive, hdataset, List.map_map]
  exact congrArg Except.ok (List.map_id _)

end Store

/-- What is parsed is collected from the parts of the elements that are read. -/
theorem Document.exists_elements_of_parse {text : String} {c : Collection}
    (h : parse text = .ok c) : ∃ (elements : List Json) (parts : Parts),
      Json.sortedOfText text = .ok (.array elements) ∧ Parts.ofElements elements = .ok parts ∧
        parts.collect = .ok c := by
  unfold parse at h
  split at h
  · rename_i v hv
    unfold ofJson at h
    split at h
    · obtain ⟨parts, hparts, hcollect⟩ := bind_eq_ok_iff.mp h
      exact ⟨_, parts, hv, hparts, hcollect⟩
    · cases h
  · cases h

/-- The entities of a document have distinct identifiers. -/
theorem Document.nodup_ids_of_parse {text : String} {c : Collection} (h : parse text = .ok c) :
    (c.entities.map Entity.id).Nodup := by
  obtain ⟨-, parts, -, -, hcollect⟩ := exists_elements_of_parse h
  obtain ⟨es, -, hnodup, rfl⟩ := collect_eq_ok_iff.mp hcollect
  exact hnodup

/-- A document is parsed by its characters. -/
theorem Document.parse_of_toList {text : String} {chars : List Char} {c : Collection}
    (h : text.toList = chars)
    (hread : ∃ r ∈ (Json.readValue chars).toOption, Json.skipBlank r.rest = [] ∧
      r.value.readableWithin Json.maxDepth = .ok () ∧ ofJson r.value.sorted = .ok c) :
    parse text = .ok c := by
  obtain ⟨r, hr, hrest, hreadable, hc⟩ := hread
  exact (parse_of_sortedOfText
    (Json.sortedOfText_of_toList h ⟨r, hr, hrest, hreadable, rfl⟩)).trans hc

/-- The characters of a text that is put together are those of its parts. -/
theorem toList_append_of {a b : String} {as bs : List Char} (ha : a.toList = as)
    (hb : b.toList = bs) : (a ++ b).toList = as ++ bs := by
  rw [String.toList_append, ha, hb]

/-- The entities that are not marked as deleted. -/
def Collection.kept (c : Collection) : List Entity := c.entities.filter fun e => !e.deleted

/-! ## Two ways to validate -/

namespace Validator

variable {v : Validator (Except ValidationError)} {s : Schema}

/-- **A dataset is validated as the list of its entities, and then the store.** -/
theorem validateDataset_eq {σ : Store} (hstore : v.provider? = some σ.provider) {d : String}
    {es : List Entity} (hes : σ.entitiesOf d = .ok es) :
    v.validateDataset s d =
      (do return (← v.validateEntities s es) ++ (← v.validateStore s)) := by
  cases hstart : v.start s with
  | error err =>
    rw [validateEntities_of_start_error v s hstart]
    unfold validateDataset
    rw [hstart]
    rfl
  | ok r =>
    have hprovider : r.provider = .ok σ.provider := by
      unfold Run.provider
      rw [(started_of_start hstart).provider?, hstore]
      rfl
    have hstream : σ.provider.datasetEntities d = (.ok (.ok (es.map .ok)) :
        Except ValidationError (Except ProviderError EntityStream)) := by
      unfold Store.provider
      simp only [hes]
      rfl
    have hchecked : gather (fun arrival => do
        let e ← lift .provider arrival
        r.proceed
        r.checkEntity e) (es.map .ok) = r.checkEntities es := gather_map _ _ _
    rw [validateStore_of_start hstart hstore]
    unfold validateDataset validateEntities
    rw [hstart, ok_bind, hprovider, ok_bind, hstream, ok_bind, lift_ok, ok_bind, hchecked]
    rfl

/-- What is found of an entity names the entity. -/
theorem entity_of_mem_validateEntity {e : Entity} {vs : List Violation}
    (h : v.validateEntity s e = .ok vs) {w : Violation} (hw : w ∈ vs) : w.entity = some e := by
  obtain ⟨r, -, hcheck⟩ := validateEntity_eq_ok_iff.mp h
  exact (names_of_mem_checkEntity hcheck hw).1

/-- Of what is found of several entities the part about those with a property is what is found of
these entities alone. -/
theorem validateEntities_filter {es : List Entity} {vs : List Violation} (p : Entity → Bool)
    (h : v.validateEntities s es = .ok vs) :
    v.validateEntities s (es.filter p) = .ok (vs.filter fun w => w.entity.any p) := by
  cases hstart : v.start s with
  | error err =>
    rw [validateEntities_of_start_error v s hstart] at h
    cases h
  | ok r =>
    have hrun : ∀ es, v.validateEntities s es = gather (v.validateEntity s) es := by
      intro es
      rw [gather_congr fun e _ => validateEntity_of_start v s hstart e]
      unfold validateEntities
      rw [hstart, ok_bind, checkEntities_eq_gather]
    rw [hrun] at h ⊢
    obtain ⟨found, hfound, rfl⟩ := gather_eq_ok_iff.mp h
    rw [gather_of_forall_ok fun e he => hfound e (List.mem_filter.mp he).1]
    refine congrArg Except.ok ?_
    exact (filter_flatMap_of_names
      (fun e he w hw => entity_of_mem_validateEntity (hfound e he) hw) p).symm

/-- **How validating a dataset relates to validating the document in it.** A document is loaded into
a dataset of an empty store, which is the data provider of a validator with any settings and rules.
Validating the dataset gives what validating the entities gives that are not marked as deleted, in
order, followed by what validating the store gives, errors included. If no entity is marked as
deleted, these are the entities of the document; and if the document itself can be validated, the
findings about the entities of the dataset are those of the document that are not about deleted
ones. -/
theorem validateDataset_load {text : String} {c : Collection} (hc : Document.parse text = .ok c)
    (d : String) (hstore : v.provider? = some (Store.empty.load d c.entities).provider) :
    v.validateDataset s d =
      (do return (← v.validateEntities s c.kept) ++ (← v.validateStore s)) ∧
    ((∀ e ∈ c.entities, e.deleted = false) → v.validateDataset s d =
      (do return (← v.validateCollection s c) ++ (← v.validateStore s))) ∧
    (∀ vs ws, v.validateCollection s c = .ok vs → v.validateStore s = .ok ws →
      v.validateDataset s d = .ok ((vs.filter fun w => w.entity.any (!·.deleted)) ++ ws)) := by
  have hdataset : v.validateDataset s d =
      (do return (← v.validateEntities s c.kept) ++ (← v.validateStore s)) :=
    validateDataset_eq hstore (Store.entitiesOf_load (Document.nodup_ids_of_parse hc) d)
  refine ⟨hdataset, fun hlive => ?_, fun vs ws hvs hws => ?_⟩
  · have hall : c.kept = c.entities := by
      unfold Collection.kept
      rw [List.filter_eq_self]
      intro e he
      rw [hlive e he]
      rfl
    rw [hdataset, hall]
    rfl
  · have hkept : v.validateEntities s c.kept =
        .ok (vs.filter fun w => w.entity.any (!·.deleted)) := validateEntities_filter _ hvs
    rw [hdataset, hkept, hws]
    rfl

/-- A register of two persons without name, the second of them marked as deleted. -/
def registerText : String :=
  "[\x7b\"id\": \"urn:anna\", \"refs\": " ++
  "\x7b\"http://www.w3.org/1999/02/22-rdf-syntax-ns#type\": \"urn:Person\"\x7d\x7d," ++
  "\x7b\"id\": \"urn:otto\", \"refs\": " ++
  "\x7b\"http://www.w3.org/1999/02/22-rdf-syntax-ns#type\": \"urn:Person\"\x7d, " ++
  "\"deleted\": true\x7d]"

/-- The collection of the register. -/
def register : Collection :=
  let es := [Entity.ofType "urn:anna" "urn:Person",
    { Entity.ofType "urn:otto" "urn:Person" with deleted := true }]
  ⟨.standard, none, es, Collection.positions es⟩

/-- The plain validator with the register as its data provider. -/
def registrar : Validator (Except ValidationError) :=
  { plain with provider? := some (Store.empty.load "people" register.entities).provider }

theorem parse_registerText : Document.parse registerText = .ok register := by
  unfold registerText
  -- the characters of each part are those it is written with, and so nothing has to be decoded
  refine Document.parse_of_toList (toList_append_of (toList_append_of (toList_append_of
    (toList_append_of String.toList_ofList String.toList_ofList) String.toList_ofList)
    String.toList_ofList) String.toList_ofList) ?_
  decide +kernel

/-- What is found of which entity. -/
def found (vs : List Violation) : List (Violation.Kind × Option String) :=
  vs.map fun w => (w.kind, w.entity.map Entity.id)

/-- The register is validated with both persons, the dataset with the one that it holds, and no
person is of an abstract class. -/
theorem reports_register :
    (registrar.validateCollection namedPersons register).toOption.map found =
      some [(.minPropertyOccurrenceNotMet, some "urn:anna"),
        (.minPropertyOccurrenceNotMet, some "urn:otto")] ∧
    (registrar.validateDataset namedPersons "people").toOption.map found =
      some [(.minPropertyOccurrenceNotMet, some "urn:anna")] ∧
    registrar.validateStore namedPersons = .ok [] := by
  decide +kernel

/-- The dataset is validated with the one person that it holds: what is found of the other one is
left out. -/
theorem validateDataset_load_register :
    Document.parse registerText = .ok register ∧
    registrar.provider? = some (Store.empty.load "people" register.entities).provider ∧
    ∃ vs, registrar.validateCollection namedPersons register = .ok vs ∧
      found vs = [(.minPropertyOccurrenceNotMet, some "urn:anna"),
        (.minPropertyOccurrenceNotMet, some "urn:otto")] ∧
      registrar.validateStore namedPersons = .ok [] ∧
      registrar.validateDataset namedPersons "people" =
        .ok ((vs.filter fun w => w.entity.any (!·.deleted)) ++ []) ∧
      registrar.validateDataset namedPersons "people" =
        (do return (← registrar.validateEntities namedPersons register.kept) ++
          (← registrar.validateStore namedPersons)) := by
  obtain ⟨hcollection, -, hstore⟩ := reports_register
  obtain ⟨hdataset, -, hfilter⟩ := validateDataset_load (v := registrar) (s := namedPersons)
    parse_registerText "people" rfl
  obtain ⟨vs, hvs, hfound⟩ := exists_ok_of_toOption_map hcollection
  exact ⟨parse_registerText, rfl, vs, hvs, hfound, hstore, hfilter vs [] hvs hstore, hdataset⟩

/-- Not every document is validated alike directly and in a dataset: what is found of an entity that
is marked as deleted is found directly only. -/
theorem not_forall_validateDataset_load :
    ¬ ∀ (text d : String) (c : Collection) (v : Validator (Except ValidationError)) (s : Schema),
      Document.parse text = .ok c →
      v.provider? = some (Store.empty.load d c.entities).provider →
      ∀ vs, v.validateDataset s d = .ok vs →
        ∃ found ws, v.validateCollection s c = .ok found ∧ v.validateStore s = .ok ws ∧
          vs.map Violation.finding = found.map Violation.finding ++ ws.map Violation.finding := by
  intro h
  obtain ⟨hcollection, hdataset, hstore⟩ := reports_register
  obtain ⟨vs, hvs, hone⟩ := exists_ok_of_toOption_map hdataset
  obtain ⟨both, hboth, htwo⟩ := exists_ok_of_toOption_map hcollection
  obtain ⟨all, ws, hfound, hws, heq⟩ :=
    h registerText "people" register registrar namedPersons parse_registerText rfl vs hvs
  obtain rfl := Except.ok.inj (hfound.symm.trans hboth)
  obtain rfl := Except.ok.inj (hws.symm.trans hstore)
  have hlength : vs.length = all.length := by
    simpa using congrArg List.length heq
  have hdatasetLength : vs.length = 1 := by
    simpa [found] using congrArg List.length hone
  have hallLength : all.length = 2 := by
    simpa [found] using congrArg List.length htwo
  omega

end Validator

end EntityGraph
