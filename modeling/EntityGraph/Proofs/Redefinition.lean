import EntityGraph.Proofs.Scripts

/-!
# Steps that are defined again

An operations file may hold several blocks with one name. The step is then the last body that is not
blank with the last parameters that are set, and these may stand in different blocks. This module
says when they come from the last block alone. The blocks of a text are told by its lines: the
markers cut them into sections, and what stands before the first marker is no part of any.

Results:
* `Division.parse_eq`, `nonempty_division_iff`: a text is an operations file exactly if its markers
  cut it into sections, and these are then its blocks.
* `step?_add_of_ne`, `step?_foldl_add_of_ne`: blocks leave the steps with other names as they are.
* `step?_add_eq_iff`: when a block that is added makes its step alone.
* `step?_eq_last_iff`: a step is what its last block makes alone exactly if nothing of the earlier
  ones shows through; `not_forall_step?_eq_last`: it can.
-/

namespace EntityGraph.Operations

open Text

variable {text name : String} {ops : Operations} {b : Block} {bs earlier : List Block}

/-! ## The sections of a text -/

/-- The lines of a text are those at its front and those of its sections. -/
structure Division (text : String) where
  front : List Line
  sections : List Section
  unmarked : ∀ line ∈ front, ∀ name, line ≠ .marker name
  lines_eq : (lineLists text.toList).map Line.read = front ++ sections.flatMap Section.lines

/-- The blocks of a text. -/
def Division.blocks (d : Division text) : List Block := d.sections.map Section.block

/-- The steps of a text are those of its blocks. -/
theorem Division.parse_eq (d : Division text) : parse text = .ok (ofBlocks d.blocks) := by
  rw [parse, blocks?_eq_some_iff.mpr ⟨d.unmarked, d.sections, d.lines_eq, rfl⟩]
  rfl

/-- **A text is an operations file exactly if its markers cut it into sections.** -/
theorem nonempty_division_iff : Nonempty (Division text) ↔ ∃ ops, parse text = .ok ops := by
  constructor
  · exact fun ⟨d⟩ => ⟨_, d.parse_eq⟩
  · rintro ⟨ops, hparse⟩
    rw [parse] at hparse
    split at hparse
    · rename_i front bs hblocks
      obtain ⟨hfront, ss, hlines, -⟩ := blocks?_eq_some_iff.mp hblocks
      exact ⟨⟨front, ss, hfront, hlines⟩⟩
    · cases hparse

/-! ## One block more -/

/-- The step that a block makes alone: none without a body, else the body with the parameters of the
block put in. -/
def Block.step? (b : Block) : Option String :=
  if b.body = "" then none else some (substitute b.parameters b.body)

/-- A block leaves the steps with other names as they are. -/
theorem step?_add_of_ne (h : b.name ≠ name) : (ops.add b).step? name = ops.step? name := by
  have hbody : (ops.add b).body? name = ops.body? name := by
    simp only [body?, add]
    split
    · rfl
    · rw [OrderedMap.get?_insert, if_neg h]
  have hparameters : (ops.add b).parameters.get? name = ops.parameters.get? name := by
    simp only [add]
    split
    · rfl
    · rw [OrderedMap.get?_insert, if_neg h]
  rw [step?, hbody, hparameters, step?]

/-- **Blocks leave the steps with other names as they are.** -/
theorem step?_foldl_add_of_ne (h : ∀ b ∈ bs, b.name ≠ name) (ops : Operations) :
    (bs.foldl add ops).step? name = ops.step? name := by
  induction bs generalizing ops with
  | nil => rfl
  | cons b bs ih =>
    rw [List.forall_mem_cons] at h
    rw [List.foldl_cons, ih h.2, step?_add_of_ne h.1]

/-- **When a block that is added makes its step alone**: what it leaves open must make no
difference. -/
theorem step?_add_eq_iff :
    (ops.add b).step? b.name = b.step? ↔
      (b.body = "" → ops.body? b.name = none) ∧
      (b.body ≠ "" → b.parameters.toList = [] → ∀ parameters,
        ops.parameters.get? b.name = some parameters → substitute parameters b.body = b.body) := by
  by_cases hbody : b.body = ""
  · -- the body that is there stays, and its step is none only where there is no body
    have hkept : (ops.add b).body? b.name = ops.body? b.name := by simp [body?, add, hbody]
    rw [step?, hkept, Block.step?, if_pos hbody, Option.map_eq_none_iff]
    simp [hbody]
  · have hset : (ops.add b).body? b.name = some b.body := by
      simp [body?, add, hbody, OrderedMap.get?_insert]
    rw [step?, hset, Option.map_some, Block.step?, if_neg hbody, Option.some.injEq]
    by_cases hparameters : b.parameters.toList = []
    · have hkept : (ops.add b).parameters = ops.parameters := by simp [add, hparameters]
      have hnothing : substitute b.parameters b.body = b.body := by simp [substitute, hparameters]
      rw [hkept, hnothing]
      cases ops.parameters.get? b.name <;> simp [hbody, hparameters]
    · have hset : (ops.add b).parameters.get? b.name = some b.parameters := by
        simp [add, hparameters, OrderedMap.get?_insert]
      rw [hset]
      simp [hbody, hparameters]

/-! ## What shows through -/

/-- One parameter leaves a body as it is exactly if it does not occur there or stands for itself. -/
theorem substitute_eq_self_iff {parameters : OrderedMap String String}
    (hone : parameters.size ≤ 1) {body : String} :
    substitute parameters body = body ↔
      ∀ p ∈ parameters.toList, contains ("$" ++ p.1) body = true → p.2 = "$" ++ p.1 := by
  rw [OrderedMap.size] at hone
  rw [substitute]
  cases hlist : parameters.toList with
  | nil => simp
  | cons p rest =>
    have hrest : rest = [] := by simpa [hlist] using hone
    simp [hrest, replace_eq_self_iff]

/-- The last parameters that blocks set for a name. -/
theorem parameters?_ofBlocks_eq_some_iff {parameters : OrderedMap String String} :
    (ofBlocks bs).parameters.get? name = some parameters ↔
      ∃ before b between, bs = before ++ b :: between ∧ b.name = name ∧
        b.parameters = parameters ∧ parameters.toList ≠ [] ∧
        ∀ b' ∈ between, b'.name = name → b'.parameters.toList = [] := by
  rw [parameters?_ofBlocks, Option.map_eq_some_iff]
  constructor
  · rintro ⟨b, hfind, rfl⟩
    obtain ⟨hb, between, before, hsplit, hbetween⟩ := List.find?_eq_some_iff_append.mp hfind
    obtain ⟨hname, hset⟩ : b.name = name ∧ b.parameters.toList ≠ [] := by simpa using hb
    refine ⟨before.reverse, b, between.reverse, ?_, hname, rfl, hset, ?_⟩
    · rw [← List.reverse_reverse bs, hsplit]
      simp
    · simpa [imp_iff_not_or] using hbetween
  · rintro ⟨before, b, between, rfl, hname, rfl, hset, hbetween⟩
    refine ⟨b, List.find?_eq_some_iff_append.mpr ⟨?_, between.reverse, before.reverse, ?_, ?_⟩, rfl⟩
    · simpa using ⟨hname, hset⟩
    · simp
    · simpa [imp_iff_not_or] using hbetween

/-- A block leaves nothing open that an earlier one with its name has settled. -/
structure Block.StandsAlone (b : Block) (earlier : List Block) : Prop where
  /-- Where it has no body, no earlier block has one. -/
  body : b.body = "" → ∀ b' ∈ earlier, b'.name = b.name → b'.body = ""
  /-- Where it sets no parameter, the one that was set last before does not occur in its body or
  stands for itself. -/
  parameter : b.body ≠ "" → b.parameters.toList = [] → ∀ before b' between,
    earlier = before ++ b' :: between → b'.name = b.name →
    (∀ b'' ∈ between, b''.name = b.name → b''.parameters.toList = []) →
    ∀ p ∈ b'.parameters.toList, contains ("$" ++ p.1) b.body = true → p.2 = "$" ++ p.1

/-- **A block behind others makes its step alone exactly if it stands alone.** -/
theorem step?_add_ofBlocks_eq_iff (hone : ∀ b' ∈ earlier, b'.parameters.size ≤ 1) :
    ((ofBlocks earlier).add b).step? b.name = b.step? ↔ b.StandsAlone earlier := by
  rw [step?_add_eq_iff, body?_ofBlocks_eq_none_iff]
  constructor
  · rintro ⟨hbody, hparameters⟩
    refine ⟨hbody, fun hne hnone before b' between hsplit hname hbetween p hp => ?_⟩
    have hset : b'.parameters.toList ≠ [] := List.ne_nil_of_mem hp
    have hmem : b' ∈ earlier := by simp [hsplit]
    have hfound := parameters?_ofBlocks_eq_some_iff.mpr
      ⟨before, b', between, hsplit, hname, rfl, hset, hbetween⟩
    exact (substitute_eq_self_iff (hone b' hmem)).mp (hparameters hne hnone _ hfound) p hp
  · intro h
    refine ⟨h.body, fun hne hnone parameters hfound => ?_⟩
    obtain ⟨before, b', between, hsplit, hname, rfl, -, hbetween⟩ :=
      parameters?_ofBlocks_eq_some_iff.mp hfound
    have hmem : b' ∈ earlier := by simp [hsplit]
    exact (substitute_eq_self_iff (hone b' hmem)).mpr
      (h.parameter hne hnone before b' between hsplit hname hbetween)

/-- **A step is what its last block makes alone exactly if that block stands alone**, and a name
without block has no step. -/
theorem step?_eq_last_iff (hparse : parse text = .ok ops) :
    Nonempty (Division text) ∧
    ∀ d : Division text, (∀ b ∈ d.blocks, b.parameters.size ≤ 1) →
      (∀ name, (∀ b ∈ d.blocks, b.name ≠ name) → ops.step? name = none) ∧
      ∀ earlier b later, d.blocks = earlier ++ b :: later → (∀ b' ∈ later, b'.name ≠ b.name) →
        (ops.step? b.name = b.step? ↔ b.StandsAlone earlier) := by
  refine ⟨nonempty_division_iff.mpr ⟨ops, hparse⟩, fun d hone => ?_⟩
  obtain rfl : ofBlocks d.blocks = ops := Except.ok.inj (d.parse_eq.symm.trans hparse)
  constructor
  · intro name hname
    rw [ofBlocks, step?_foldl_add_of_ne hname]
    rfl
  · intro earlier b later hsplit hlater
    have hearlier : ∀ b' ∈ earlier, b'.parameters.size ≤ 1 := fun b' hb' =>
      hone b' (by simp [hsplit, hb'])
    -- the blocks behind the last one have other names
    have hstep : (ofBlocks d.blocks).step? b.name = ((ofBlocks earlier).add b).step? b.name := by
      rw [hsplit, ofBlocks, List.foldl_append, List.foldl_cons, step?_foldl_add_of_ne hlater]
      rfl
    rw [hstep, step?_add_ofBlocks_eq_iff hearlier]

/-- A section that validates the dataset that its parameter names, if it sets it. -/
def onDataset (name : String) (dataset? : Option String) (hname : name ≠ "") : Section where
  name := name
  own := dataset?.toList.map (fun dataset => .parameter "dataset".toList dataset.toList) ++
    [.body "VALIDATE DATASET $dataset".toList]
  name_ne := hname
  unmarked := by cases dataset? <;> simp

/-- A section that validates the store, if it says so. -/
def onStore (name : String) (body? : Option String) (hname : name ≠ "") : Section where
  name := name
  own := body?.toList.map fun body => .body body.toList
  name_ne := hname
  unmarked := by cases body? <;> simp

/-- A file with three steps that are defined twice. The second block of one sets its parameter, that
of another does not, and that of the last has no body. -/
def revisedText : String := "\n".intercalate [
  "--# citizens", "-- @param $dataset = citizens", "VALIDATE DATASET $dataset",
  "--# robots", "-- @param $dataset = robots", "VALIDATE DATASET $dataset",
  "--# all", "VALIDATE SCHEMA",
  "--# citizens", "VALIDATE DATASET $dataset",
  "--# robots", "-- @param $dataset = machines", "VALIDATE DATASET $dataset",
  "--# all"]

/-- The sections of the file. -/
def revised : Division revisedText where
  front := []
  sections := [
    onDataset "citizens" "citizens" (by decide),
    onDataset "robots" "robots" (by decide),
    onStore "all" "VALIDATE SCHEMA" (by decide),
    onDataset "citizens" none (by decide),
    onDataset "robots" "machines" (by decide),
    onStore "all" none (by decide)]
  unmarked := List.forall_mem_nil _
  lines_eq := by
    -- the characters of each line are few enough to be counted out, those of the text are not
    rw [revisedText, String.toList_intercalate]
    decide +kernel

/-- The robots have the dataset that their last block sets. The citizens have one that theirs does
not set, and the store is validated although the last block of all is empty. -/
theorem step?_eq_last_iff_revised :
    ∃ ops, parse revisedText = .ok ops ∧ (∀ b ∈ revised.blocks, b.parameters.size ≤ 1) ∧
      ops.step? "robots" = some "VALIDATE DATASET machines" ∧
      ops.step? "citizens" ≠ some "VALIDATE DATASET $dataset" ∧ ops.step? "all" ≠ none ∧
      ops.step? "nobody" = none := by
  obtain ⟨-, h⟩ := step?_eq_last_iff revised.parse_eq
  have hone : ∀ b ∈ revised.blocks, b.parameters.size ≤ 1 := by decide +kernel
  obtain ⟨hmissing, hlast⟩ := h revised hone
  have hrobots := hlast (revised.blocks.take 4) (onDataset "robots" "machines" (by decide)).block
    (revised.blocks.drop 5) rfl (by decide +kernel)
  have hcitizens := hlast (revised.blocks.take 3) (onDataset "citizens" none (by decide)).block
    (revised.blocks.drop 4) rfl (by decide +kernel)
  have hall := hlast (revised.blocks.take 5) (onStore "all" none (by decide)).block [] rfl
    (List.forall_mem_nil _)
  refine ⟨_, revised.parse_eq, hone, ?_, ?_, ?_, hmissing _ (by decide +kernel)⟩
  · refine (hrobots.mpr ⟨fun hbody => ?_, fun _ hnone => ?_⟩).trans (by decide +kernel)
    · exact absurd hbody (by decide +kernel)
    · exact absurd hnone (by decide +kernel)
  · intro hsaid
    have halone := hcitizens.mp (hsaid.trans (by decide +kernel))
    have := halone.parameter (by decide +kernel) (by decide +kernel) []
      (onDataset "citizens" "citizens" (by decide)).block ((revised.blocks.take 3).drop 1) rfl rfl
      (by decide +kernel) ("dataset", "citizens") (by decide +kernel) (by decide +kernel)
    exact absurd this (by decide)
  · intro hnone
    have halone := hall.mp (hnone.trans (by decide +kernel))
    have := halone.body (by decide +kernel) (onStore "all" "VALIDATE SCHEMA" (by decide)).block
      (List.mem_iff_getElem?.mpr ⟨2, rfl⟩) rfl
    exact absurd this (by decide +kernel)

/-- **An earlier block can show through**: the body of the last takes the parameter of the first. -/
theorem not_forall_step?_eq_last :
    ¬ ∀ (text : String) (ops : Operations), parse text = .ok ops → ∀ d : Division text,
      (∀ b ∈ d.blocks, b.parameters.size ≤ 1) → ∀ earlier b later,
      d.blocks = earlier ++ b :: later → (∀ b' ∈ later, b'.name ≠ b.name) →
      ops.step? b.name = b.step? := by
  intro h
  have hsaid := h _ _ revised.parse_eq revised (by decide +kernel) (revised.blocks.take 3)
    (onDataset "citizens" none (by decide)).block (revised.blocks.drop 4) rfl (by decide +kernel)
  exact absurd hsaid (by decide +kernel)

end EntityGraph.Operations
