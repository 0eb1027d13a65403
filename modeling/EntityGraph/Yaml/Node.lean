import EntityGraph.Yaml.Token

/-!
# Nodes of a YAML text

A node is a scalar, a sequence or a mapping, possibly with an anchor and a tag, or an alias. This
module reads the tokens of a text into the node that its one document holds. Each reader gives
back the tokens it left, and no reader leaves more than it was given.

`Node ρ` names anchors by `ρ`: by their written names first, and by numbers once they are
resolved.
-/

namespace EntityGraph.Yaml

/-- What may stand in front of a node. -/
structure Properties (ρ : Type) where
  anchor : Option ρ := none
  /-- The tag, its handle replaced by what it is bound to. -/
  tag : Option Tag := none

/-- A node. -/
inductive Node (ρ : Type) where
  | alias (name : ρ)
  | scalar (props : Properties ρ) (plain : Bool) (text : String)
  | sequence (props : Properties ρ) (items : List (Node ρ))
  | mapping (props : Properties ρ) (entries : List (Node ρ × Node ρ))

/-- A scalar without text. -/
def Node.empty {ρ : Type} (props : Properties ρ := {}) : Node ρ := .scalar props true ""

instance {ρ : Type} : Inhabited (Node ρ) := ⟨.empty⟩

/-- What was read from tokens, and the tokens left. -/
structure Taken (α : Type) (ts : List Token) where
  value : α
  rest : List Token
  le : rest.length ≤ ts.length

namespace Taken

variable {α β : Type} {ts : List Token}

/-- What was read, changed. -/
def map (f : α → β) (t : Taken α ts) : Taken β ts := ⟨f t.value, t.rest, t.le⟩

/-- The same, out of more tokens. -/
def widen {us : List Token} (t : Taken α ts) (h : ts.length ≤ us.length) : Taken α us :=
  ⟨t.value, t.rest, Nat.le_trans t.le h⟩

end Taken

/-- The bindings of tag handles. -/
abbrev Handles := List (String × Tag)

/-- The handles that are bound without a directive. -/
def defaultHandles : Handles := [("!", .lone), ("!!", .ofString "tag:yaml.org,2002:")]

/-- The tag that is written. -/
def TagName.resolve (handles : Handles) (t : TagName) : Except Error Tag :=
  if t.handle.isEmpty then .ok t.rest
  else
    match handles.find? fun e => e.1 == t.handle with
    | some (_, expansion) => .ok (expansion ++ t.rest)
    | none => .error (.malformed "a bound tag handle")

/-- Takes an anchor and a tag, in either order. -/
def takeProperties (handles : Handles) (ts : List Token) :
    Except Error (Taken (Properties String) ts) :=
  match ts with
  | .anchor a :: .tag t :: rest => do
    return ⟨⟨some a, some (← t.resolve handles)⟩, rest, by simp only [List.length_cons]; omega⟩
  | .tag t :: .anchor a :: rest => do
    return ⟨⟨some a, some (← t.resolve handles)⟩, rest, by simp only [List.length_cons]; omega⟩
  | .anchor a :: rest => .ok ⟨⟨some a, none⟩, rest, by simp only [List.length_cons]; omega⟩
  | .tag t :: rest => do
    return ⟨⟨none, some (← t.resolve handles)⟩, rest, by simp only [List.length_cons]; omega⟩
  | ts => .ok ⟨{}, ts, Nat.le_refl _⟩

/-- Whether anything stands in front of a node. -/
def Properties.any {ρ : Type} (props : Properties ρ) : Bool :=
  props.anchor.isSome || props.tag.isSome

/-- Whether a token ends an entry of a block collection that has no node. -/
def endsBlockEntry : List Token → Bool
  | .blockEntry :: _ => true
  | .blockEnd :: _ => true
  | _ => false

/-- Whether a token ends a key or value that has no node. -/
def endsBlockPart : List Token → Bool
  | .key :: _ => true
  | .value :: _ => true
  | .blockEnd :: _ => true
  | _ => false

/-- Whether a token ends an entry of brackets that has no node. -/
def endsFlowPart (closing : Token) : List Token → Bool
  | .flowEntry :: _ => true
  | t :: _ => t = closing
  | [] => false

/-- Takes the comma in front of an entry that is not the first. -/
def takeComma (first : Bool) (closing : Token) : (ts : List Token) → Except Error (Taken Unit ts)
  | .flowEntry :: rest =>
    if first then .error (.malformed "a node") else .ok ⟨(), rest, Nat.le_succ _⟩
  | ts =>
    if first || ts.head? = some closing then .ok ⟨(), ts, Nat.le_refl _⟩
    else .error (.malformed "a comma or a bracket")

mutual

/-- Reads a node; with `block` it may be a block collection, and with `indentless` a sequence
whose entries are not indented. -/
def readNode (handles : Handles) (block indentless : Bool) (ts : List Token) :
    Except Error (Taken (Node String) ts) :=
  match ts with
  | .alias a :: rest => .ok ⟨.alias a, rest, Nat.le_succ _⟩
  | ts => do
    let p ← takeProperties handles ts
    have hp := p.le
    match h : p.rest with
    | .blockEntry :: rest =>
      if indentless then
        let r ← readIndentless handles (.blockEntry :: rest)
        return (r.map (.sequence p.value)).widen (by rw [h] at hp; exact hp)
      else if p.value.any then
        return ⟨.empty p.value, .blockEntry :: rest, by rw [h] at hp; exact hp⟩
      else throw (.malformed "a node")
    | .scalar plain text :: rest =>
      return ⟨.scalar p.value plain text, rest, by
        rw [h] at hp; simp only [List.length_cons] at hp; omega⟩
    | .flowSequenceStart :: rest =>
      have hlt : rest.length < ts.length := by
        rw [h] at hp; simp only [List.length_cons] at hp; omega
      let r ← readFlowSequence handles true rest
      return (r.map (.sequence p.value)).widen (Nat.le_of_lt hlt)
    | .flowMappingStart :: rest =>
      have hlt : rest.length < ts.length := by
        rw [h] at hp; simp only [List.length_cons] at hp; omega
      let r ← readFlowMapping handles true rest
      return (r.map (.mapping p.value)).widen (Nat.le_of_lt hlt)
    | .blockSequenceStart :: rest =>
      have hlt : rest.length < ts.length := by
        rw [h] at hp; simp only [List.length_cons] at hp; omega
      if block then
        let r ← readBlockSequence handles rest
        return (r.map (.sequence p.value)).widen (Nat.le_of_lt hlt)
      else if p.value.any then
        return ⟨.empty p.value, .blockSequenceStart :: rest, by rw [h] at hp; exact hp⟩
      else throw (.malformed "a node")
    | .blockMappingStart :: rest =>
      have hlt : rest.length < ts.length := by
        rw [h] at hp; simp only [List.length_cons] at hp; omega
      if block then
        let r ← readBlockMapping handles rest
        return (r.map (.mapping p.value)).widen (Nat.le_of_lt hlt)
      else if p.value.any then
        return ⟨.empty p.value, .blockMappingStart :: rest, by rw [h] at hp; exact hp⟩
      else throw (.malformed "a node")
    | rest =>
      if p.value.any then return ⟨.empty p.value, rest, by rw [h] at hp; exact hp⟩
      else throw (.malformed "a node")
termination_by 2 * ts.length + 1
decreasing_by all_goals rw [h] at hp; simp only [List.length_cons] at hp ⊢; omega

/-- Reads the entries of a block sequence and its end. -/
def readBlockSequence (handles : Handles) (ts : List Token) :
    Except Error (Taken (List (Node String)) ts) :=
  match ts with
  | .blockEnd :: rest => .ok ⟨[], rest, Nat.le_succ _⟩
  | .blockEntry :: rest => do
    let item ←
      if endsBlockEntry rest then pure ⟨.empty, rest, Nat.le_refl _⟩
      else readNode handles true false rest
    have hi := item.le
    let more ← readBlockSequence handles item.rest
    return (more.map (item.value :: ·)).widen (by simp only [List.length_cons]; omega)
  | _ => .error (.malformed "an entry of a block sequence")
termination_by 2 * ts.length

/-- Reads the entries of a sequence that is not indented. -/
def readIndentless (handles : Handles) (ts : List Token) :
    Except Error (Taken (List (Node String)) ts) :=
  match ts with
  | .blockEntry :: rest => do
    let item ←
      if endsBlockEntry rest || endsBlockPart rest then pure ⟨.empty, rest, Nat.le_refl _⟩
      else readNode handles true false rest
    have hi := item.le
    let more ← readIndentless handles item.rest
    return (more.map (item.value :: ·)).widen (by simp only [List.length_cons]; omega)
  | ts => .ok ⟨[], ts, Nat.le_refl _⟩
termination_by 2 * ts.length

/-- Reads the entries of a block mapping and its end. -/
def readBlockMapping (handles : Handles) (ts : List Token) :
    Except Error (Taken (List (Node String × Node String)) ts) :=
  match ts with
  | .blockEnd :: rest => .ok ⟨[], rest, Nat.le_succ _⟩
  | .key :: rest => do
    let k ←
      if endsBlockPart rest then pure ⟨.empty, rest, Nat.le_refl _⟩
      else readNode handles true true rest
    have hk := k.le
    let v ← match h : k.rest with
      | .value :: rest' =>
        if endsBlockPart rest' then
          pure (⟨.empty, rest', by rw [h]; exact Nat.le_succ _⟩ : Taken (Node String) k.rest)
        else do
          let v ← readNode handles true true rest'
          pure (v.widen (by rw [h]; exact Nat.le_succ _))
      | _ => pure ⟨.empty, k.rest, Nat.le_refl _⟩
    have hv := v.le
    let more ← readBlockMapping handles v.rest
    return (more.map ((k.value, v.value) :: ·)).widen (by simp only [List.length_cons]; omega)
  | _ => .error (.malformed "a key of a block mapping")
termination_by 2 * ts.length
decreasing_by
  all_goals first
    | (rw [h] at hk; simp only [List.length_cons] at hk ⊢; omega)
    | (simp only [List.length_cons]; omega)

/-- Reads the entries of a sequence in brackets and its end; a key makes a mapping of one entry. -/
def readFlowSequence (handles : Handles) (first : Bool) (ts : List Token) :
    Except Error (Taken (List (Node String)) ts) := do
  let start ← takeComma first .flowSequenceEnd ts
  have hs := start.le
  match h : start.rest with
  | .flowSequenceEnd :: rest =>
    return ⟨[], rest, by rw [h] at hs; simp only [List.length_cons] at hs; omega⟩
  | .key :: rest =>
    have hlt : rest.length < ts.length := by
      rw [h] at hs; simp only [List.length_cons] at hs; omega
    let k ←
      if endsFlowPart .flowSequenceEnd rest || rest.head? = some .value then
        pure ⟨.empty, rest.drop 1, by simp only [List.length_drop]; omega⟩
      else readNode handles false false rest
    have hk := k.le
    let v ← match h' : k.rest with
      | .value :: rest' =>
        if endsFlowPart .flowSequenceEnd rest' then
          pure (⟨.empty, rest', by rw [h']; exact Nat.le_succ _⟩ : Taken (Node String) k.rest)
        else do
          let v ← readNode handles false false rest'
          pure (v.widen (by rw [h']; exact Nat.le_succ _))
      | _ => pure ⟨.empty, k.rest, Nat.le_refl _⟩
    have hv := v.le
    let more ← readFlowSequence handles false v.rest
    return (more.map (.mapping {} [(k.value, v.value)] :: ·)).widen (by omega)
  | s :: rest =>
    have hle : (s :: rest).length ≤ ts.length := by rw [h] at hs; exact hs
    let item ← readNode handles false false (s :: rest)
    have hi := item.le
    if _hlt : item.rest.length < (s :: rest).length then
      let more ← readFlowSequence handles false item.rest
      return (more.map (item.value :: ·)).widen (by omega)
    else throw (.malformed "a node")
  | [] => throw (.malformed "a node")
termination_by 2 * ts.length + 2
decreasing_by
  all_goals first
    | (rw [h'] at hk; simp only [List.length_cons] at hk ⊢; omega)
    | omega

/-- Reads the entries of a mapping in braces and its end; an entry without colon has no value. -/
def readFlowMapping (handles : Handles) (first : Bool) (ts : List Token) :
    Except Error (Taken (List (Node String × Node String)) ts) := do
  let start ← takeComma first .flowMappingEnd ts
  have hs := start.le
  match h : start.rest with
  | .flowMappingEnd :: rest =>
    return ⟨[], rest, by rw [h] at hs; simp only [List.length_cons] at hs; omega⟩
  | .key :: rest =>
    have hlt : rest.length < ts.length := by
      rw [h] at hs; simp only [List.length_cons] at hs; omega
    let k ←
      if endsFlowPart .flowMappingEnd rest || rest.head? = some .value then
        pure ⟨.empty, rest, Nat.le_refl _⟩
      else readNode handles false false rest
    have hk := k.le
    let v ← match h' : k.rest with
      | .value :: rest' =>
        if endsFlowPart .flowMappingEnd rest' then
          pure (⟨.empty, rest', by rw [h']; exact Nat.le_succ _⟩ : Taken (Node String) k.rest)
        else do
          let v ← readNode handles false false rest'
          pure (v.widen (by rw [h']; exact Nat.le_succ _))
      | _ => pure ⟨.empty, k.rest, Nat.le_refl _⟩
    have hv := v.le
    let more ← readFlowMapping handles false v.rest
    return (more.map ((k.value, v.value) :: ·)).widen (by omega)
  | s :: rest =>
    have hle : (s :: rest).length ≤ ts.length := by rw [h] at hs; exact hs
    let item ← readNode handles false false (s :: rest)
    have hi := item.le
    if _hlt : item.rest.length < (s :: rest).length then
      let more ← readFlowMapping handles false item.rest
      return (more.map ((item.value, .empty) :: ·)).widen (by omega)
    else throw (.malformed "a node")
  | [] => throw (.malformed "a node")
termination_by 2 * ts.length + 2
decreasing_by
  all_goals first
    | (rw [h'] at hk; simp only [List.length_cons] at hk ⊢; omega)
    | omega

end

/-- Takes the directives of a document: at most one version, and bindings of different handles. -/
def takeDirectives (version : Bool) (handles : Handles) :
    List Token → Except Error (Handles × List Token)
  | .version major minor :: rest =>
    if version || major != 1 || !(minor == 1 || minor == 2) then .error (.malformed "a version")
    else takeDirectives true handles rest
  | .tagHandle handle expansion :: rest =>
    if handles.any fun e => e.1 == handle then .error (.malformed "a new tag handle")
    else takeDirectives version (handles ++ [(handle, expansion)]) rest
  | ts => .ok (handles, ts)

/-- The node of a document behind its marker. -/
def readContent (handles : Handles) (ts : List Token) :
    Except Error (Node String × List Token) :=
  match ts with
  | [] => .ok (.empty, ts)
  | .version .. :: _ => .ok (.empty, ts)
  | .tagHandle .. :: _ => .ok (.empty, ts)
  | .documentStart :: _ => .ok (.empty, ts)
  | .documentEnd :: _ => .ok (.empty, ts)
  | ts => (readNode handles true false ts).map fun r => (r.value, r.rest)

/-- The node of the one document of a text; none of a text without document. -/
def readDocument (ts : List Token) : Except Error (Option (Node String)) := do
  if ts.isEmpty then return none
  let (handles, rest) ← takeDirectives false [] ts
  let handles := handles ++ defaultHandles
  let (node, rest) ← match rest with
    | .documentStart :: rest => readContent handles rest
    | _ =>
      if rest.length < ts.length then throw (.malformed "a document")
      else (readNode handles true false rest).map fun r => (r.value, r.rest)
  match rest.dropWhile (· = .documentEnd) with
  | [] => return some node
  | _ => throw (.malformed "the end of the text")

end EntityGraph.Yaml
