import EntityGraph.Yaml.Lexer
import EntityGraph.Yaml.Node
import EntityGraph.Yaml.Scalar

/-!
# YAML values

A value is a node with its anchors resolved and its scalars read. Anchors are kept in numbered
slots: a new name takes the number of names known so far, and so a name that is given again may
share a slot with the next new name; an alias stands for the last node that took its slot.
-/

namespace EntityGraph.Yaml

/-- A value of a YAML text. -/
inductive Value where
  | null
  | bool (b : Bool)
  | int (i : Int)
  | float (x : Double)
  | string (s : String)
  | sequence (items : List Value)
  | mapping (entries : List (Value × Value))
  /-- A value with a tag of the application. -/
  | tagged (tag : String) (value : Value)
  deriving Inhabited

namespace Value

/-- The value of a scalar. -/
def ofScalar : Scalar → Value
  | .null => .null
  | .bool b => .bool b
  | .int i => .int i
  | .float x => .float x
  | .string s => .string s

/-- A tag without its leading exclamation mark. -/
def plainTag (tag : String) : List Char :=
  match tag.toList with
  | '!' :: c :: rest => c :: rest
  | cs => cs

/-- Whether two floating-point numbers are one key: the zeros are, and whatever is no number. -/
def sameFloat (x y : Double) : Bool := x == y || (x.isNaN && y.isNaN) || (x.isZero && y.isZero)

mutual

/-- Whether two values are equal as keys. The order of the entries of a mapping does not
matter. -/
def sameKey : Value → Value → Bool
  | .null, .null => true
  | .bool a, .bool b => a == b
  | .int a, .int b => a == b
  | .float x, .float y => sameFloat x y
  | .string a, .string b => a == b
  | .sequence a, .sequence b => sameItems a b
  | .mapping a, .mapping b => a.length == b.length && entriesAmong a b
  | .tagged t v, .tagged t' v' => plainTag t == plainTag t' && sameKey v v'
  | _, _ => false

/-- Whether two lists of values are equal item by item. -/
def sameItems : List Value → List Value → Bool
  | [], [] => true
  | v :: vs, w :: ws => sameKey v w && sameItems vs ws
  | _, _ => false

/-- Whether every entry has an equal one among the others. -/
def entriesAmong : List (Value × Value) → List (Value × Value) → Bool
  | [], _ => true
  | (k, v) :: rest, others =>
    (others.any fun (k', v') => sameKey k k' && sameKey v v') && entriesAmong rest others

end

/-- The value without its tags. -/
def untag : Value → Value
  | .tagged _ v => v.untag
  | v => v

end Value

/-! ## Anchors -/

/-- The slots of the anchors known so far. -/
abbrev Slots := List (String × Nat)

/-- Gives a name the slot of its next node. -/
def Slots.take (slots : Slots) (name : String) : Nat × Slots :=
  let n := slots.length
  if slots.any fun e => e.1 == name then
    (n, slots.map fun e => if e.1 == name then (name, n) else e)
  else (n, slots ++ [(name, n)])

/-- Numbers the anchor of a node. -/
def Properties.number (p : Properties String) (slots : Slots) : Properties Nat × Slots :=
  match p.anchor with
  | some name => let (n, slots) := slots.take name; (⟨some n, p.tag⟩, slots)
  | none => (⟨none, p.tag⟩, slots)

mutual

/-- Replaces the names of anchors by their slots, in the order of the text. -/
def Node.number (slots : Slots) : Node String → Except Error (Node Nat × Slots)
  | .alias name =>
    match slots.find? fun e => e.1 == name with
    | some (_, n) => .ok (.alias n, slots)
    | none => .error (.unknownAnchor name)
  | .scalar p plain text =>
    let (p, slots) := p.number slots
    .ok (.scalar p plain text, slots)
  | .sequence p items => do
    let (p, slots) := p.number slots
    let (items, slots) ← numberItems slots items
    return (.sequence p items, slots)
  | .mapping p entries => do
    let (p, slots) := p.number slots
    let (entries, slots) ← numberEntries slots entries
    return (.mapping p entries, slots)

/-- Numbers the items of a sequence. -/
def numberItems (slots : Slots) : List (Node String) → Except Error (List (Node Nat) × Slots)
  | [] => .ok ([], slots)
  | v :: rest => do
    let (v, slots) ← v.number slots
    let (rest, slots) ← numberItems slots rest
    return (v :: rest, slots)

/-- Numbers the entries of a mapping. -/
def numberEntries (slots : Slots) :
    List (Node String × Node String) → Except Error (List (Node Nat × Node Nat) × Slots)
  | [] => .ok ([], slots)
  | (k, v) :: rest => do
    let (k, slots) ← k.number slots
    let (v, slots) ← v.number slots
    let (rest, slots) ← numberEntries slots rest
    return ((k, v) :: rest, slots)

end

/-- The slot of a node, if it has an anchor. -/
def Node.slot? : Node Nat → Option Nat
  | .alias _ => none
  | .scalar p _ _ => p.anchor
  | .sequence p _ => p.anchor
  | .mapping p _ => p.anchor

mutual

/-- The nodes with anchors and their slots, in the order of the text. -/
def Node.anchored (node : Node Nat) : List (Nat × Node Nat) :=
  let inner := match node with
    | .sequence _ items => anchoredItems items
    | .mapping _ entries => anchoredEntries entries
    | _ => []
  match node.slot? with
  | some n => (n, node) :: inner
  | none => inner

/-- The nodes with anchors among items. -/
def anchoredItems : List (Node Nat) → List (Nat × Node Nat)
  | [] => []
  | v :: rest => v.anchored ++ anchoredItems rest

/-- The nodes with anchors among entries. -/
def anchoredEntries : List (Node Nat × Node Nat) → List (Nat × Node Nat)
  | [] => []
  | (k, v) :: rest => k.anchored ++ v.anchored ++ anchoredEntries rest

end

mutual

/-- The number of marks that make up a node: two for a collection, one for anything else. -/
def Node.size {ρ : Type} : Node ρ → Nat
  | .sequence _ items => 2 + sizeItems items
  | .mapping _ entries => 2 + sizeEntries entries
  | _ => 1

/-- The number of marks of items. -/
def sizeItems {ρ : Type} : List (Node ρ) → Nat
  | [] => 0
  | v :: rest => v.size + sizeItems rest

/-- The number of marks of entries. -/
def sizeEntries {ρ : Type} : List (Node ρ × Node ρ) → Nat
  | [] => 0
  | (k, v) :: rest => k.size + v.size + sizeEntries rest

end

/-! ## From nodes to values -/

/-- Collections a text may nest. -/
def maxDepth : Nat := 128

/-- Reads values, counting the aliases that may still be followed. -/
abbrev Expand := StateT Nat (Except Error)

/-- The node itself, or the node that an alias stands for. -/
def follow (anchored : List (Nat × Node Nat)) : Node Nat → Expand (Node Nat)
  | .alias n => do
    match ← get with
    | 0 => throw .repetition
    | left + 1 =>
      set left
      match anchored.reverse.find? fun e => e.1 == n with
      | some (_, node) => return node
      | none => throw (.unknownAnchor (toString n))
  | node => return node

/-- A mapping without repeated keys. -/
def mappingOf (entries : List (Value × Value)) : Except Error Value :=
  let repeated := entries.zipIdx.any fun ((k, _), n) =>
    (entries.take n).any fun (k', _) => Value.sameKey k' k
  if repeated then .error .repeatedKey else .ok (.mapping entries)

/-- The scalar of a node. Without tag, or with one that begins with an exclamation mark, a plain
one is read for what it stands for. -/
def scalarValue (tag : Option Tag) (plain : Bool) (text : String) : Except Error Value :=
  match tag.filter (!·.isLocal) with
  | some t => (Scalar.ofTag t text).map .ofScalar
  | none => if plain then (Scalar.resolve text).map .ofScalar else .ok (.string text)

/-- Marks a value with a tag of the application. -/
def Value.mark (tag : Option Tag) (v : Value) : Value :=
  match tag.bind Tag.application? with
  | some t => .tagged t v
  | none => v

/-- The value of a node that may nest `depth` collections. -/
def valueWithin (anchored : List (Nat × Node Nat)) : (depth : Nat) → Node Nat → Expand Value
  | 0, node => do
    match ← follow anchored node with
    | .scalar p plain text => return (← scalarValue p.tag plain text).mark p.tag
    | _ => throw .tooDeep
  | depth + 1, node => do
    match ← follow anchored node with
    | .alias n => throw (.unknownAnchor (toString n))
    | .scalar p plain text => return (← scalarValue p.tag plain text).mark p.tag
    | .sequence p items =>
      return (Value.sequence (← items.mapM (valueWithin anchored depth))).mark p.tag
    | .mapping p entries =>
      let entries ← entries.mapM fun (k, v) => do
        let k ← valueWithin anchored depth k
        let v ← valueWithin anchored depth v
        return (k, v)
      return (← mappingOf entries).mark p.tag

/-- The values of the sequence that a text holds. A text without document, and a document without
content, is an empty sequence. -/
def sequenceOfText (text : String) : Except Error (List Value) := do
  match ← readDocument (← tokens text) with
  | none => return []
  | some node =>
    let (node, _) ← node.number []
    match node with
    | .sequence _ items =>
      let read := items.mapM (valueWithin node.anchored (maxDepth - 1))
      return (← read.run (100 * node.size)).1
    | .scalar _ true "" => return []
    | _ => throw (.mismatch "a sequence")

end EntityGraph.Yaml
