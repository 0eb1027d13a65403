import EntityGraph.OrderedMap
import EntityGraph.Text.Search
import EntityGraph.Vocabulary

/-!
# Namespace tables

An identifier may be written short, as `label:local`, and stands for the expansion of its label
followed by the local part. A full URI stands for itself, and a bare name for itself or, when
the table binds the label `_`, for that expansion followed by the name.

Results:
* `expand_of_isFullUri`: a full URI is its own expansion.
* `canonical_of_expand`: the canonical form of an identifier that expands is its expansion.
* `same_refl`: denoting the same URI is reflexive.
-/

namespace EntityGraph

/-- Whether an identifier is already a full URI. -/
def isFullUri (identifier : String) : Bool :=
  Text.contains "://" identifier || Text.startsWith "urn:" identifier

/-- A table of labels and their expansions, in order of registration. -/
structure Namespaces where
  bindings : OrderedMap String String
  deriving DecidableEq, Inhabited

/-- Why an identifier has no expansion. -/
structure UnknownLabel where
  label : String
  identifier : String
  deriving DecidableEq, Repr

namespace Namespaces

/-- The label that applies to identifiers written without one. -/
def bareLabel : String := "_"

/-- The table without bindings. -/
def empty : Namespaces := ⟨∅⟩

/-- Binds a label, replacing the expansion it had. -/
def bind (ns : Namespaces) (label expansion : String) : Namespaces :=
  ⟨ns.bindings.insert label expansion⟩

/-- The table that every document starts from: the two vocabularies of the schema language. -/
def standard : Namespaces :=
  (empty.bind "rdf" Vocabulary.rdfNamespace).bind "egcl" Vocabulary.schemaNamespace

/-- Binds the pairs one after another. -/
def bindAll (ns : Namespaces) (pairs : List (String × String)) : Namespaces :=
  pairs.foldl (fun ns e => ns.bind e.1 e.2) ns

/-- The expansion bound to a label. -/
def expansion? (ns : Namespaces) (label : String) : Option String := ns.bindings.get? label

/-- The URI that an identifier stands for. -/
def expand (ns : Namespaces) (identifier : String) : Except UnknownLabel String :=
  if isFullUri identifier then .ok identifier
  else
    match Text.cut? ':' identifier with
    | some (label, rest) =>
      match ns.expansion? label with
      | some expansion => .ok (expansion ++ rest)
      | none => .error ⟨label, identifier⟩
    | none =>
      match ns.expansion? bareLabel with
      | some expansion => .ok (expansion ++ identifier)
      | none => .ok identifier

/-- The form in which identifiers are compared: the expansion, or the identifier as written when
it has none. -/
def canonical (ns : Namespaces) (identifier : String) : String :=
  match ns.expand identifier with
  | .ok uri => uri
  | .error _ => identifier

/-- Whether two identifiers denote the same URI. -/
def same (ns : Namespaces) (a b : String) : Bool :=
  a == b || ns.canonical a == ns.canonical b

/-- The later of two bindings unless its expansion is shorter in bytes. -/
def longer (a b : String × String) : String × String :=
  if b.2.utf8ByteSize < a.2.utf8ByteSize then a else b

/-- The binding with the longest expansion that begins `uri`; of equally long ones the one that
was registered last. -/
def longestMatch? (ns : Namespaces) (uri : String) : Option (String × String) :=
  (ns.bindings.toList.filter fun e => e.1 != bareLabel && Text.startsWith e.2 uri).foldl
    (fun best e => some (best.elim e (longer · e))) none

/-- Shortens a URI by the longest expansion that begins it. -/
def compact (ns : Namespaces) (uri : String) : String :=
  match ns.longestMatch? uri with
  | some (label, expansion) => label ++ ":" ++ (Text.stripStart? expansion uri).getD ""
  | none => uri

/-- A full URI is its own expansion. -/
theorem expand_of_isFullUri {ns : Namespaces} {u : String} (h : isFullUri u = true) :
    ns.expand u = .ok u := by
  simp [expand, h]

/-- The canonical form of an identifier that expands is its expansion. -/
theorem canonical_of_expand {ns : Namespaces} {a u : String} (h : ns.expand a = .ok u) :
    ns.canonical a = u := by
  simp [canonical, h]

/-- An identifier without expansion is its own canonical form. -/
theorem canonical_of_unknown {ns : Namespaces} {a : String} {e : UnknownLabel}
    (h : ns.expand a = .error e) : ns.canonical a = a := by
  simp [canonical, h]

@[simp] theorem same_refl (ns : Namespaces) (a : String) : ns.same a a = true := by
  simp [same]

/-- Two identifiers denote the same URI exactly if their canonical forms agree. -/
theorem same_iff {ns : Namespaces} {a b : String} :
    ns.same a b = true ↔ ns.canonical a = ns.canonical b := by
  simp only [same, Bool.or_eq_true, beq_iff_eq]
  constructor
  · rintro (rfl | h)
    · rfl
    · exact h
  · exact Or.inr

end Namespaces

end EntityGraph
