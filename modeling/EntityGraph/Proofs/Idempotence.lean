import EntityGraph.Proofs.Canonical
import Mathlib.Algebra.Order.BigOperators.Group.List
import Mathlib.Algebra.Order.Group.Nat

/-!
# When expansion is idempotent

A short identifier is expanded once: what its label is bound to is not read as an identifier again.
An expansion that is a full URI ends there. Any other one gives an identifier that may be short
itself, and then expanding it a second time leads elsewhere, or fails. Only labels that are bound to
themselves are harmless then.

Results:
* `isFullUri_labelled`: which identifiers with a label are taken for full URIs.
* `expand_cases`: what an identifier expands to.
* `expand_eq_self_iff`, `canonical_eq_self_iff`: which identifiers are their own expansion, and
  which their own canonical form.
* `rests_iff`: when all expansions come to rest, by the bindings of the table.
* `expand_idempotent_iff`: the tables with which expansion is idempotent, and those with which the
  canonical form is its own canonical form.
-/

namespace EntityGraph

/-! ## Cutting texts that are put together -/

namespace Text

theorem cut?_eq_none_iff {c : Char} {s : String} : cut? c s = none ↔ c ∉ s.toList := by
  constructor
  · intro h hmem
    obtain ⟨l, r, hs, hl⟩ := List.eq_append_cons_of_mem hmem
    have hcut : cut? c s = some (String.ofList l, String.ofList r) :=
      cut?_eq_some_iff.mpr ⟨String.toList_injective (by simp [hs]), by simpa using hl⟩
    rw [h] at hcut
    cases hcut
  · intro h
    rw [Option.eq_none_iff_forall_ne_some]
    rintro ⟨l, r⟩ hcut
    obtain ⟨rfl, -⟩ := cut?_eq_some_iff.mp hcut
    exact h (by simp)

theorem cut?_append_of_some {c : Char} {s l r : String} (h : cut? c s = some (l, r)) (t : String) :
    cut? c (s ++ t) = some (l, r ++ t) := by
  obtain ⟨rfl, hl⟩ := cut?_eq_some_iff.mp h
  exact cut?_eq_some_iff.mpr ⟨String.append_assoc, hl⟩

/-- Whether `://` occurs behind a label is decided by what follows the label. -/
theorem occursIn_labelled {label : List Char} (h : ':' ∉ label) (rest : List Char) :
    occursIn [':', '/', '/'] (label ++ ':' :: rest) =
      (['/', '/'].isPrefixOf rest || occursIn [':', '/', '/'] rest) := by
  induction label with
  | nil => simp [occursIn, List.isPrefixOf]
  | cons c label ih =>
    simp only [List.mem_cons, not_or] at h
    simp [occursIn, List.isPrefixOf, h.1, ih h.2]

end Text

namespace Namespaces

/-! ## Identifiers with a label -/

/-- A label that a short identifier can have. A label ends before the first colon, and what begins
with `urn:` is a full URI. -/
structure Usable (label : String) : Prop where
  noColon : ':' ∉ label.toList
  ne_urn : label ≠ "urn"

/-- Whether an identifier with this local part is taken for a full URI, whatever its label. -/
def looksFull (rest : String) : Bool := Text.startsWith "//" rest || Text.contains "://" rest

theorem cut?_labelled {label : String} (h : ':' ∉ label.toList) (rest : String) :
    Text.cut? ':' (label ++ ":" ++ rest) = some (label, rest) :=
  Text.cut?_eq_some_iff.mpr ⟨rfl, h⟩

/-- **Which identifiers with a label are taken for full URIs.** -/
theorem isFullUri_labelled {label : String} (h : ':' ∉ label.toList) (rest : String) :
    isFullUri (label ++ ":" ++ rest) = true ↔ label = "urn" ∨ looksFull rest = true := by
  have hurn : Text.startsWith "urn:" (label ++ ":" ++ rest) = true ↔ label = "urn" := by
    unfold Text.startsWith
    rw [List.isPrefixOf_iff_prefix]
    constructor
    · rintro ⟨tail, htail⟩
      have hcut : Text.cut? ':' (label ++ ":" ++ rest) = some ("urn", String.ofList tail) := by
        refine Text.cut?_eq_some_iff.mpr ⟨String.toList_injective ?_, by decide⟩
        rw [← htail]
        simp
      rw [cut?_labelled h] at hcut
      exact (Prod.mk.inj (Option.some.inj hcut)).1
    · rintro rfl
      exact ⟨rest.toList, by simp⟩
  have hmark : Text.contains "://" (label ++ ":" ++ rest) = looksFull rest := by
    unfold Text.contains looksFull Text.startsWith Text.contains
    simpa using Text.occursIn_labelled h rest.toList
  unfold isFullUri
  rw [Bool.or_eq_true, hurn, hmark, or_comm]

theorem isFullUri_of_not_mem {a : String} (h : ':' ∉ a.toList) : isFullUri a = false := by
  rw [Bool.eq_false_iff]
  intro hfull
  have hmore := isFullUri_append (isFullUri_append hfull ":") ""
  rw [isFullUri_labelled h] at hmore
  rcases hmore with rfl | hempty
  · exact absurd hfull (by decide)
  · exact absurd hempty (by decide)

/-- **The forms of an identifier**: a full URI, a short identifier or a bare name. -/
theorem identifier_cases (a : String) : isFullUri a = true ∨
    (∃ label rest, a = label ++ ":" ++ rest ∧ Usable label ∧ looksFull rest = false) ∨
    ':' ∉ a.toList := by
  cases hcut : Text.cut? ':' a with
  | none => exact Or.inr (Or.inr (Text.cut?_eq_none_iff.mp hcut))
  | some p =>
    have hparts : Text.cut? ':' a = some (p.1, p.2) := hcut
    obtain ⟨ha, hlabel⟩ := Text.cut?_eq_some_iff.mp hparts
    by_cases hfull : isFullUri a = true
    · exact Or.inl hfull
    · have hshort : ¬ (p.1 = "urn" ∨ looksFull p.2 = true) := by
        rw [← isFullUri_labelled hlabel]
        exact ha ▸ hfull
      rw [not_or, Bool.not_eq_true] at hshort
      exact Or.inr (Or.inl ⟨p.1, p.2, ha, ⟨hlabel, hshort.1⟩, hshort.2⟩)

variable {ns : Namespaces} {label rest : String}

theorem not_isFullUri_labelled (h : Usable label) (hrest : looksFull rest = false) :
    isFullUri (label ++ ":" ++ rest) = false := by
  rw [Bool.eq_false_iff, ne_eq, isFullUri_labelled h.noColon, hrest]
  simp [h.ne_urn]

/-- A short identifier stands for what its label is bound to, followed by its local part. -/
theorem expand_labelled (h : Usable label) (hrest : looksFull rest = false) :
    ns.expand (label ++ ":" ++ rest) = match ns.expansion? label with
      | some expansion => .ok (expansion ++ rest)
      | none => .error ⟨label, label ++ ":" ++ rest⟩ := by
  unfold expand
  rw [not_isFullUri_labelled h hrest, cut?_labelled h.noColon]
  rfl

/-- What a bare name is given in front. -/
def bareExpansion (ns : Namespaces) : String := (ns.expansion? bareLabel).getD ""

theorem expand_bare {a : String} (h : ':' ∉ a.toList) :
    ns.expand a = .ok (ns.bareExpansion ++ a) := by
  unfold expand bareExpansion
  rw [isFullUri_of_not_mem h, Text.cut?_eq_none_iff.mpr h]
  cases ns.expansion? bareLabel <;> simp

/-- **What an identifier expands to**, by its form. -/
theorem expand_cases {a u : String} (h : ns.expand a = .ok u) :
    (isFullUri a = true ∧ u = a) ∨
    (∃ label rest expansion, a = label ++ ":" ++ rest ∧ Usable label ∧ looksFull rest = false ∧
      ns.expansion? label = some expansion ∧ u = expansion ++ rest) ∨
    ':' ∉ a.toList ∧ u = ns.bareExpansion ++ a := by
  rcases identifier_cases a with hfull | ⟨label, rest, rfl, hlabel, hrest⟩ | hbare
  · rw [expand_of_isFullUri hfull] at h
    exact Or.inl ⟨hfull, (Except.ok.inj h).symm⟩
  · rw [expand_labelled hlabel hrest] at h
    cases hexpansion : ns.expansion? label with
    | none => simp [hexpansion] at h
    | some expansion =>
      simp only [hexpansion] at h
      exact Or.inr (Or.inl ⟨label, rest, expansion, rfl, hlabel, hrest, hexpansion,
        (Except.ok.inj h).symm⟩)
  · rw [expand_bare hbare] at h
    exact Or.inr (Or.inr ⟨hbare, (Except.ok.inj h).symm⟩)

/-! ## Identifiers at rest -/

/-- A text that is a full URI, or begins with a label that is good. -/
def Anchored (good : String → Prop) (text : String) : Prop :=
  isFullUri text = true ∨ ∃ label rest, Text.cut? ':' text = some (label, rest) ∧ good label

/-- A label that is bound to itself: identifiers that have it are their own expansions. -/
def Fixes (ns : Namespaces) (label : String) : Prop := ns.expansion? label = some (label ++ ":")

/-- A label that is bound to itself or not at all: identifiers that have it are their own canonical
forms. -/
def Inert (ns : Namespaces) (label : String) : Prop :=
  ns.expansion? label = none ∨ ns.Fixes label

/-- An identifier that is anchored, or a bare name in a table that leaves bare names alone. -/
def Rests (ns : Namespaces) (good : String → Prop) (u : String) : Prop :=
  Anchored good u ∨ ':' ∉ u.toList ∧ ns.bareExpansion = ""

variable {good : String → Prop}

theorem rests_of_isFullUri {u : String} (h : isFullUri u = true) : ns.Rests good u :=
  Or.inl (Or.inl h)

theorem anchored_labelled (h : Usable label) (hrest : looksFull rest = false) :
    Anchored good (label ++ ":" ++ rest) ↔ good label := by
  unfold Anchored
  rw [not_isFullUri_labelled h hrest, cut?_labelled h.noColon]
  simp

theorem not_anchored {u : String} (h : ':' ∉ u.toList) : ¬ Anchored good u := by
  unfold Anchored
  rw [isFullUri_of_not_mem h, Text.cut?_eq_none_iff.mpr h]
  simp

theorem rests_labelled (h : Usable label) (hrest : looksFull rest = false) :
    ns.Rests good (label ++ ":" ++ rest) ↔ good label := by
  unfold Rests
  rw [anchored_labelled h hrest]
  simp

theorem rests_bare {u : String} (h : ':' ∉ u.toList) :
    ns.Rests good u ↔ ns.bareExpansion = "" := by
  unfold Rests
  simp [not_anchored h, h]

theorem expand_labelled_eq_self_iff (h : Usable label) (hrest : looksFull rest = false) :
    ns.expand (label ++ ":" ++ rest) = .ok (label ++ ":" ++ rest) ↔ ns.Fixes label := by
  unfold Fixes
  rw [expand_labelled h hrest]
  cases ns.expansion? label with
  | none => simp
  | some expansion => simp

/-- **Which identifiers are their own expansion.** -/
theorem expand_eq_self_iff {u : String} : ns.expand u = .ok u ↔ ns.Rests ns.Fixes u := by
  rcases identifier_cases u with hfull | ⟨label, rest, rfl, hlabel, hrest⟩ | hbare
  · exact iff_of_true (expand_of_isFullUri hfull) (rests_of_isFullUri hfull)
  · rw [rests_labelled hlabel hrest, expand_labelled_eq_self_iff hlabel hrest]
  · rw [rests_bare hbare, expand_bare hbare]
    simp

/-- **Which identifiers are their own canonical form.** -/
theorem canonical_eq_self_iff {u : String} : ns.canonical u = u ↔ ns.Rests ns.Inert u := by
  rcases identifier_cases u with hfull | ⟨label, rest, rfl, hlabel, hrest⟩ | hbare
  · exact iff_of_true (canonical_of_expand (expand_of_isFullUri hfull)) (rests_of_isFullUri hfull)
  · rw [rests_labelled hlabel hrest]
    unfold Inert Fixes canonical
    rw [expand_labelled hlabel hrest]
    cases ns.expansion? label with
    | none => simp
    | some expansion => simp
  · rw [rests_bare hbare, canonical_of_expand (expand_bare hbare)]
    simp

/-! ## Tables in which expansions come to rest -/

/-- An expansion without a colon, in a table that leaves bare names alone, if every label that an
identifier can continue it to is good. -/
structure Open (ns : Namespaces) (good : String → Prop) (expansion : String) : Prop where
  noColon : ':' ∉ expansion.toList
  bare : ns.bareExpansion = ""
  continued : ∀ t, looksFull t = false → Usable (expansion ++ t) → good (expansion ++ t)

theorem looksFull_of_append {a b : String} (h : looksFull (a ++ b) = false) :
    looksFull a = false := by
  unfold looksFull Text.startsWith Text.contains at h ⊢
  rw [Bool.or_eq_false_iff] at h ⊢
  rw [String.toList_append] at h
  refine ⟨Bool.eq_false_iff.mpr fun hstart => ?_, Bool.eq_false_iff.mpr fun hmark => ?_⟩
  · rw [List.isPrefixOf_iff_prefix] at hstart
    have hlong := hstart.trans (List.prefix_append a.toList b.toList)
    rw [← List.isPrefixOf_iff_prefix, h.1] at hlong
    cases hlong
  · rw [Text.occursIn_append hmark b.toList] at h
    cases h.2

/-- A local part stays one when a colon is put behind it. -/
theorem looksFull_colon {t : String} (hcolon : ':' ∉ t.toList) (h : looksFull t = false) :
    looksFull (t ++ ":") = false := by
  have hmark : Text.occursIn [':', '/', '/'] (t.toList ++ ':' :: []) = false := by
    rw [Text.occursIn_labelled hcolon]
    decide
  unfold looksFull Text.startsWith Text.contains at h ⊢
  rw [Bool.or_eq_false_iff] at h ⊢
  refine ⟨?_, by simpa using hmark⟩
  have hstart := h.1
  rw [String.toList_append]
  generalize t.toList = l at hstart ⊢
  rcases l with _ | ⟨a, _ | ⟨b, l⟩⟩
  · decide
  · simp [List.isPrefixOf]
  · simpa [List.isPrefixOf] using hstart

/-- What continues an expansion that is anchored or open comes to rest. -/
theorem rests_append {expansion r : String}
    (h : Anchored good expansion ∨ ns.Open good expansion)
    (hr : looksFull r = false ∨ ':' ∉ r.toList) : ns.Rests good (expansion ++ r) := by
  rcases h with (hfull | ⟨label, rest, hcut, hgood⟩) | hopen
  · exact rests_of_isFullUri (isFullUri_append hfull r)
  · exact Or.inl (Or.inr ⟨label, rest ++ r, Text.cut?_append_of_some hcut r, hgood⟩)
  · cases hcut : Text.cut? ':' r with
    | none =>
      rw [Text.cut?_eq_none_iff] at hcut
      refine (rests_bare ?_).mpr hopen.bare
      simp [hopen.noColon, hcut]
    | some p =>
      obtain ⟨rfl, hp⟩ :=
        Text.cut?_eq_some_iff.mp (show Text.cut? ':' r = some (p.1, p.2) from hcut)
      have hlabel : ':' ∉ (expansion ++ p.1).toList := by simp [hopen.noColon, hp]
      rw [← String.append_assoc, ← String.append_assoc]
      by_cases hurn : expansion ++ p.1 = "urn"
      · exact rests_of_isFullUri ((isFullUri_labelled hlabel p.2).mpr (Or.inl hurn))
      · have hrest : looksFull (p.1 ++ ":" ++ p.2) = false := hr.resolve_right (by simp)
        have hgood := hopen.continued p.1
          (looksFull_of_append (looksFull_of_append hrest)) ⟨hlabel, hurn⟩
        exact Or.inl (Or.inr ⟨_, _, cut?_labelled hlabel p.2, hgood⟩)

/-- **When all expansions come to rest**: each label that an identifier can have is bound to an
expansion that is anchored or open. -/
theorem rests_iff : (∀ a u, ns.expand a = .ok u → ns.Rests good u) ↔
    ∀ label expansion, Usable label → ns.expansion? label = some expansion →
      Anchored good expansion ∨ ns.Open good expansion := by
  constructor
  · intro h label expansion hlabel hexpansion
    have hexpand : ∀ r, looksFull r = false → ns.Rests good (expansion ++ r) := fun r hr =>
      h (label ++ ":" ++ r) _ (by rw [expand_labelled hlabel hr, hexpansion])
    have hself := hexpand "" (by decide)
    rw [String.append_empty] at hself
    refine hself.imp_right fun ⟨hcolon, hbare⟩ => ⟨hcolon, hbare, fun t ht hcontinued => ?_⟩
    -- A colon behind `t` makes a label of the expansion and `t` together.
    have htcolon : ':' ∉ t.toList := fun hmem => hcontinued.noColon (by simp [hmem])
    have hrests := hexpand (t ++ ":" ++ "") (by simpa using looksFull_colon htcolon ht)
    rw [← String.append_assoc, ← String.append_assoc] at hrests
    exact (rests_labelled hcontinued (by decide)).mp hrests
  · intro h a u hu
    rcases expand_cases hu with ⟨hfull, rfl⟩ | ⟨label, rest, expansion, rfl, hlabel, hrest,
      hexpansion, rfl⟩ | ⟨hbare, rfl⟩
    · exact rests_of_isFullUri hfull
    · exact rests_append (h label expansion hlabel hexpansion) (Or.inl hrest)
    · unfold bareExpansion
      cases hexpansion : ns.expansion? bareLabel with
      | none =>
        refine (rests_bare (by simpa using hbare)).mpr ?_
        rw [bareExpansion, hexpansion, Option.getD_none]
      | some expansion =>
        exact rests_append (h bareLabel expansion ⟨by decide, by decide⟩ hexpansion) (Or.inr hbare)

/-- A table is finite, and so every text continues to a label that is not bound. -/
theorem exists_unbound (ns : Namespaces) {text : String} (h : ':' ∉ text.toList) :
    ∃ t, looksFull t = false ∧ Usable (text ++ t) ∧ ns.expansion? (text ++ t) = none := by
  let n := (ns.bindings.keys.map String.length).sum + 4
  let t := String.ofList (List.replicate n 'a')
  have hcolon : ':' ∉ t.toList := by simp [t]
  have hlength : (text ++ t).length = text.length + n := by simp [t]
  refine ⟨t, ?_, ⟨by simp [h, hcolon], fun hurn => ?_⟩, ?_⟩
  · have hmark := isFullUri_of_not_mem hcolon
    unfold isFullUri at hmark
    rw [Bool.or_eq_false_iff] at hmark
    unfold looksFull
    rw [hmark.1, Bool.or_false]
    simp [Text.startsWith, t, n, List.replicate_succ, List.isPrefixOf]
  · rw [hurn] at hlength
    have hthree : ("urn" : String).length = 3 := by decide
    omega
  · rw [← Option.not_isSome_iff_eq_none, Option.isSome_iff_exists]
    intro hbound
    have hmem := List.mem_map_of_mem (f := String.length) (OrderedMap.mem_keys_iff.mpr hbound)
    have hle := List.le_sum_of_mem hmem
    omega

theorem not_open_fixes (expansion : String) : ¬ ns.Open ns.Fixes expansion := by
  intro h
  obtain ⟨t, ht, husable, hnone⟩ := ns.exists_unbound h.noColon
  have hfixes := h.continued t ht husable
  rw [Fixes, hnone] at hfixes
  cases hfixes

/-- **When expansion is idempotent.** Expanding again changes nothing exactly if each label that a
short identifier can have is bound to a full URI, or to an expansion that begins with a label bound
to itself. For the canonical form, where an identifier that cannot be expanded stays as it is, that
label may also be unbound; or else the expansion has no colon, bare names are left alone, and no
label that continues the expansion is bound to anything but itself. -/
theorem expand_idempotent_iff (ns : Namespaces) :
    ((∀ a u, ns.expand a = .ok u → ns.expand u = .ok u) ↔
      ∀ label expansion, Usable label → ns.expansion? label = some expansion →
        Anchored ns.Fixes expansion) ∧
    ((∀ a, ns.canonical (ns.canonical a) = ns.canonical a) ↔
      ∀ label expansion, Usable label → ns.expansion? label = some expansion →
        Anchored ns.Inert expansion ∨ ns.Open ns.Inert expansion) := by
  constructor
  · simp only [expand_eq_self_iff]
    rw [rests_iff]
    simp only [not_open_fixes, or_false]
  · rw [← rests_iff]
    simp only [← canonical_eq_self_iff]
    constructor
    · intro h a u hu
      have hcanonical := h a
      rwa [canonical_of_expand hu] at hcanonical
    · intro h a
      cases ha : ns.expand a with
      | ok u => rw [canonical_of_expand ha, h a u ha]
      | error err => rw [canonical_of_unknown ha, canonical_of_unknown ha]

/-- A table with a label whose expansion is written with another label. -/
def chainedTable : Namespaces :=
  (standard.bind "base" "http://example.org/").bind "ex" "base:ex/"

/-- Not every table makes expansion idempotent, strict or not: where a label is bound to a short
identifier, expanding again goes one step further. -/
theorem not_forall_expand_idempotent :
    (¬ ∀ (ns : Namespaces) (a u : String), ns.expand a = .ok u → ns.expand u = .ok u) ∧
      ¬ ∀ (ns : Namespaces) (a : String), ns.canonical (ns.canonical a) = ns.canonical a := by
  have hfacts : chainedTable.expand "ex:ada" = .ok "base:ex/ada" ∧
      chainedTable.expand "base:ex/ada" = .ok "http://example.org/ex/ada" := by
    decide +kernel
  obtain ⟨honce, htwice⟩ := hfacts
  constructor
  · intro h
    have hsame := h chainedTable _ _ honce
    rw [htwice] at hsame
    exact absurd (Except.ok.inj hsame) (by decide)
  · intro h
    have hsame := h chainedTable "ex:ada"
    rw [canonical_of_expand honce, canonical_of_expand htwice] at hsame
    exact absurd hsame (by decide)

end Namespaces

end EntityGraph
