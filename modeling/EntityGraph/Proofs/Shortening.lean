import EntityGraph.Proofs.Idempotence

/-!
# Shortening and expanding

A URI is shortened by the longest expansion that it begins with, and what is behind the expansion
becomes the local part. Expanding gives the URI back unless the short form is taken for a full URI
itself, which happens where the local part begins with `//` or contains `://`: the address of an
archived page, for example, holds another address.

Results:
* `compact_cases`: what a URI is shortened to.
* `expand_shortened_iff`: when a short form of a URI expands to it, whichever binding it is made
  with.
* `expand_compact_iff`: when the short form that is chosen does.
-/

namespace EntityGraph

theorem Text.startsWith_iff {start s : String} :
    startsWith start s = true ↔ ∃ rest, s = start ++ rest := by
  unfold startsWith
  rw [List.isPrefixOf_iff_prefix]
  constructor
  · rintro ⟨rest, hrest⟩
    exact ⟨String.ofList rest, String.toList_injective (by simp [hrest])⟩
  · rintro ⟨rest, rfl⟩
    exact ⟨rest.toList, by simp⟩

namespace Namespaces

variable {ns : Namespaces} {u label expansion rest : String}

/-- A binding shortens a URI: the URI is the expansion followed by a local part. The label of bare
names is not used for this. -/
structure Shortens (ns : Namespaces) (u label expansion rest : String) : Prop where
  ne_bare : label ≠ bareLabel
  bound : ns.expansion? label = some expansion
  split : u = expansion ++ rest

/-! ## The longest match -/

/-- Of two bindings the one with the longer expansion is kept. -/
theorem longer_spec (a b : String × String) : (longer a b = a ∨ longer a b = b) ∧
    a.2.utf8ByteSize ≤ (longer a b).2.utf8ByteSize ∧
    b.2.utf8ByteSize ≤ (longer a b).2.utf8ByteSize := by
  unfold longer
  by_cases h : b.2.utf8ByteSize < a.2.utf8ByteSize
  · simp [h, Nat.le_of_lt h]
  · simp [h, Nat.le_of_not_lt h]

/-- Of several bindings one with a longest expansion is kept. -/
theorem foldl_longer (l : List (String × String)) (best : String × String) :
    ∃ e ∈ best :: l, l.foldl (fun best e => some (best.elim e (longer · e))) (some best) = some e ∧
      ∀ b ∈ best :: l, b.2.utf8ByteSize ≤ e.2.utf8ByteSize := by
  induction l generalizing best with
  | nil => exact ⟨best, List.mem_cons_self, rfl, by simp⟩
  | cons a l ih =>
    obtain ⟨hone, hbest, ha⟩ := longer_spec best a
    obtain ⟨e, he, hfold, hle⟩ := ih (longer best a)
    have hkept := hle _ List.mem_cons_self
    refine ⟨e, ?_, hfold, fun b hb => ?_⟩
    · rcases List.mem_cons.mp he with rfl | he
      · rcases hone with h | h <;> simp [h]
      · simp [he]
    · rcases List.mem_cons.mp hb with rfl | hb
      · exact hbest.trans hkept
      · rcases List.mem_cons.mp hb with rfl | hb
        · exact ha.trans hkept
        · exact hle b (List.mem_cons_of_mem _ hb)

/-- The bindings that are chosen from are those that shorten the URI. -/
theorem mem_matches_iff : (label, expansion) ∈ (ns.bindings.toList.filter fun e =>
      e.1 != bareLabel && Text.startsWith e.2 u) ↔ ∃ rest, ns.Shortens u label expansion rest := by
  rw [List.mem_filter, OrderedMap.mem_toList_iff, Bool.and_eq_true, bne_iff_ne,
    Text.startsWith_iff]
  constructor
  · rintro ⟨hbound, hbare, rest, hsplit⟩
    exact ⟨rest, hbare, hbound, hsplit⟩
  · rintro ⟨rest, h⟩
    exact ⟨h.bound, h.ne_bare, rest, h.split⟩

/-- **What a URI is shortened to**: the label and the local part of a binding with the longest
expansion, or itself if no binding shortens it. -/
theorem compact_cases (ns : Namespaces) (u : String) :
    (ns.compact u = u ∧ ∀ label expansion rest, ¬ ns.Shortens u label expansion rest) ∨
    ∃ label expansion rest, ns.Shortens u label expansion rest ∧
      ns.compact u = label ++ ":" ++ rest ∧
      ∀ label' expansion' rest', ns.Shortens u label' expansion' rest' →
        expansion'.utf8ByteSize ≤ expansion.utf8ByteSize := by
  unfold compact longestMatch?
  have hmatches : ∀ {label expansion rest}, ns.Shortens u label expansion rest →
      (label, expansion) ∈ ns.bindings.toList.filter fun e =>
        e.1 != bareLabel && Text.startsWith e.2 u := fun h => mem_matches_iff.mpr ⟨_, h⟩
  cases hl : ns.bindings.toList.filter fun e => e.1 != bareLabel && Text.startsWith e.2 u with
  | nil =>
    refine Or.inl ⟨rfl, fun label expansion rest h => ?_⟩
    have hmem := hmatches h
    rw [hl] at hmem
    exact List.not_mem_nil hmem
  | cons b l =>
    obtain ⟨⟨label, expansion⟩, hmem, hfold, hlongest⟩ := foldl_longer l b
    rw [← hl] at hmem hlongest
    obtain ⟨rest, h⟩ := mem_matches_iff.mp hmem
    refine Or.inr ⟨label, expansion, rest, h, ?_, fun _ _ _ h' => hlongest _ (hmatches h')⟩
    rw [List.foldl_cons, Option.elim_none, hfold]
    simp only [Text.stripStart?_eq_some_iff.mpr h.split, Option.getD_some]

/-! ## Short forms -/

/-- **When a short form of a URI expands to it**: it is not taken for a full URI, or it is the URI
itself. -/
theorem expand_shortened_iff (hlabel : Usable label) (h : ns.Shortens u label expansion rest) :
    ns.expand (label ++ ":" ++ rest) = .ok u ↔
      looksFull rest = false ∨ expansion = label ++ ":" := by
  cases hrest : looksFull rest with
  | true =>
    rw [expand_of_isFullUri ((isFullUri_labelled hlabel.noColon rest).mpr (Or.inr hrest)), h.split]
    simp [eq_comm]
  | false =>
    rw [expand_labelled hlabel hrest, h.bound, h.split]
    simp

/-- **When shortening is undone by expanding.** In a table of labels that short identifiers can
have, and for a full URI: the short form made with any binding expands to the URI exactly if its
local part does not look like a full URI, or the label is bound to itself. The short form that is
chosen is one made with a longest expansion, or the URI itself if there is none; and it expands to
the URI exactly if it is the URI or is not taken for a full one. -/
theorem expand_compact_iff (hlabels : ∀ label ∈ ns.bindings.keys, Usable label)
    (hu : isFullUri u = true) :
    (∀ label expansion rest, ns.Shortens u label expansion rest →
      (ns.expand (label ++ ":" ++ rest) = .ok u ↔
        looksFull rest = false ∨ expansion = label ++ ":")) ∧
    ((ns.compact u = u ∧ ∀ label expansion rest, ¬ ns.Shortens u label expansion rest) ∨
      ∃ label expansion rest, ns.Shortens u label expansion rest ∧
        ns.compact u = label ++ ":" ++ rest ∧
        ∀ label' expansion' rest', ns.Shortens u label' expansion' rest' →
          expansion'.utf8ByteSize ≤ expansion.utf8ByteSize) ∧
    (ns.expand (ns.compact u) = .ok u ↔ ns.compact u = u ∨ isFullUri (ns.compact u) = false) := by
  have husable : ∀ {label expansion rest}, ns.Shortens u label expansion rest → Usable label :=
    fun h => hlabels _ (OrderedMap.mem_keys_iff.mpr ⟨_, h.bound⟩)
  refine ⟨fun label expansion rest h => expand_shortened_iff (husable h) h, ns.compact_cases u, ?_⟩
  rcases ns.compact_cases u with ⟨hself, -⟩ | ⟨label, expansion, rest, h, hcompact, -⟩
  · rw [hself]
    exact iff_of_true (expand_of_isFullUri hu) (Or.inl rfl)
  · have hlabel := husable h
    have hfull : isFullUri (label ++ ":" ++ rest) = false ↔ looksFull rest = false := by
      rw [← Bool.not_eq_true, isFullUri_labelled hlabel.noColon, ← Bool.not_eq_true]
      simp [hlabel.ne_urn]
    have hself : label ++ ":" ++ rest = u ↔ expansion = label ++ ":" := by
      rw [h.split, String.append_left_inj, eq_comm]
    rw [hcompact, expand_shortened_iff hlabel h, hfull, hself, or_comm]

/-- A table with the label of an archive, whose pages are found under their own addresses. -/
def archiveTable : Namespaces := standard.bind "archive" "http://archive.org/web/"

theorem usable_archiveTable : ∀ label ∈ archiveTable.bindings.keys, Usable label := by
  have hlabels : ∀ label ∈ archiveTable.bindings.keys, ':' ∉ label.toList ∧ label ≠ "urn" := by
    decide +kernel
  exact fun label hmem => ⟨(hlabels label hmem).1, (hlabels label hmem).2⟩

/-- The address of a page that is filed by year is shortened and expanded again. -/
theorem expand_compact_iff_archive :
    (∀ label ∈ archiveTable.bindings.keys, Usable label) ∧
    isFullUri "http://archive.org/web/2024" = true ∧
    archiveTable.compact "http://archive.org/web/2024" = "archive:2024" ∧
    archiveTable.expand "archive:2024" = .ok "http://archive.org/web/2024" := by
  have hfacts : isFullUri "http://archive.org/web/2024" = true ∧
      archiveTable.compact "http://archive.org/web/2024" = "archive:2024" ∧
      isFullUri "archive:2024" = false := by
    decide +kernel
  obtain ⟨hfull, hcompact, hshort⟩ := hfacts
  obtain ⟨-, -, hiff⟩ := expand_compact_iff usable_archiveTable hfull
  rw [hcompact] at hiff
  exact ⟨usable_archiveTable, hfull, hcompact, hiff.mpr (Or.inr hshort)⟩

/-- Not every full URI is given back: the address of an archived page is shortened to a text that is
taken for a full URI. -/
theorem not_forall_expand_compact :
    ¬ ∀ (ns : Namespaces) (u : String), (∀ label ∈ ns.bindings.keys, Usable label) →
      isFullUri u = true → ns.expand (ns.compact u) = .ok u := by
  intro h
  have hfacts : isFullUri "http://archive.org/web/http://x/" = true ∧
      archiveTable.compact "http://archive.org/web/http://x/" = "archive:http://x/" ∧
      isFullUri "archive:http://x/" = true := by
    decide +kernel
  obtain ⟨hfull, hcompact, hshort⟩ := hfacts
  have hback := h archiveTable _ usable_archiveTable hfull
  rw [hcompact, expand_of_isFullUri hshort] at hback
  exact absurd (Except.ok.inj hback) (by decide)

end Namespaces

end EntityGraph
