import EntityGraph.Entity.Collection
import EntityGraph.Proofs.Outcome

/-!
# Canonical forms

In a table whose expansions are all full URIs an expanded identifier is expanded once and for
all, and so the entities of an expanded collection carry their identifiers in canonical form, no
two of them the same.

Results:
* `expand_expand`: what expands, expands to something that expands to itself.
* `canonical_canonical`: the canonical form is its own canonical form.
* `nodup_ids_of_expanded`, `canonical_id_of_expanded`: the identifiers of an expanded collection.
-/

namespace EntityGraph

/-! ## Full URIs -/

namespace Text

theorem occursIn_append {part l : List Char} (h : occursIn part l = true) (r : List Char) :
    occursIn part (l ++ r) = true := by
  induction l with
  | nil =>
    have hpart : part = [] := List.isEmpty_iff.mp h
    subst hpart
    cases r <;> simp [occursIn]
  | cons c l ih =>
    rw [occursIn, Bool.or_eq_true] at h
    rw [List.cons_append, occursIn, Bool.or_eq_true]
    rcases h with h | h
    · left
      rw [List.isPrefixOf_iff_prefix] at h ⊢
      exact h.trans (List.prefix_append (c :: l) r)
    · exact Or.inr (ih h)

end Text

/-- A full URI stays one when something is appended. -/
theorem isFullUri_append {u : String} (h : isFullUri u = true) (r : String) :
    isFullUri (u ++ r) = true := by
  unfold isFullUri Text.contains Text.startsWith at h ⊢
  rw [Bool.or_eq_true] at h ⊢
  rw [String.toList_append]
  rcases h with h | h
  · exact Or.inl (Text.occursIn_append h r.toList)
  · right
    rw [List.isPrefixOf_iff_prefix] at h ⊢
    exact h.trans (List.prefix_append u.toList r.toList)

namespace Namespaces

variable {ns : Namespaces}

/-- Every expansion of the table is a full URI. -/
def FullExpansions (ns : Namespaces) : Prop :=
  ∀ label expansion, ns.expansion? label = some expansion → isFullUri expansion = true

theorem fullExpansions_of_bindings
    (h : ∀ binding ∈ ns.bindings.toList, isFullUri binding.2 = true) : ns.FullExpansions :=
  fun label expansion hget => h (label, expansion) (OrderedMap.mem_toList_of_get? hget)

/-- Expanding ends in a full URI, or leaves a bare name of a table without bare label as it is. -/
theorem expand_eq_ok (h : ns.FullExpansions) {a u : String} (hu : ns.expand a = .ok u) :
    isFullUri u = true ∨ Text.cut? ':' u = none ∧ ns.expansion? bareLabel = none := by
  unfold expand at hu
  split at hu
  · rename_i hfull
    obtain rfl := Except.ok.inj hu
    exact Or.inl hfull
  · split at hu
    · rename_i label rest _
      split at hu
      · rename_i expansion hexp
        obtain rfl := Except.ok.inj hu
        exact Or.inl (isFullUri_append (h label expansion hexp) rest)
      · cases hu
    · rename_i hcut
      split at hu
      · rename_i expansion hexp
        obtain rfl := Except.ok.inj hu
        exact Or.inl (isFullUri_append (h bareLabel expansion hexp) a)
      · rename_i hbare
        obtain rfl := Except.ok.inj hu
        exact Or.inr ⟨hcut, hbare⟩

/-- **Expanding is idempotent.** -/
theorem expand_expand (h : ns.FullExpansions) {a u : String} (hu : ns.expand a = .ok u) :
    ns.expand u = .ok u := by
  rcases expand_eq_ok h hu with hfull | ⟨hcut, hbare⟩
  · exact expand_of_isFullUri hfull
  · unfold expand
    rw [hcut, hbare]
    simp only [ite_self]

/-- An expanded identifier is canonical. -/
theorem canonical_of_expand_eq (h : ns.FullExpansions) {a u : String} (hu : ns.expand a = .ok u) :
    ns.canonical u = u :=
  canonical_of_expand (expand_expand h hu)

/-- **The canonical form is its own canonical form.** -/
theorem canonical_canonical (h : ns.FullExpansions) (a : String) :
    ns.canonical (ns.canonical a) = ns.canonical a := by
  cases ha : ns.expand a with
  | ok u => rw [canonical_of_expand ha, canonical_of_expand_eq h ha]
  | error err => rw [canonical_of_unknown ha, canonical_of_unknown ha]

end Namespaces

/-! ## Expanded collections -/

namespace Entity

/-- The identifier of an expanded entity is the expansion of the identifier it had. -/
theorem expand_id_of_expand {ns : Namespaces} {e : Entity} (h : (e.expand ns).error? = none) :
    ns.expand e.id = .ok (e.expand ns).value.id := by
  obtain ⟨id, _, _, hid, _, _, hvalue⟩ := error?_expand_eq_none_iff.mp h
  rw [hvalue, hid]

end Entity

namespace Collection

/-- Expanding one entity after another gives identifiers that are expanded, pairwise distinct and
not in the index yet. -/
theorem ids_expandFrom (ns : Namespaces) :
    ∀ (es : List Entity) (n : Nat) (idx : OrderedMap String Nat),
      (expandFrom ns n idx es).error? = none →
        ((expandFrom ns n idx es).value.1.map Entity.id).Nodup ∧
        ∀ e ∈ (expandFrom ns n idx es).value.1,
          idx.get? e.id = none ∧ ∃ a, ns.expand a = .ok e.id
  | [], _, _, _ => ⟨List.nodup_nil, fun _ h => absurd h List.not_mem_nil⟩
  | e :: es, n, idx, h => by
    unfold expandFrom at h ⊢
    cases herr : (e.expand ns).error? with
    | some err => simp [herr] at h
    | none =>
      simp only [herr] at h ⊢
      by_cases hidx : idx.contains (e.expand ns).value.id = true
      · simp [hidx] at h
      · rw [if_neg hidx] at h ⊢
        obtain ⟨hnodup, hids⟩ := ids_expandFrom ns es (n + 1) _ h
        have hfresh : idx.get? (e.expand ns).value.id = none := by
          simpa [OrderedMap.contains] using hidx
        refine ⟨?_, fun e' he' => ?_⟩
        · rw [List.map_cons, List.nodup_cons]
          refine ⟨fun hmem => ?_, hnodup⟩
          obtain ⟨e', he', heq⟩ := List.mem_map.mp hmem
          have := (hids e' he').1
          rw [heq, OrderedMap.get?_insert, if_pos rfl] at this
          cases this
        · rcases List.mem_cons.mp he' with rfl | he'
          · exact ⟨hfresh, e.id, Entity.expand_id_of_expand herr⟩
          · obtain ⟨hget, hexp⟩ := hids e' he'
            rw [OrderedMap.get?_insert] at hget
            split at hget
            · cases hget
            · exact ⟨hget, hexp⟩

/-- What an expanded collection holds. -/
theorem expanded_eq_ok {c c' : Collection} (h : c.expanded = .ok c') :
    c'.namespaces = c.namespaces ∧
      (expandFrom c.namespaces 0 ∅ c.entities).error? = none ∧
      c'.entities = (expandFrom c.namespaces 0 ∅ c.entities).value.1 := by
  unfold expanded expand at h
  cases herr : (expandFrom c.namespaces 0 ∅ c.entities).error? with
  | some err => simp [herr] at h
  | none =>
    simp only [herr] at h
    obtain rfl := Except.ok.inj h
    exact ⟨rfl, rfl, rfl⟩

/-- **No two entities of an expanded collection have the same identifier.** -/
theorem nodup_ids_of_expanded {c c' : Collection} (h : c.expanded = .ok c') :
    (c'.entities.map Entity.id).Nodup := by
  obtain ⟨-, herr, hes⟩ := expanded_eq_ok h
  rw [hes]
  exact (ids_expandFrom _ _ _ _ herr).1

/-- **The identifiers of an expanded collection are canonical.** -/
theorem canonical_id_of_expanded {c c' : Collection} (h : c.expanded = .ok c')
    (hfull : c'.namespaces.FullExpansions) {e : Entity} (he : e ∈ c'.entities) :
    c'.namespaces.canonical e.id = e.id := by
  obtain ⟨hns, herr, hes⟩ := expanded_eq_ok h
  rw [hes] at he
  obtain ⟨a, ha⟩ := ((ids_expandFrom _ _ _ _ herr).2 e he).2
  rw [← hns] at ha
  exact Namespaces.canonical_of_expand_eq hfull ha

end Collection

end EntityGraph
