/-!
# Searching and cutting text

Occurrence of one text in another, a leading text taken off, and the cut at the first occurrence
of a character. All are stated on the list of characters.

Results:
* `stripStart?_eq_some_iff`: what is left after a leading text is what was appended to it.
* `cut?_eq_some_iff`: a cut at `c` gives the part before the first `c` and the part behind it.
-/

namespace EntityGraph.Text

/-- Whether the text begins with `start`. -/
def startsWith (start s : String) : Bool := start.toList.isPrefixOf s.toList

/-- Whether `part` occurs in the characters. -/
def occursIn (part : List Char) : List Char → Bool
  | [] => part.isEmpty
  | c :: rest => part.isPrefixOf (c :: rest) || occursIn part rest

/-- Whether `part` occurs somewhere in the text. -/
def contains (part s : String) : Bool := occursIn part.toList s.toList

/-- What follows `start` at the beginning of the characters. -/
def stripList? : List Char → List Char → Option (List Char)
  | [], s => some s
  | _ :: _, [] => none
  | a :: start, b :: s => if a = b then stripList? start s else none

/-- What follows `start` at the beginning of the text, if the text begins so. -/
def stripStart? (start s : String) : Option String :=
  (stripList? start.toList s.toList).map String.ofList

/-- The characters before the first `c` and those after it. -/
def cutList? (c : Char) : List Char → Option (List Char × List Char)
  | [] => none
  | a :: s => if a = c then some ([], s) else (cutList? c s).map fun (l, r) => (a :: l, r)

/-- The text before the first `c` and the text after it, if `c` occurs. -/
def cut? (c : Char) (s : String) : Option (String × String) :=
  (cutList? c s.toList).map fun (l, r) => (String.ofList l, String.ofList r)

theorem stripList?_eq_some_iff {start s rest : List Char} :
    stripList? start s = some rest ↔ s = start ++ rest := by
  induction start generalizing s with
  | nil => simp [stripList?]
  | cons a start ih =>
    cases s with
    | nil => simp [stripList?]
    | cons b s =>
      by_cases h : a = b
      · simp [stripList?, h, ih]
      · simp [stripList?, h, Ne.symm h]

/-- What is left after a leading text is what was appended to it. -/
theorem stripStart?_eq_some_iff {start s rest : String} :
    stripStart? start s = some rest ↔ s = start ++ rest := by
  simp only [stripStart?, Option.map_eq_some_iff, stripList?_eq_some_iff]
  constructor
  · rintro ⟨l, h, rfl⟩
    apply String.toList_injective
    simp [h]
  · rintro rfl
    exact ⟨rest.toList, by simp, by simp⟩

theorem cutList?_eq_some_iff {c : Char} {s l r : List Char} :
    cutList? c s = some (l, r) ↔ s = l ++ c :: r ∧ c ∉ l := by
  induction s generalizing l with
  | nil => simp [cutList?]
  | cons a s ih =>
    by_cases h : a = c
    · subst h
      simp only [cutList?, if_true, Option.some.injEq, Prod.mk.injEq]
      constructor
      · rintro ⟨rfl, rfl⟩; simp
      · rintro ⟨h1, h2⟩
        cases l with
        | nil => simp_all
        | cons b l => simp_all
    · simp only [cutList?, if_neg h, Option.map_eq_some_iff]
      constructor
      · rintro ⟨⟨l', r'⟩, h', e⟩
        cases e
        have := ih.1 h'
        exact ⟨by simp [this.1], by simp [this.2, Ne.symm h]⟩
      · rintro ⟨h1, h2⟩
        cases l with
        | nil => simp_all
        | cons b l =>
          simp only [List.cons_append, List.cons.injEq] at h1
          obtain ⟨rfl, h1⟩ := h1
          simp only [List.mem_cons, not_or] at h2
          exact ⟨(l, r), ih.2 ⟨h1, h2.2⟩, rfl⟩

/-- A cut at `c` gives the part before the first `c` and the part behind it. -/
theorem cut?_eq_some_iff {c : Char} {s l r : String} :
    cut? c s = some (l, r) ↔ s = l ++ String.singleton c ++ r ∧ c ∉ l.toList := by
  simp only [cut?, Option.map_eq_some_iff]
  constructor
  · rintro ⟨⟨l', r'⟩, h, e⟩
    cases e
    obtain ⟨h1, h2⟩ := cutList?_eq_some_iff.1 h
    constructor
    · apply String.toList_injective
      simp [h1]
    · simpa using h2
  · rintro ⟨rfl, h⟩
    exact ⟨(l.toList, r.toList), cutList?_eq_some_iff.2 ⟨by simp, h⟩, by simp⟩

end EntityGraph.Text
