/-!
# Insertion-ordered maps and sets

`OrderedMap κ ν` is a finite map that lists its keys in the order in which they were first
inserted: replacing a value keeps the place of its key, erasing closes the gap. `OrderedSet α`
is a list without repetition with the same discipline.

Results:
* `get?_insert`, `get?_erase`: reading after a write.
* `keys_insert`: a write appends a new key and keeps the order of the old ones.
* `mem_toList_iff`, `mem_keys_iff`: the entries are the stored values, the keys where they are.
* `get?_ofList_append`, `get?_ofList_toList`: of pairs inserted one after another the last decides.
* `mem_toList_insert`, `mem_toList_erase`: membership after the two operations of a set.
* `contains_ofList_iff`: a set made of a list has its elements as members.
-/

namespace EntityGraph

/-- A finite map with its entries in order of first insertion, each key once. -/
structure OrderedMap (κ ν : Type) where
  toList : List (κ × ν)
  nodup : (toList.map Prod.fst).Nodup

namespace OrderedMap

variable {κ ν μ : Type}

/-- The map without entries. -/
def empty : OrderedMap κ ν := ⟨[], List.nodup_nil⟩

instance : EmptyCollection (OrderedMap κ ν) := ⟨empty⟩

instance : Inhabited (OrderedMap κ ν) := ⟨empty⟩

instance [DecidableEq κ] [DecidableEq ν] : DecidableEq (OrderedMap κ ν) := fun m n =>
  if h : m.toList = n.toList then
    isTrue (by cases m; cases n; simp_all)
  else
    isFalse (fun e => h (e ▸ rfl))

@[simp] theorem toList_empty : (∅ : OrderedMap κ ν).toList = [] := rfl

/-- The keys, oldest first. -/
def keys (m : OrderedMap κ ν) : List κ := m.toList.map Prod.fst

/-- The values, in the order of their keys. -/
def values (m : OrderedMap κ ν) : List ν := m.toList.map Prod.snd

/-- The number of entries. -/
def size (m : OrderedMap κ ν) : Nat := m.toList.length

/-- Whether there is no entry. -/
def isEmpty (m : OrderedMap κ ν) : Bool := m.toList.isEmpty

/-- Two maps with the same entries in the same order are equal. -/
theorem ext_toList {m n : OrderedMap κ ν} (h : m.toList = n.toList) : m = n := by
  cases m; cases n; simp_all

variable [DecidableEq κ]

/-- The value of the first entry with key `k`. -/
def find (k : κ) : List (κ × ν) → Option ν
  | [] => none
  | (k', v) :: rest => if k' = k then some v else find k rest

/-- The entries with the value at `k` replaced in place, or with a new last entry. -/
def put (k : κ) (v : ν) : List (κ × ν) → List (κ × ν)
  | [] => [(k, v)]
  | (k', v') :: rest => if k' = k then (k', v) :: rest else (k', v') :: put k v rest

theorem map_fst_put (k : κ) (v : ν) (l : List (κ × ν)) :
    (put k v l).map Prod.fst =
      if k ∈ l.map Prod.fst then l.map Prod.fst else l.map Prod.fst ++ [k] := by
  induction l with
  | nil => simp [put]
  | cons e rest ih =>
    obtain ⟨k', v'⟩ := e
    by_cases h : k' = k
    · simp [put, h]
    · have h' : ¬ k = k' := fun e => h e.symm
      simp only [put, if_neg h, List.map_cons, ih, List.mem_cons, h', false_or]
      split <;> simp

theorem nodup_put {k : κ} {v : ν} {l : List (κ × ν)} (h : (l.map Prod.fst).Nodup) :
    ((put k v l).map Prod.fst).Nodup := by
  rw [map_fst_put]
  split
  · exact h
  · rename_i hk
    rw [List.nodup_append]
    exact ⟨h, List.pairwise_singleton _ _, fun a ha b hb e => by simp_all⟩

/-- The value stored at `k`. -/
def get? (m : OrderedMap κ ν) (k : κ) : Option ν := find k m.toList

/-- Whether `k` has a value. -/
def contains (m : OrderedMap κ ν) (k : κ) : Bool := (m.get? k).isSome

/-- Stores `v` at `k`; a key that is present keeps its place. -/
def insert (m : OrderedMap κ ν) (k : κ) (v : ν) : OrderedMap κ ν :=
  ⟨put k v m.toList, nodup_put m.nodup⟩

/-- Removes the entry at `k`; the entries behind it move up. -/
def erase (m : OrderedMap κ ν) (k : κ) : OrderedMap κ ν :=
  ⟨m.toList.filter (fun e => e.1 ≠ k), m.nodup.sublist (List.filter_sublist.map _)⟩

/-- Inserts the pairs one after another: of equal keys the first gives the place and the last
the value. -/
def ofList (l : List (κ × ν)) : OrderedMap κ ν := l.foldl (fun m e => m.insert e.1 e.2) empty

/-- Replaces the value at `k`, `none` standing for an absent entry, by what `f` makes of it. -/
def alter (m : OrderedMap κ ν) (k : κ) (f : Option ν → ν) : OrderedMap κ ν :=
  m.insert k (f (m.get? k))

@[simp] theorem get?_empty (k : κ) : (∅ : OrderedMap κ ν).get? k = none := rfl

theorem find_put (k j : κ) (v : ν) (l : List (κ × ν)) :
    find j (put k v l) = if k = j then some v else find j l := by
  induction l with
  | nil => simp [put, find]
  | cons e rest ih =>
    obtain ⟨k', v'⟩ := e
    by_cases h : k' = k
    · subst h
      simp only [put, find, if_true]
      split <;> rfl
    · simp only [put, if_neg h, find, ih]
      by_cases hj : k' = j
      · have : ¬ k = j := fun e => h (hj.trans e.symm)
        simp [hj, this]
      · simp [hj]

/-- Reading after a write gives the written value at its key and the old value elsewhere. -/
theorem get?_insert (m : OrderedMap κ ν) (k j : κ) (v : ν) :
    (m.insert k v).get? j = if k = j then some v else m.get? j :=
  find_put k j v m.toList

theorem get?_insert_eq_none_iff {m : OrderedMap κ ν} {k j : κ} {v : ν} :
    (m.insert k v).get? j = none ↔ k ≠ j ∧ m.get? j = none := by
  rw [get?_insert]
  by_cases h : k = j <;> simp [h]

theorem find_filter_ne (k j : κ) (l : List (κ × ν)) :
    find j (l.filter fun e => e.1 ≠ k) = if k = j then none else find j l := by
  induction l with
  | nil => simp [find]
  | cons e rest ih =>
    obtain ⟨k', v'⟩ := e
    by_cases h : k' = k
    · subst h
      simp only [ne_eq, not_true_eq_false, decide_false, Bool.false_eq_true, not_false_eq_true,
        List.filter_cons_of_neg, find]
      simp only [ne_eq] at ih
      rw [ih]
      split <;> simp_all
    · simp only [ne_eq, h, not_false_eq_true, decide_true, List.filter_cons_of_pos, find]
      simp only [ne_eq] at ih
      rw [ih]
      by_cases hj : k' = j
      · have : ¬ k = j := fun e => h (hj.trans e.symm)
        simp [hj, this]
      · simp [hj]

/-- Reading after an erasure finds nothing at the erased key and the old value elsewhere. -/
theorem get?_erase (m : OrderedMap κ ν) (k j : κ) :
    (m.erase k).get? j = if k = j then none else m.get? j :=
  find_filter_ne k j m.toList

theorem put_of_not_mem {k : κ} {v : ν} {l : List (κ × ν)} (h : k ∉ l.map Prod.fst) :
    put k v l = l ++ [(k, v)] := by
  induction l with
  | nil => rfl
  | cons e l ih =>
    rw [List.map_cons, List.mem_cons, not_or] at h
    rw [put, if_neg (Ne.symm h.1), ih h.2, List.cons_append]

/-- A write at a new key appends an entry. -/
theorem toList_insert_of_not_mem {m : OrderedMap κ ν} {k : κ} (h : k ∉ m.keys) (v : ν) :
    (m.insert k v).toList = m.toList ++ [(k, v)] :=
  put_of_not_mem h

/-- A write keeps the keys, and their order, and appends a key that was absent. -/
theorem keys_insert (m : OrderedMap κ ν) (k : κ) (v : ν) :
    (m.insert k v).keys = if k ∈ m.keys then m.keys else m.keys ++ [k] :=
  map_fst_put k v m.toList

theorem find_eq_none_iff {k : κ} {l : List (κ × ν)} :
    find k l = none ↔ k ∉ l.map Prod.fst := by
  induction l with
  | nil => simp [find]
  | cons e rest ih =>
    obtain ⟨k', v'⟩ := e
    by_cases h : k' = k
    · simp [find, h]
    · have h' : ¬ k = k' := fun e => h e.symm
      simp only [find, if_neg h, List.map_cons, List.mem_cons, h', false_or, ih]

theorem find_map {ν' : Type} (f : κ → ν → ν') (k : κ) (l : List (κ × ν)) :
    find k (l.map fun e => (e.1, f e.1 e.2)) = (find k l).map (f k) := by
  induction l with
  | nil => rfl
  | cons e l ih =>
    rw [List.map_cons, find, find]
    by_cases h : e.1 = k
    · simp [h]
    · simp [h, ih]

theorem mem_of_find {k : κ} {v : ν} {l : List (κ × ν)} (h : find k l = some v) : (k, v) ∈ l := by
  induction l with
  | nil => cases h
  | cons e rest ih =>
    obtain ⟨k', v'⟩ := e
    by_cases hk : k' = k
    · simp only [find, if_pos hk, Option.some.injEq] at h
      rw [hk, h]
      exact List.mem_cons_self
    · simp only [find, if_neg hk] at h
      exact List.mem_cons_of_mem _ (ih h)

/-- A stored value is an entry at its key. -/
theorem mem_toList_of_get? {m : OrderedMap κ ν} {k : κ} {v : ν} (h : m.get? k = some v) :
    (k, v) ∈ m.toList :=
  mem_of_find h

theorem find_of_mem {k : κ} {v : ν} {l : List (κ × ν)} (hl : (l.map Prod.fst).Nodup)
    (h : (k, v) ∈ l) : find k l = some v := by
  induction l with
  | nil => cases h
  | cons e rest ih =>
    rw [List.map_cons, List.nodup_cons] at hl
    rcases List.mem_cons.mp h with rfl | h
    · simp [find]
    · have hk : ¬ e.1 = k := fun hk => hl.1 (hk ▸ List.mem_map_of_mem h)
      simp only [find, if_neg hk, ih hl.2 h]

/-- The entries are the stored values. -/
theorem mem_toList_iff {m : OrderedMap κ ν} {k : κ} {v : ν} :
    (k, v) ∈ m.toList ↔ m.get? k = some v :=
  ⟨find_of_mem m.nodup, mem_toList_of_get?⟩

/-- A key is one at which a value is stored. -/
theorem mem_keys_iff {m : OrderedMap κ ν} {k : κ} : k ∈ m.keys ↔ ∃ v, m.get? k = some v := by
  rw [← Option.ne_none_iff_exists', ne_eq, get?, find_eq_none_iff, Decidable.not_not, keys]

theorem get?_foldl_insert (l : List (κ × ν)) (m : OrderedMap κ ν) (k : κ) :
    (l.foldl (fun (m : OrderedMap κ ν) e => m.insert e.1 e.2) m).get? k =
      ((ofList l).get? k).or (m.get? k) := by
  induction l generalizing m with
  | nil => rfl
  | cons e l ih =>
    unfold ofList
    rw [List.foldl_cons, List.foldl_cons, ih, ih (empty.insert e.1 e.2), get?_insert, get?_insert]
    by_cases h : e.1 = k
    · simp [h]
    · simp only [if_neg h]
      cases (ofList l).get? k <;> rfl

/-- Of pairs inserted one after another the last at a key decides. -/
theorem get?_ofList_append (l l' : List (κ × ν)) (k : κ) :
    (ofList (l ++ l')).get? k = ((ofList l').get? k).or ((ofList l).get? k) := by
  unfold ofList
  rw [List.foldl_append, get?_foldl_insert]
  rfl

/-- The entries of a map make a map with the same values. -/
theorem get?_ofList_toList (m : OrderedMap κ ν) (k : κ) : (ofList m.toList).get? k = m.get? k := by
  have key : ∀ l : List (κ × ν), (l.map Prod.fst).Nodup → (ofList l).get? k = find k l := by
    intro l
    induction l with
    | nil => exact fun _ => rfl
    | cons e l ih =>
      intro h
      rw [List.map_cons, List.nodup_cons] at h
      rw [← List.singleton_append, get?_ofList_append, ih h.2]
      by_cases hk : e.1 = k
      · rw [find_eq_none_iff.mpr (hk ▸ h.1)]
        simp [ofList, find, get?, insert, empty, put, hk]
      · simp [ofList, find, get?, insert, empty, put, hk]
  exact key m.toList m.nodup

end OrderedMap

/-- A list without repetition, in order of first insertion. -/
structure OrderedSet (α : Type) where
  toList : List α
  nodup : toList.Nodup

namespace OrderedSet

variable {α : Type}

/-- The set without members. -/
def empty : OrderedSet α := ⟨[], List.nodup_nil⟩

instance : EmptyCollection (OrderedSet α) := ⟨empty⟩

instance : Inhabited (OrderedSet α) := ⟨empty⟩

@[simp] theorem toList_empty : (∅ : OrderedSet α).toList = [] := rfl

/-- Whether there is no member. -/
def isEmpty (s : OrderedSet α) : Bool := s.toList.isEmpty

variable [DecidableEq α]

/-- Whether `a` is a member. -/
def contains (s : OrderedSet α) (a : α) : Bool := decide (a ∈ s.toList)

/-- Appends `a` unless it is a member already. -/
def insert (s : OrderedSet α) (a : α) : OrderedSet α :=
  if h : a ∈ s.toList then s else
    ⟨s.toList ++ [a], by
      rw [List.nodup_append]
      exact ⟨s.nodup, List.pairwise_singleton _ _, fun x hx y hy e => by simp_all⟩⟩

/-- Removes `a`; the members behind it move up. -/
def erase (s : OrderedSet α) (a : α) : OrderedSet α :=
  ⟨s.toList.filter (· ≠ a), s.nodup.sublist List.filter_sublist⟩

/-- Inserts the elements one after another. -/
def ofList (l : List α) : OrderedSet α := l.foldl insert empty

/-- The members after an insertion. -/
theorem mem_toList_insert {s : OrderedSet α} {a b : α} :
    b ∈ (s.insert a).toList ↔ b = a ∨ b ∈ s.toList := by
  unfold insert
  split
  · rename_i h
    constructor
    · exact Or.inr
    · rintro (rfl | h') <;> assumption
  · simp [or_comm]

/-- The members of a set made of a list. -/
theorem mem_toList_ofList {l : List α} {a : α} : a ∈ (ofList l).toList ↔ a ∈ l := by
  suffices ∀ (l : List α) (s : OrderedSet α), a ∈ (l.foldl insert s).toList ↔
      a ∈ l ∨ a ∈ s.toList by
    simpa [ofList, empty] using this l empty
  intro l
  induction l with
  | nil => intro s; simp
  | cons b l ih =>
    intro s
    rw [List.foldl_cons, ih, mem_toList_insert, List.mem_cons, ← or_assoc, or_comm (a := a ∈ l)]

theorem contains_ofList_iff {l : List α} {a : α} : (ofList l).contains a = true ↔ a ∈ l := by
  rw [contains, decide_eq_true_iff, mem_toList_ofList]

/-- The members after an erasure. -/
theorem mem_toList_erase {s : OrderedSet α} {a b : α} :
    b ∈ (s.erase a).toList ↔ b ∈ s.toList ∧ b ≠ a := by
  simp [erase]

end OrderedSet

end EntityGraph
