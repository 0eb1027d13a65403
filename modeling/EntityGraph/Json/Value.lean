import EntityGraph.Decimal.Double

/-!
# JSON values

A JSON value as it stands in a text: object members in written order, repeated keys included. A
text may follow the grammar and still hold a leaf that denotes nothing, such as a number beyond
every floating-point number or half of a surrogate pair; such a leaf is `unreadable`, and a
reader that needs its value refuses it.

Results:
* `beq_iff`: equality of values is decidable.
* `mem_sortMembers`: sorting the members of an object adds no member.
-/

namespace EntityGraph

/-- A value of a JSON text. -/
inductive Json where
  | null
  | bool (b : Bool)
  /-- An integer of at most 64 bits, signed or not. -/
  | int (i : Int)
  | float (x : Double)
  | string (s : String)
  | array (items : List Json)
  | object (members : List (String × Json))
  /-- A leaf, or an object with a key, that follows the grammar and denotes nothing. -/
  | unreadable
  deriving Inhabited

namespace Json

mutual

/-- Whether two values are equal, the order of members included. -/
def beq : Json → Json → Bool
  | .null, .null => true
  | .bool a, .bool b => a == b
  | .int a, .int b => a == b
  | .float a, .float b => a == b
  | .string a, .string b => a == b
  | .array a, .array b => beqItems a b
  | .object a, .object b => beqMembers a b
  | .unreadable, .unreadable => true
  | _, _ => false

/-- Whether two lists of values are equal. -/
def beqItems : List Json → List Json → Bool
  | [], [] => true
  | v :: vs, w :: ws => beq v w && beqItems vs ws
  | _, _ => false

/-- Whether two lists of members are equal. -/
def beqMembers : List (String × Json) → List (String × Json) → Bool
  | [], [] => true
  | (k, v) :: vs, (l, w) :: ws => k == l && beq v w && beqMembers vs ws
  | _, _ => false

end

mutual

theorem beq_iff (v w : Json) : beq v w = true ↔ v = w := by
  cases v with
  | array vs => cases w <;> simp [beq, beqItems_iff vs]
  | object vs => cases w <;> simp [beq, beqMembers_iff vs]
  | _ => cases w <;> simp [beq]

theorem beqItems_iff (vs ws : List Json) : beqItems vs ws = true ↔ vs = ws := by
  cases vs with
  | nil => cases ws <;> simp [beqItems]
  | cons v vs => cases ws <;> simp [beqItems, beq_iff v, beqItems_iff vs]

theorem beqMembers_iff (vs ws : List (String × Json)) : beqMembers vs ws = true ↔ vs = ws := by
  cases vs with
  | nil => cases ws <;> simp [beqMembers]
  | cons e vs =>
    obtain ⟨k, v⟩ := e
    cases ws <;> simp [beqMembers, beq_iff v, beqMembers_iff vs, Prod.ext_iff]

end

instance : DecidableEq Json := fun v w => decidable_of_iff (beq v w = true) (beq_iff v w)

/-- Why a JSON text is refused. -/
inductive Error where
  /-- The text ends inside a value. -/
  | unexpectedEnd
  /-- A character where the grammar has none. -/
  | unexpected (c : Char)
  /-- A number out of range or half of a surrogate pair. -/
  | unreadable
  /-- More nested arrays and objects than are allowed. -/
  | tooDeep
  /-- A value of another shape than the reader asked for. -/
  | mismatch (expected : String)
  /-- A member that may stand only once stands again. -/
  | repeated (key : String)
  deriving DecidableEq, Repr

/-- The text of an error. -/
def Error.message : Error → String
  | .unexpectedEnd => "unexpected end of text"
  | .unexpected c => "unexpected character " ++ String.singleton c
  | .unreadable => "a number out of range or half of a surrogate pair"
  | .tooDeep => "too many nested values"
  | .mismatch expected => "expected " ++ expected
  | .repeated key => "repeated member " ++ key

/-- Nested arrays and objects a text may hold. -/
def maxDepth : Nat := 127

mutual

/-- Whether every leaf is readable and at most `depth` arrays and objects enclose one another. -/
def readableWithin (depth : Nat) : Json → Except Error Unit
  | .unreadable => .error .unreadable
  | .array items =>
    match depth with
    | 0 => .error .tooDeep
    | depth + 1 => itemsReadableWithin depth items
  | .object members =>
    match depth with
    | 0 => .error .tooDeep
    | depth + 1 => membersReadableWithin depth members
  | _ => .ok ()

/-- Whether every item is readable within the depth. -/
def itemsReadableWithin (depth : Nat) : List Json → Except Error Unit
  | [] => .ok ()
  | v :: rest => do
    v.readableWithin depth
    itemsReadableWithin depth rest

/-- Whether every member is readable within the depth. -/
def membersReadableWithin (depth : Nat) : List (String × Json) → Except Error Unit
  | [] => .ok ()
  | (_, v) :: rest => do
    v.readableWithin depth
    membersReadableWithin depth rest

end

/-- Puts a member into a list sorted by key, replacing the member of the same key. -/
def insertMember {α : Type} (k : String) (v : α) : List (String × α) → List (String × α)
  | [] => [(k, v)]
  | (k', v') :: rest =>
    if k = k' then (k, v) :: rest
    else if k < k' then (k, v) :: (k', v') :: rest
    else (k', v') :: insertMember k v rest

/-- The members sorted by key, of equal keys the last. -/
def sortMembers {α : Type} (members : List (String × α)) : List (String × α) :=
  members.foldl (fun sorted e => insertMember e.1 e.2 sorted) []

theorem mem_insertMember {α : Type} {k : String} {v : α} {l : List (String × α)}
    {e : String × α} (h : e ∈ insertMember k v l) : e = (k, v) ∨ e ∈ l := by
  induction l with
  | nil => simpa [insertMember] using h
  | cons a rest ih =>
    obtain ⟨k', v'⟩ := a
    unfold insertMember at h
    split at h
    · rcases List.mem_cons.1 h with h | h
      · exact .inl h
      · exact .inr (List.mem_cons_of_mem _ h)
    · split at h
      · rcases List.mem_cons.1 h with h | h
        · exact .inl h
        · exact .inr h
      · rcases List.mem_cons.1 h with h | h
        · exact .inr (h ▸ List.mem_cons_self)
        · rcases ih h with h | h
          · exact .inl h
          · exact .inr (List.mem_cons_of_mem _ h)

/-- Sorting the members of an object adds no member. -/
theorem mem_sortMembers {α : Type} {members : List (String × α)} {e : String × α}
    (h : e ∈ sortMembers members) : e ∈ members := by
  suffices ∀ (l acc : List (String × α)),
      e ∈ l.foldl (fun sorted e => insertMember e.1 e.2 sorted) acc → e ∈ acc ∨ e ∈ l by
    simpa using this members [] h
  intro l
  induction l with
  | nil => intro acc h; exact .inl h
  | cons a l ih =>
    intro acc h
    rcases ih _ h with h | h
    · rcases mem_insertMember h with h | h
      · exact .inr (by simp [h])
      · exact .inl h
    · exact .inr (List.mem_cons_of_mem _ h)

mutual

/-- The value with the members of every object sorted by key, of equal keys the last. -/
def sorted : Json → Json
  | .array items => .array (sortedItems items)
  | .object members => .object (sortMembers (sortedMembers members))
  | v => v

/-- The items sorted. -/
def sortedItems : List Json → List Json
  | [] => []
  | v :: rest => v.sorted :: sortedItems rest

/-- The members with their values sorted. -/
def sortedMembers : List (String × Json) → List (String × Json)
  | [] => []
  | (k, v) :: rest => (k, v.sorted) :: sortedMembers rest

end

/-- The value of the member `key` of an object. -/
def member? (key : String) : Json → Option Json
  | .object members => (members.find? fun e => e.1 == key).map Prod.snd
  | _ => none

end Json

end EntityGraph
