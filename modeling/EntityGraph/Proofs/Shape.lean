import EntityGraph.Proofs.Retention

/-!
# The shape of a document

An element is read exactly if its fields have the shape that its identifier asks for. What is read
does not depend on how the elements stand among each other: the table is that of the contexts, the
token that of the last continuation, and the entities are those of all other elements, in order.
Only which element is found malformed first, and at which position, depends on where they stand.

Results:
* `exists_read_iff`: an element is read exactly if it is well formed.
* `Parts.ofElements_eq_ok_iff`: what is read from elements, and when.
* `refusedAt_of_ofElements`: at which element reading stops, and how.
* `ofJson_moved`: contexts can stand anywhere among the other elements.
-/

namespace EntityGraph

/-- A fold fails at the first element whose step fails. -/
theorem foldlM_eq_error_iff {ε α β : Type} {f : β → α → Except ε β} {l : List α} {b : β} {err : ε} :
    l.foldlM f b = .error err ↔ ∃ before a after b', l = before ++ a :: after ∧
      before.foldlM f b = .ok b' ∧ f b' a = .error err := by
  constructor
  · intro h
    induction l generalizing b with
    | nil => cases h
    | cons a l ih =>
      rw [List.foldlM_cons] at h
      cases hstep : f b a with
      | error err' =>
        rw [hstep] at h
        exact ⟨[], a, l, b, rfl, rfl, hstep.trans h⟩
      | ok b₁ =>
        rw [hstep, ok_bind] at h
        obtain ⟨before, a', after, b', rfl, hbefore, herr⟩ := ih h
        refine ⟨a :: before, a', after, b', rfl, ?_, herr⟩
        rw [List.foldlM_cons, hstep, ok_bind, hbefore]
  · rintro ⟨before, a, after, b', rfl, hbefore, herr⟩
    rw [List.foldlM_append, hbefore, ok_bind, List.foldlM_cons, herr]
    rfl

theorem isSome_mapM {α β : Type} (f : α → Option β) (l : List α) :
    (l.mapM f).isSome = l.all fun a => (f a).isSome := by
  induction l with
  | nil => rfl
  | cons a l ih =>
    rw [List.mapM_cons, List.all_cons, ← ih]
    cases f a with
    | none => rfl
    | some b => cases l.mapM f <;> rfl

namespace Document

/-! ## Shapes -/

def isString : Json → Bool
  | .string _ => true
  | _ => false

/-- A value that writes a literal: null, a boolean, a number or a string. -/
def isLiteral : Json → Bool
  | .array _ => false
  | .object _ => false
  | .unreadable => false
  | _ => true

/-- A value of a kind, or an array of them. -/
def isSlotOf (p : Json → Bool) : Json → Bool
  | .array items => items.all p
  | v => p v

/-- A field that is absent, or an object with values of a kind. -/
def isTableOf (p : Json → Bool) : Option Json → Bool
  | none => true
  | some (.object members) => members.all fun e => p e.2
  | some _ => false

/-- A field that is absent, null or a string. -/
def isToken : Option Json → Bool
  | none => true
  | some .null => true
  | some (.string _) => true
  | some _ => false

/-- A field that is absent or a boolean. -/
def isFlag : Option Json → Bool
  | none => true
  | some (.bool _) => true
  | some _ => false

/-- Whether an element has a string for an identifier, and the fields that this asks for. -/
def wellFormed (v : Json) : Bool :=
  match elementId? v with
  | none => false
  | some id =>
    if id = contextId then isTableOf isString (v.member? "namespaces")
    else if id = continuationId then isToken (v.member? "token")
    else isTableOf (isSlotOf isLiteral) (v.member? "props") &&
      isTableOf (isSlotOf isString) (v.member? "refs") && isFlag (v.member? "deleted")

theorem isSome_readString? (v : Json) : (readString? v).isSome = isString v := by
  cases v <;> rfl

theorem isSome_literal (v : Json) : (Literal.ofJson? v).isSome = isLiteral v := by
  cases v <;> rfl

theorem isSome_slot {α : Type} {read : Json → Option α} {p : Json → Bool}
    (h : ∀ v, (read v).isSome = p v) (v : Json) :
    (Slot.ofJson? read v).isSome = isSlotOf p v := by
  cases v with
  | array items =>
    rw [Slot.ofJson?, Option.isSome_map, isSome_mapM]
    simp only [h, isSlotOf]
  | _ => exact Option.isSome_map.trans (h _)

/-- A field is read exactly if it is a table of what is read. -/
theorem exists_readTable_iff {α : Type} {read : Json → Option α} {p : Json → Bool}
    (h : ∀ v, (read v).isSome = p v) (expected : String) (v? : Option Json) :
    (∃ pairs, readTable expected read v? = .ok pairs) ↔ isTableOf p v? = true := by
  have hmembers : ∀ members : List (String × Json),
      (∃ pairs, List.Forall₂ (fun e (p : String × α) => p.1 = e.1 ∧ read e.2 = some p.2)
        members pairs) ↔ (members.all fun e => p e.2) = true := by
    intro members
    rw [exists_forall₂_iff, List.all_eq_true]
    refine forall₂_congr fun e _ => ?_
    rw [← h, Option.isSome_iff_exists]
    exact ⟨fun ⟨pair, _, hpair⟩ => ⟨_, hpair⟩, fun ⟨a, ha⟩ => ⟨(e.1, a), rfl, ha⟩⟩
  simp only [readTable_eq_ok_iff]
  unfold isTableOf members?
  split <;> simp_all

/-! ## Elements -/

theorem exists_readContext_iff (v : Json) :
    (∃ pairs, readContext v = .ok pairs) ↔ isTableOf isString (v.member? "namespaces") = true :=
  exists_readTable_iff isSome_readString? _ _

theorem exists_readContinuation_iff (v : Json) :
    (∃ token, readContinuation v = .ok token) ↔ isToken (v.member? "token") = true := by
  unfold readContinuation isToken
  split <;> simp_all

theorem readContinuation_eq {v : Json} {token : Option String}
    (h : readContinuation v = .ok token) : token = (v.member? "token").bind readString? := by
  unfold readContinuation at h
  split at h <;> simp_all [readString?]

theorem exists_readEntity_iff (id : String) (v : Json) :
    (∃ e, readEntity id v = .ok e) ↔ (isTableOf (isSlotOf isLiteral) (v.member? "props") &&
      isTableOf (isSlotOf isString) (v.member? "refs") && isFlag (v.member? "deleted")) = true := by
  rw [Bool.and_eq_true, Bool.and_eq_true,
    ← exists_readTable_iff (isSome_slot isSome_literal) "a property",
    ← exists_readTable_iff (isSome_slot isSome_readString?) "a reference"]
  unfold readEntity isFlag
  cases readTable "a property" (Slot.ofJson? Literal.ofJson?) (v.member? "props") with
  | error err => simp
  | ok props =>
    cases readTable "a reference" (Slot.ofJson? readString?) (v.member? "refs") with
    | error err => simp
    | ok refs => split <;> simp_all

/-- **An element is read exactly if it is well formed.** -/
theorem exists_read_iff (parts : Parts) (n : Nat) (v : Json) :
    (∃ next, parts.read n v = .ok next) ↔ wellFormed v = true := by
  unfold Parts.read wellFormed elementId?
  cases (v.member? "id").bind readString? with
  | none => simp
  | some id =>
    by_cases hcontext : id = contextId
    · simp only [if_pos hcontext, ← exists_readContext_iff]
      cases readContext v <;> simp
    · by_cases hcontinuation : id = continuationId
      · simp only [if_neg hcontext, if_pos hcontinuation, ← exists_readContinuation_iff]
        cases readContinuation v <;> simp
      · simp only [if_neg hcontext, if_neg hcontinuation, ← exists_readEntity_iff id]
        cases readEntity id v <;> simp

/-- How an element is refused: for want of an identifier, or as JSON of another shape. -/
inductive RefusedAt (n : Nat) (v : Json) : EntityError → Prop
  | noId (hid : elementId? v = none) :
    RefusedAt n v (.malformedDocument ("element " ++ toString n ++ " has no string id"))
  | malformed {id : String} (hid : elementId? v = some id) (h : wellFormed v = false)
    (err : Json.Error) : RefusedAt n v (.json err)

theorem refusedAt_of_read {parts : Parts} {n : Nat} {v : Json} {err : EntityError}
    (h : parts.read n v = .error err) : RefusedAt n v err := by
  have hmalformed : wellFormed v = false := by
    rw [← Bool.not_eq_true, ← exists_read_iff parts n, h]
    simp
  cases hid : elementId? v with
  | none =>
    unfold elementId? at hid
    simp only [Parts.read, hid] at h
    obtain rfl := Except.error.inj h
    exact .noId hid
  | some id =>
    obtain ⟨err', rfl⟩ : ∃ err', err = .json err' := by
      unfold elementId? at hid
      simp only [Parts.read, hid] at h
      split at h
      · cases hread : readContext v with
        | ok pairs => simp [hread] at h
        | error err' => exact ⟨err', by simpa [hread, eq_comm] using h⟩
      · split at h
        · cases hread : readContinuation v with
          | ok token => simp [hread] at h
          | error err' => exact ⟨err', by simpa [hread, eq_comm] using h⟩
        · cases hread : readEntity id v with
          | ok e => simp [hread] at h
          | error err' => exact ⟨err', by simpa [hread, eq_comm] using h⟩
    exact .malformed hid hmalformed err'

/-! ## Sequences of elements -/

def isContext (v : Json) : Bool := decide (elementId? v = some contextId)

def isContinuation (v : Json) : Bool := decide (elementId? v = some continuationId)

/-- The token of an element. -/
def tokenOf? (v : Json) : Option String := (v.member? "token").bind readString?

/-- The token of a document: that of the last continuation. -/
def token? (elements : List Json) : Option String :=
  (elements.filter isContinuation).getLast?.bind tokenOf?

theorem continuation_read {parts next : Parts} {n : Nat} {v : Json}
    (h : parts.read n v = .ok next) :
    next.continuation = if isContinuation v then tokenOf? v else parts.continuation := by
  obtain ⟨id, hid, ⟨rfl, pairs, -, rfl⟩ | ⟨rfl, token, rfl⟩ | ⟨hentity, e, -, rfl⟩⟩ := read_cases h
  · rw [isContinuation, hid, decide_eq_false (by decide)]
    rfl
  · rw [isContinuation, hid, decide_eq_true rfl, if_pos rfl]
    unfold elementId? at hid
    simp only [Parts.read, hid, if_neg (show continuationId ≠ contextId by decide), if_true] at h
    cases hread : readContinuation v with
    | error err => simp [hread] at h
    | ok token' =>
      simp only [hread] at h
      rw [← Except.ok.inj h]
      exact readContinuation_eq hread
  · rw [isContinuation, hid, decide_eq_false fun heq => hentity.2 (Option.some.inj heq)]
    rfl

theorem continuation_foldlM_read {elements : List Json} {n : Nat} {parts last : Parts}
    (h : (elements.zipIdx n).foldlM (fun parts e => parts.read e.2 e.1) parts = .ok last) :
    last.continuation =
      (elements.filter isContinuation).getLast?.elim parts.continuation tokenOf? := by
  induction elements generalizing n parts with
  | nil =>
    rw [← Except.ok.inj h]
    rfl
  | cons v elements ih =>
    rw [List.zipIdx_cons, List.foldlM_cons] at h
    obtain ⟨next, hnext, hrest⟩ := bind_eq_ok_iff.mp h
    rw [ih hrest, continuation_read hnext, List.filter_cons]
    split
    · rw [List.getLast?_cons]
      cases (elements.filter isContinuation).getLast? <;> rfl
    · rfl

theorem exists_foldlM_read_iff {elements : List Json} {n : Nat} {parts : Parts} :
    (∃ last, (elements.zipIdx n).foldlM (fun parts e => parts.read e.2 e.1) parts = .ok last) ↔
      ∀ v ∈ elements, wellFormed v = true := by
  induction elements generalizing n parts with
  | nil => simp
  | cons v elements ih =>
    rw [List.zipIdx_cons, List.foldlM_cons, List.forall_mem_cons, ← exists_read_iff parts n v]
    constructor
    · rintro ⟨last, h⟩
      obtain ⟨next, hnext, hrest⟩ := bind_eq_ok_iff.mp h
      exact ⟨⟨next, hnext⟩, ih.mp ⟨last, hrest⟩⟩
    · rintro ⟨⟨next, hnext⟩, hrest⟩
      obtain ⟨last, hlast⟩ := ih.mpr hrest
      exact ⟨last, bind_eq_ok_iff.mpr ⟨next, hnext, hlast⟩⟩

theorem ReadAs.unique {v : Json} {e e' : Entity} (h : ReadAs v e) (h' : ReadAs v e') : e = e' := by
  obtain ⟨id, hid, he⟩ := h
  obtain ⟨id', hid', he'⟩ := h'
  obtain rfl := Option.some.inj (hid.symm.trans hid')
  exact Except.ok.inj (he.symm.trans he')

/-- The parts that are read from elements hold the table and the token of the document, and the
entities that the elements describe. -/
structure Parts.Of (elements : List Json) (parts : Parts) : Prop where
  namespaces : parts.namespaces = table elements
  continuation : parts.continuation = token? elements
  entities : List.Forall₂ ReadAs (elements.filter describesEntity) parts.entities

theorem Parts.Of.unique {elements : List Json} {parts parts' : Parts} (h : Of elements parts)
    (h' : Of elements parts') : parts = parts' := by
  have hentities : parts.entities = parts'.entities :=
    List.right_unique_forall₂' (fun _ _ _ he he' => he.unique he') h.entities h'.entities
  cases parts
  cases parts'
  simp only [Parts.mk.injEq]
  exact ⟨h.namespaces.trans h'.namespaces.symm, h.continuation.trans h'.continuation.symm,
    hentities⟩

theorem Parts.of_ofElements {elements : List Json} {parts : Parts}
    (h : ofElements elements = .ok parts) : Of elements parts := by
  obtain ⟨es, hes, hread⟩ := entities_foldlM_read h
  refine ⟨namespaces_ofElements h, ?_, ?_⟩
  · rw [continuation_foldlM_read h, token?]
    cases (elements.filter isContinuation).getLast? <;> rfl
  · rw [hes]
    exact hread

/-- **What is read from elements, and when.** -/
theorem Parts.ofElements_eq_ok_iff {elements : List Json} {parts : Parts} :
    ofElements elements = .ok parts ↔
      (∀ v ∈ elements, wellFormed v = true) ∧ Of elements parts := by
  constructor
  · exact fun h => ⟨exists_foldlM_read_iff.mp ⟨parts, h⟩, of_ofElements h⟩
  · rintro ⟨hwell, hof⟩
    obtain ⟨parts', hparts'⟩ : ∃ parts', ofElements elements = .ok parts' :=
      exists_foldlM_read_iff.mpr hwell
    rw [hof.unique (of_ofElements hparts')]
    exact hparts'

/-- **At which element reading stops, and how**: at the first one that is malformed. -/
theorem refusedAt_of_ofElements {elements : List Json} {err : EntityError}
    (h : Parts.ofElements elements = .error err) : ∃ before v after,
      elements = before ++ v :: after ∧ (∀ w ∈ before, wellFormed w = true) ∧
      RefusedAt before.length v err := by
  obtain ⟨front, e, back, parts, hsplit, hfront, herr⟩ := foldlM_eq_error_iff.mp h
  obtain ⟨before, rest, rfl, rfl, hrest⟩ := List.zipIdx_eq_append_iff.mp hsplit
  obtain ⟨v, after, rfl, rfl, -⟩ := List.zipIdx_eq_cons_iff.mp hrest.symm
  rw [Nat.zero_add] at herr
  exact ⟨before, v, after, rfl, exists_foldlM_read_iff.mp ⟨parts, hfront⟩, refusedAt_of_read herr⟩

/-! ## Contexts that stand elsewhere -/

/-- The contexts are moved, their order among themselves and that of the other elements kept. -/
structure ContextsMoved (elements elements' : List Json) : Prop where
  contexts : elements.filter isContext = elements'.filter isContext
  others : (elements.filter fun v => !isContext v) = elements'.filter fun v => !isContext v

theorem tableAfter_of_not_isContext {v : Json} (h : isContext v = false) (ns : Namespaces) :
    tableAfter ns v = ns :=
  if_neg (of_decide_eq_false h)

theorem table_filter_isContext (elements : List Json) :
    table (elements.filter isContext) = table elements := by
  unfold table
  rw [List.foldl_filter]
  congr 1
  funext ns v
  cases h : isContext v with
  | false => exact (tableAfter_of_not_isContext h ns).symm
  | true => rfl

/-- Elements with a property that contexts lack are found among the others. -/
theorem filter_filter_not_isContext {p : Json → Bool} (hp : ∀ v, p v = true → isContext v = false)
    (elements : List Json) :
    (elements.filter fun v => !isContext v).filter p = elements.filter p := by
  rw [List.filter_filter]
  refine List.filter_congr fun v _ => ?_
  cases h : p v with
  | false => rfl
  | true => simp [hp v h]

theorem isContext_eq_false_of_isContinuation {v : Json} (h : isContinuation v = true) :
    isContext v = false := by
  refine decide_eq_false fun hid => ?_
  have hid' := of_decide_eq_true h
  rw [hid] at hid'
  exact absurd (Option.some.inj hid') (by decide)

theorem isContext_eq_false_of_describesEntity {v : Json} (h : describesEntity v = true) :
    isContext v = false := by
  refine decide_eq_false fun hid => ?_
  rw [describesEntity_eq hid] at h
  exact (of_decide_eq_true h).1 rfl

section

variable {elements elements' : List Json} (h : ContextsMoved elements elements')

include h

theorem ContextsMoved.wellFormed_iff :
    (∀ v ∈ elements, wellFormed v = true) ↔ ∀ v ∈ elements', wellFormed v = true := by
  have hsplit : ∀ l : List Json, (∀ v ∈ l, wellFormed v = true) ↔
      (∀ v ∈ l.filter isContext, wellFormed v = true) ∧
        ∀ v ∈ l.filter fun v => !isContext v, wellFormed v = true := by
    intro l
    simp only [List.mem_filter, Bool.not_eq_true', and_imp, ← forall₂_and]
    refine forall₂_congr fun v _ => ?_
    cases isContext v <;> simp
  rw [hsplit elements, hsplit elements', h.contexts, h.others]

theorem ContextsMoved.of {parts : Parts} (hparts : Parts.Of elements parts) :
    Parts.Of elements' parts := by
  obtain ⟨hns, htoken, hentities⟩ := hparts
  unfold token? at htoken
  rw [← table_filter_isContext, h.contexts, table_filter_isContext] at hns
  rw [← filter_filter_not_isContext fun _ => isContext_eq_false_of_isContinuation, h.others,
    filter_filter_not_isContext fun _ => isContext_eq_false_of_isContinuation] at htoken
  rw [← filter_filter_not_isContext fun _ => isContext_eq_false_of_describesEntity, h.others,
    filter_filter_not_isContext fun _ => isContext_eq_false_of_describesEntity] at hentities
  exact ⟨hns, htoken, hentities⟩

/-- **Contexts can stand anywhere among the other elements**: what well-formed elements give, an
error included, is the same, and a malformed one is refused either way. -/
theorem ofJson_moved :
    ((∀ v ∈ elements, wellFormed v = true) →
      ofJson (.array elements) = ofJson (.array elements')) ∧
    ∀ c, ofJson (.array elements) = .ok c ↔ ofJson (.array elements') = .ok c := by
  have hsame : (∀ v ∈ elements, wellFormed v = true) →
      ofJson (.array elements) = ofJson (.array elements') := by
    intro hwell
    obtain ⟨parts, hparts⟩ : ∃ parts, Parts.ofElements elements = .ok parts :=
      exists_foldlM_read_iff.mpr hwell
    have hparts' := Parts.ofElements_eq_ok_iff.mpr
      ⟨h.wellFormed_iff.mp hwell, h.of (Parts.of_ofElements hparts)⟩
    rw [ofJson, ofJson, hparts, hparts']
  have hwell_of_ok : ∀ (l : List Json) (c : Collection), ofJson (.array l) = .ok c →
      ∀ v ∈ l, wellFormed v = true := by
    intro l c hc
    obtain ⟨parts, hparts, -⟩ := bind_eq_ok_iff.mp hc
    exact (Parts.ofElements_eq_ok_iff.mp hparts).1
  refine ⟨hsame, fun c => ⟨fun hc => ?_, fun hc => ?_⟩⟩
  · rw [← hsame (hwell_of_ok _ _ hc)]
    exact hc
  · rw [hsame (h.wellFormed_iff.mpr (hwell_of_ok _ _ hc))]
    exact hc

end

end Document

end EntityGraph
