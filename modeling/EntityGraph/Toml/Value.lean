import EntityGraph.Decimal.Double

/-!
# TOML values

The value of a document is a table. A table remembers what brought it into being, because that
decides who may add to it: a header may complete a table that only the path of another header
has named, a dotted key may add to a table that dotted keys made, and nothing adds to a table
written on one line.
-/

namespace EntityGraph.Toml

/-- Why a TOML text is refused. -/
inductive Error where
  /-- The text does not follow the grammar. -/
  | malformed (expected : String)
  /-- A number beyond those that can be held. -/
  | outOfRange
  /-- A key or table that is defined twice, or made in two ways. -/
  | redefined (key : String)
  /-- A key that leads through a value that is no table. -/
  | notTable (key : String)
  /-- More nested values than are allowed. -/
  | tooDeep
  /-- A value of another shape than the reader asked for. -/
  | mismatch (expected : String)
  deriving DecidableEq, Repr

/-- The text of an error. -/
def Error.message : Error → String
  | .malformed expected => "expected " ++ expected
  | .outOfRange => "number out of range"
  | .redefined key => "duplicate key " ++ key
  | .notTable key => "no table at key " ++ key
  | .tooDeep => "recursion limit exceeded"
  | .mismatch expected => "invalid type: expected " ++ expected

/-- What brought a table into being. -/
inductive Origin where
  /-- Its own header. -/
  | header
  /-- The header of a table inside it. -/
  | path
  /-- A dotted key. -/
  | dotted
  /-- Braces. -/
  | inline
  deriving DecidableEq, Repr

/-- A value of a TOML text. -/
inductive Value where
  | string (s : String)
  | integer (i : Int)
  | float (x : Double)
  | boolean (b : Bool)
  /-- A date, a time or both, as it is written. -/
  | dateTime (text : String)
  | array (items : List Value)
  | table (origin : Origin) (entries : List (String × Value))
  /-- The tables of one repeated header. -/
  | tables (elements : List Value)
  deriving Inhabited

/-- The entries of a table. -/
abbrev Entries := List (String × Value)

/-- The value at a key. -/
def lookup? (key : String) (entries : Entries) : Option Value :=
  (entries.find? fun e => e.1 == key).map Prod.snd

/-- The entries with one value changed, or added behind the others. -/
def put (key : String) (v : Value) : Entries → Entries
  | [] => [(key, v)]
  | (k, w) :: rest => if k = key then (key, v) :: rest else (k, w) :: put key v rest

/-- Whether a key of the kind `dotted`, or a header, may lead through a table. -/
def mayEnter (dotted : Bool) : Origin → Bool
  | .header => !dotted
  | .path | .dotted => true
  | .inline => false

/-- Changes the table at the end of a path, by a dotted key or else by a header. Tables that are
missing on the way are made, and a repeated header stands for the last of its tables. -/
def changeAt (dotted : Bool) (change : Origin → Entries → Except Error Entries) (origin : Origin)
    (entries : Entries) : (path : List String) → Except Error Entries
  | [] => change origin entries
  | key :: path =>
    match lookup? key entries with
    | none => do
      let made := if dotted then .dotted else .path
      return put key (.table made (← changeAt dotted change made [] path)) entries
    | some (.table origin' inner) =>
      if mayEnter dotted origin' then do
        return put key (.table origin' (← changeAt dotted change origin' inner path)) entries
      else .error (.redefined key)
    | some (.tables elements) =>
      match elements.getLast? with
      | some (.table origin' inner) => do
        let last ← changeAt dotted change origin' inner path
        return put key (.tables (elements.dropLast ++ [.table origin' last])) entries
      | _ => .error (.notTable key)
    | some _ => .error (.notTable key)

/-- A key with the tables that lead to it, and its value. -/
structure Assignment where
  path : List String
  key : String
  value : Value
  deriving Inhabited

/-- Adds what a line assigns. A dotted key adds only to tables that dotted keys made. -/
def assign (origin : Origin) (entries : Entries) (a : Assignment) : Except Error Entries :=
  changeAt true (fun reached inner =>
    if !a.path.isEmpty && reached ≠ .dotted then .error (.redefined a.key)
    else if (lookup? a.key inner).isSome then .error (.redefined a.key)
    else .ok (put a.key a.value inner)) origin entries a.path

/-- Adds several assignments in order. -/
def assignAll (origin : Origin) (entries : Entries) (as : List Assignment) :
    Except Error Entries :=
  as.foldlM (assign origin) entries

/-- The table written on one line. -/
def inlineTable (as : List Assignment) : Except Error Value :=
  return .table .inline (← assignAll .inline [] as)

/-- The lines from one header to the next. -/
structure Section where
  /-- Whether the header names one more of several tables. -/
  repeated : Bool
  path : List String
  key : String
  assignments : List Assignment
  deriving Inhabited

/-- Adds the table of a section. -/
def addSection (entries : Entries) (s : Section) : Except Error Entries :=
  changeAt false (fun _ inner =>
    if s.repeated then do
      let made := Value.table .header (← assignAll .header [] s.assignments)
      match lookup? s.key inner with
      | none => return put s.key (.tables [made]) inner
      | some (.tables elements) => return put s.key (.tables (elements ++ [made])) inner
      | some _ => .error (.redefined s.key)
    else
      match lookup? s.key inner with
      | none => return put s.key (.table .header (← assignAll .header [] s.assignments)) inner
      | some (.table .path held) =>
        return put s.key (.table .header (← assignAll .header held s.assignments)) inner
      | some _ => .error (.redefined s.key)) .header entries s.path

/-- The entries of a document: those before any header and then section by section. -/
def ofSections (top : List Assignment) (sections : List Section) : Except Error Entries := do
  sections.foldlM addSection (← assignAll .header [] top)

end EntityGraph.Toml
