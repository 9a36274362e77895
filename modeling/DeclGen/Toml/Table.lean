import DeclGen.Data.Datum

/-!
# Tables

A text in TOML describes one table. It is built step by step: a header opens a table or adds one to
a list of tables, and an assignment puts a value under a key.

## Implementation notes

A table that was only passed through on the way to another one is implicit; a header may still open
it, once. A dotted key that passes through an implicit table again makes it count as opened.
-/

namespace DeclGen.Toml

/-- A value of a table. -/
inductive Value where
  | string (s : String)
  | int (n : Int)
  | float (x : Binary64)
  | bool (b : Bool)
  | moment (m : Moment)
  | list (elems : List Value)
  | table (isImplicit : Bool) (entries : List (String × Value))
  /-- A list of tables that headers opened one after the other. -/
  | tables (elems : List (List (String × Value)))
  deriving Repr, Inhabited

/-- The entries of a table, in order. -/
abbrev Table := List (String × Value)

/-- The names that lead to a value. -/
abbrev Key := List String

namespace Table

/-- The table with one value replaced. -/
def replace (name : String) (v : Value) : Table → Table
  | [] => []
  | (k, w) :: rest => if k == name then (k, v) :: rest else (k, w) :: replace name v rest

/-- The table after a change of the table at a key. Tables on the way are made where they are
missing, and of a list of tables the last one is meant. `again` says what becomes of a table on the
way that was implicit. -/
def modifyAt (again : Bool → Bool) (change : Table → Option Table) : Key → Table → Option Table
  | [], t => change t
  | k :: ks, t =>
    match t.lookup k with
    | none => do
      let new ← modifyAt again change ks []
      return t ++ [(k, .table true new)]
    | some (.table isImplicit es) => do
      let new ← modifyAt again change ks es
      return t.replace k (.table (again isImplicit) new)
    | some (.tables ts) =>
      match ts.getLast? with
      | some last => do
        let new ← modifyAt again change ks last
        return t.replace k (.tables (ts.dropLast ++ [new]))
      | none => none
    | some _ => none

/-- The table with a new value under a name. -/
def add (name : String) (v : Value) (t : Table) : Option Table :=
  if (t.lookup name).isSome then none else some (t ++ [(name, v)])

/-- The table with a table opened under a name. -/
def openTable (name : String) (t : Table) : Option Table :=
  match t.lookup name with
  | none => some (t ++ [(name, .table false [])])
  | some (.table true es) => some (t.replace name (.table false es))
  | some _ => none

/-- The table with a new table at the end of the list of tables under a name. -/
def openElement (name : String) (t : Table) : Option Table :=
  match t.lookup name with
  | none => some (t ++ [(name, .tables [[]])])
  | some (.tables ts) => some (t.replace name (.tables (ts ++ [[]])))
  | some _ => none

/-- The table with a table opened at a key. -/
def openAt (key : Key) (t : Table) : Option Table :=
  match key.getLast? with
  | some name => modifyAt id (openTable name) key.dropLast t
  | none => none

/-- The table with a new table at the end of the list of tables at a key. -/
def openElementAt (key : Key) (t : Table) : Option Table :=
  match key.getLast? with
  | some name => modifyAt id (openElement name) key.dropLast t
  | none => none

/-- The table with a value assigned to a dotted key in the table at another key. -/
def assignAt (place key : Key) (v : Value) (t : Table) : Option Table :=
  match key.getLast? with
  | some name => modifyAt id (modifyAt (fun _ => false) (add name v) key.dropLast) place t
  | none => none

end Table

namespace Value

mutual

/-- The datum of a value. -/
def datum : Value → Datum
  | string s => .string s
  | int n => .int n
  | float x => .float x
  | bool b => .bool b
  | moment m => .moment m
  | list es => .list (datumList es)
  | table _ es => .table (datumEntries es)
  | tables ts => .list (datumTables ts)

/-- The data of a list. -/
def datumList : List Value → List Datum
  | [] => []
  | v :: rest => v.datum :: datumList rest

/-- The data of the entries of a table. -/
def datumEntries : List (String × Value) → List (Datum × Datum)
  | [] => []
  | (k, v) :: rest => (.string k, v.datum) :: datumEntries rest

/-- The data of a list of tables. -/
def datumTables : List (List (String × Value)) → List Datum
  | [] => []
  | t :: rest => .table (datumEntries t) :: datumTables rest

end

end Value

namespace Key

/-- Whether a character may stand in a name without quotation marks. -/
def isBare (c : Char) : Bool := c.isAlphanum || c == '_' || c == '-'

/-- A character of a quoted name. -/
def escapedChar (c : Char) : List Char :=
  match c with
  | '"' => ['\\', '"']
  | '\\' => ['\\', '\\']
  | '\x08' => ['\\', 'b']
  | '\t' => ['\\', 't']
  | '\n' => ['\\', 'n']
  | '\x0c' => ['\\', 'f']
  | '\r' => ['\\', 'r']
  | c => if c.toNat < 0x20 || c.toNat == 0x7F then Json.unicodeEscape c else [c]

/-- A name in a message. -/
def nameText (name : String) : String :=
  if !name.isEmpty && name.toList.all isBare then name
  else "\"" ++ String.ofList (name.toList.flatMap escapedChar) ++ "\""

/-- A key in a message. -/
def text (key : Key) : String := ".".intercalate (key.map nameText)

end Key

end DeclGen.Toml
