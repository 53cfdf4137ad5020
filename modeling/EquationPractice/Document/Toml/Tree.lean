import EquationPractice.Document.Value

/-!
# Tables under construction

The lines of a TOML document build its tables piece by piece.  A header opens a table, or appends one
to an array of tables; a pair puts a value into the table that was opened last.  A dotted key makes
the tables on its way, and so does a header.  No entry is put twice, a header opens a table only once,
and tables that pairs have made are not opened by a header or the other way round.

## Main definitions

* `Toml.Node`: an entry of a table under construction.
* `Toml.openTable`, `Toml.appendTable`, `Toml.putValue`: what a header and a pair do to the tables.
* `Toml.finishedEntries`: the entries of a finished table.
-/

namespace EquationPractice.Toml

/-- How a table came to be: a header opened it, a header passed through it on its way to another
table, or a dotted key made it. -/
inductive Origin where
  | opened
  | passed
  | dotted
  deriving DecidableEq, Repr

/-- An entry of a table under construction: a value, a table, or an array of tables, of which the
last one is still open. -/
inductive Node where
  | value (v : Value)
  | table (origin : Origin) (entries : List (String × Node))
  | tables (items : List (List (String × Node)))

/-- The entries of a table under construction. -/
abbrev Entries := List (String × Node)

/-- Puts an entry into a table, in place of the one with the same name. -/
def putEntry (name : String) (node : Node) (entries : Entries) : Entries :=
  entries.filter (·.1 != name) ++ [(name, node)]

/-- Changes the table at the end of a path; `change` learns how that table came to be.  Missing tables
are made, and of an array of tables the last one is meant.  A dotted key must not pass through a table
that a header opened. -/
def changeAt (dotted : Bool) (change : Origin → Entries → Option Entries) :
    List String → Origin → Entries → Option Entries
  | [], origin, entries => change origin entries
  | name :: path, _, entries =>
      match entries.lookup name with
      | none => do
          let made := if dotted then .dotted else .passed
          return putEntry name (.table made (← changeAt dotted change path made [])) entries
      | some (.table origin inner) =>
          if dotted && origin == .opened then none
          else do
            return putEntry name (.table origin (← changeAt dotted change path origin inner)) entries
      | some (.tables items) => do
          let last ← changeAt dotted change path .opened (items.getLast?.getD [])
          return putEntry name (.tables (items.dropLast ++ [last])) entries
      | some (.value _) => none

/-- Puts a value under a new name into the table that a dotted key leads to. -/
def putValue (path : List String) (name : String) (v : Value) (entries : Entries) :
    Option Entries :=
  changeAt true (fun origin inner =>
    if (origin == .dotted) == path.isEmpty then none
    else if (inner.lookup name).isSome then none
    else some (putEntry name (.value v) inner)) path .opened entries

/-- Opens a table: a new one, or one that was only passed through so far. -/
def openTable (path : List String) (name : String) (entries : Entries) : Option Entries :=
  changeAt false (fun _ inner =>
    match inner.lookup name with
    | none => some (putEntry name (.table .opened []) inner)
    | some (.table .passed old) => some (putEntry name (.table .opened old) inner)
    | some _ => none) path .opened entries

/-- Appends a table to a new array of tables, or to one that has some already. -/
def appendTable (path : List String) (name : String) (entries : Entries) : Option Entries :=
  changeAt false (fun _ inner =>
    match inner.lookup name with
    | none => some (putEntry name (.tables [[]]) inner)
    | some (.tables items) => some (putEntry name (.tables (items ++ [[]])) inner)
    | some _ => none) path .opened entries

/-! ## Finished values -/

mutual

/-- The finished value of an entry. -/
def Node.finished : Node → Value
  | .value v => v
  | .table _ entries => .table (finishedEntries entries)
  | .tables items => .list (finishedTables items)

/-- The finished entries of a table. -/
def finishedEntries : List (String × Node) → List (String × Value)
  | [] => []
  | entry :: rest => finishedEntry entry :: finishedEntries rest

/-- A finished entry. -/
def finishedEntry : String × Node → String × Value
  | (name, node) => (name, node.finished)

/-- The finished tables of an array. -/
def finishedTables : List (List (String × Node)) → List Value
  | [] => []
  | entries :: rest => .table (finishedEntries entries) :: finishedTables rest

end

end EquationPractice.Toml
