import CheckHarness.Toml.Value

namespace CheckHarness.Toml

/-- How a table came to be, because that decides whether it may be extended: one that was only
implied by a longer header may still get a header of its own, one made by dotted keys may be
extended by dotted keys alone, and one with a header or written inline is complete. -/
inductive Origin where
  | header
  | implied
  | dotted
  deriving DecidableEq, Repr

inductive Entry where
  | value (value : Value)
  | table (origin : Origin) (entries : List (String × Entry))
  /-- The tables of one array, each opened by a header of its own; the last one is open. -/
  | tables (tables : List (List (String × Entry)))
  deriving Repr, Inhabited

abbrev Entries := List (String × Entry)

namespace Entries

/-- Sets an entry, in its place if the name is there already. -/
def set (entries : Entries) (name : String) (entry : Entry) : Entries :=
  match entries with
  | [] => [(name, entry)]
  | (other, old) :: rest =>
    if other = name then (name, entry) :: rest else (other, old) :: set rest name entry

/-- Applies a change to the last table of an array. -/
def changeLast (change : Entries → Option Entries) (tables : List Entries) : Option (List Entries) :=
  match tables.getLast? with
  | none => none
  | some last => (change last).map fun table => tables.dropLast ++ [table]

/-- Takes an entry out. -/
def remove (entries : Entries) (name : String) : Entries :=
  entries.filter fun entry => entry.1 != name

/-- Changes the table that holds the last name of a header's path. Tables on the way that are
missing are implied; of an array the last table is meant. -/
def changeAt (change : String → Entries → Option Entries) : List String → Entries → Option Entries
  | [], _ => none
  | [name], entries => change name entries
  | name :: path, entries =>
    match entries.lookup name with
    | none => (changeAt change path []).map fun table => entries.set name (.table .implied table)
    | some (.table origin table) =>
      (changeAt change path table).map fun table => entries.set name (.table origin table)
    | some (.tables tables) =>
      (changeLast (changeAt change path) tables).map fun tables => entries.set name (.tables tables)
    | some (.value _) => none

/-- Opens a table by its header. One that was implied so far takes its place only now. -/
def openTable : List String → Entries → Option Entries :=
  changeAt fun name entries =>
    match entries.lookup name with
    | none => some (entries.set name (.table .header []))
    | some (.table .implied table) => some ((entries.remove name).set name (.table .header table))
    | _ => none

/-- Opens a further table of an array by its header. -/
def openElement : List String → Entries → Option Entries :=
  changeAt fun name entries =>
    match entries.lookup name with
    | none => some (entries.set name (.tables [[]]))
    | some (.tables tables) => some (entries.set name (.tables (tables ++ [[]])))
    | _ => none

/-- Adds a value under a dotted key. `origin` tells how the table that is reached came to be: at
the end of a dotted path it has to be a dotted one. -/
def insertDotted (name : String) (value : Value) (nested : Bool) (origin : Origin) :
    List String → Entries → Option Entries
  | [], entries =>
    if nested == (origin == .dotted) && (entries.lookup name).isNone then
      some (entries ++ [(name, .value value)])
    else none
  | step :: path, entries =>
    match entries.lookup step with
    | none =>
      (insertDotted name value nested .dotted path []).map fun table =>
        entries.set step (.table .dotted table)
    | some (.table .header _) => none
    | some (.table origin table) =>
      (insertDotted name value nested origin path table).map fun table =>
        entries.set step (.table origin table)
    | some (.tables tables) =>
      (changeLast (insertDotted name value nested .header path) tables).map fun tables =>
        entries.set step (.tables tables)
    | some (.value _) => none

/-- Adds a value under the key in the table itself. -/
def insert (key : List String) (value : Value) (entries : Entries) : Option Entries :=
  match key.getLast? with
  | none => none
  | some name => insertDotted name value (1 < key.length) .header key.dropLast entries

/-- Adds a value to the table that a header opened. -/
def insertAt (key : List String) (value : Value) (header : List String) (entries : Entries) :
    Option Entries :=
  if header.isEmpty then insert key value entries
  else
    changeAt (fun name entries =>
      match entries.lookup name with
      | some (.table origin table) =>
        (insert key value table).map fun table => entries.set name (.table origin table)
      | some (.tables tables) =>
        (changeLast (insert key value) tables).map fun tables => entries.set name (.tables tables)
      | _ => none) header entries

mutual

/-- The value of an entry. -/
def entryValue : Entry → Value
  | .value value => value
  | .table _ entries => .table (values entries)
  | .tables tables => .array (tableValues tables)

def values : List (String × Entry) → List (String × Value)
  | [] => []
  | (name, entry) :: entries => (name, entryValue entry) :: values entries

def tableValues : List (List (String × Entry)) → List Value
  | [] => []
  | table :: tables => .table (values table) :: tableValues tables

end

end Entries

end CheckHarness.Toml
