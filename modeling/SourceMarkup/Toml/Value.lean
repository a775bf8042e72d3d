import SourceMarkup.Text.Basic

/-!
# TOML values

A document is a table of values under keys. How a table came about decides what
may be added to it: a table written in braces is closed; a table under a header
is defined once; a table that a longer header only passes through is implied and
may be defined later; a table that dotted keys lead to may grow by further dotted
keys. Headers in double brackets add tables to a list, whose last table is the
one that later keys belong to.
-/

namespace SourceMarkup

namespace Toml

inductive TableKind
  | closed
  | defined
  | implied
  | dotted
  deriving DecidableEq, Repr

/-- A value. Numbers with a fraction and dates are kept as they were written. -/
inductive Value
  | string (t : Text)
  | integer (n : Int)
  | float (literal : Text)
  | boolean (b : Bool)
  | datetime (literal : Text)
  | array (items : List Value)
  | table (kind : TableKind) (entries : List (Text × Value))
  | tables (items : List (List (Text × Value)))

/-- The keys of a table with their values, in the order of the document. -/
abbrev Entries := List (Text × Value)

namespace Entries

def replace (entries : Entries) (key : Text) (value : Value) : Entries :=
  entries.map fun entry => if entry.1 = key then (key, value) else entry

def insert? (entries : Entries) (key : Text) (value : Value) : Option Entries :=
  match entries.lookup key with
  | none => some (entries ++ [(key, value)])
  | some _ => none

/-- A change to the table that a path leads to, from a table of the given kind.
Tables that are missing on the way are made, and of a list of tables the last one
is taken. The path must not lead through other values or closed tables, and a path
of dotted keys not through defined tables. -/
def changeAt (isDotted : Bool) (change : TableKind → Entries → Option Entries) :
    List Text → TableKind → Entries → Option Entries
  | [], kind, entries => change kind entries
  | key :: path, _, entries =>
      match entries.lookup key with
      | none =>
          let kind := if isDotted then .dotted else .implied
          (changeAt isDotted change path kind []).map fun inner =>
            entries ++ [(key, .table kind inner)]
      | some (.table kind inner) =>
          if kind = .closed ∨ (isDotted ∧ kind = .defined) then none
          else
            (changeAt isDotted change path kind inner).map fun inner =>
              entries.replace key (.table kind inner)
      | some (.tables items) =>
          (changeAt isDotted change path .defined (items.getLastD [])).map
            fun inner => entries.replace key (.tables (items.dropLast ++ [inner]))
      | some _ => none

/-- The entries with the value of a dotted key. The last table on the way must
have been made by dotted keys too. -/
def insertDotted? (path : List Text) (key : Text) (value : Value)
    (kind : TableKind) (entries : Entries) : Option Entries :=
  changeAt true
    (fun kind inner =>
      if path.isEmpty ∨ kind = .dotted then insert? inner key value else none)
    path kind entries

def define? (key : Text) (entries : Entries) : Option Entries :=
  match entries.lookup key with
  | none => some (entries ++ [(key, .table .defined [])])
  | some (.table .implied inner) =>
      some (entries.replace key (.table .defined inner))
  | some _ => none

def append? (key : Text) (entries : Entries) : Option Entries :=
  match entries.lookup key with
  | none => some (entries ++ [(key, .tables [[]])])
  | some (.tables items) => some (entries.replace key (.tables (items ++ [[]])))
  | some _ => none

end Entries

/-- A document that is being read: its entries, and the path of the table that
the next keys belong to. -/
structure Document where
  entries : Entries
  current : List Text

namespace Document

def empty : Document := ⟨[], []⟩

def openTable? (document : Document) (path : List Text) : Option Document :=
  match path.getLast? with
  | none => none
  | some key =>
      (Entries.changeAt false (fun _ => Entries.define? key) path.dropLast .defined
        document.entries).map fun entries => ⟨entries, path⟩

def appendTable? (document : Document) (path : List Text) : Option Document :=
  match path.getLast? with
  | none => none
  | some key =>
      (Entries.changeAt false (fun _ => Entries.append? key) path.dropLast .defined
        document.entries).map fun entries => ⟨entries, path⟩

def insert? (document : Document) (path : List Text) (value : Value) :
    Option Document :=
  match path.getLast? with
  | none => none
  | some key =>
      (Entries.changeAt false (Entries.insertDotted? path.dropLast key value)
        document.current .defined document.entries).map fun entries =>
          { document with entries := entries }

end Document

end Toml

end SourceMarkup
