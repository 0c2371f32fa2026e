import ParameterManual.Text.Map
import ParameterManual.Toml.Moment

/-!
# TOML values

A document is a table of values. While it is read, a table remembers how it
was opened, because that decides what may still be added to it: a header
opens a table once, dotted keys extend only tables that dotted keys made,
and a table that only leads to others can still be opened.
-/

set_option autoImplicit false

namespace ParameterManual

inductive Toml where
  | string (t : Text)
  | integer (n : Int)
  | float (spelling : Text)
  | boolean (b : Bool)
  | moment (m : Toml.Moment)
  | array (items : List Toml)
  | table (entries : List (Text × Toml))
  deriving Inhabited

namespace Toml

/-- How a table came to be. -/
inductive Opening where
  | header
  | onTheWay
  | dotted
  deriving DecidableEq, Repr

inductive Draft where
  | value (v : Toml)
  | table (opening : Opening) (entries : List (Text × Draft))
  /-- An array of tables, the last one first. -/
  | tables (elements : List (List (Text × Draft)))
  deriving Inhabited

namespace Draft

mutual

def finish : Draft → Toml
  | value v => v
  | table _ entries => .table (finishEntries entries)
  | tables elements => .array (finishTables elements).reverse
termination_by structural draft => draft

def finishEntries : List (Text × Draft) → List (Text × Toml)
  | [] => []
  | (key, draft) :: rest => (key, draft.finish) :: finishEntries rest
termination_by structural entries => entries

def finishTables : List (List (Text × Draft)) → List Toml
  | [] => []
  | entries :: rest => .table (finishEntries entries) :: finishTables rest
termination_by structural elements => elements

end

end Draft

abbrev Drafts := List (Text × Draft)

/-- Adds a value under dotted keys. The table that is to hold it must have
been made by dotted keys, or be the one that the keys start from. -/
def addValue (value : Toml) : (keys : List Text) → Drafts → Option Drafts
  | [], _ => none
  | [key], entries =>
    match TextMap.find? key entries with
    | none => some (TextMap.insert key (.value value) entries)
    | some _ => none
  | key :: next :: rest, entries =>
    match TextMap.find? key entries with
    | none => (addValue value (next :: rest) []).map
        (fun inner => TextMap.insert key (.table .dotted inner) entries)
    | some (.table .dotted inner) => (addValue value (next :: rest) inner).map
        (fun inner => TextMap.insert key (.table .dotted inner) entries)
    | some (.table .onTheWay inner) =>
      if rest.isEmpty then none
      else (addValue value (next :: rest) inner).map
        (fun inner => TextMap.insert key (.table .onTheWay inner) entries)
    | some (.tables (last :: others)) =>
      if rest.isEmpty then none
      else (addValue value (next :: rest) last).map
        (fun last => TextMap.insert key (.tables (last :: others)) entries)
    | _ => none

/-- Changes the entries that the keys of a header lead to; the last table of
an array of tables stands for it. -/
def atHeader (change : Text → Drafts → Option Drafts) :
    (keys : List Text) → Drafts → Option Drafts
  | [], _ => none
  | [key], entries => change key entries
  | key :: next :: rest, entries =>
    match TextMap.find? key entries with
    | none => (atHeader change (next :: rest) []).map
        (fun inner => TextMap.insert key (.table .onTheWay inner) entries)
    | some (.table opening inner) => (atHeader change (next :: rest) inner).map
        (fun inner => TextMap.insert key (.table opening inner) entries)
    | some (.tables (last :: others)) => (atHeader change (next :: rest) last).map
        (fun last => TextMap.insert key (.tables (last :: others)) entries)
    | _ => none

def openTable (key : Text) (entries : Drafts) : Option Drafts :=
  match TextMap.find? key entries with
  | none => some (TextMap.insert key (.table .header []) entries)
  | some (.table .onTheWay inner) => some (TextMap.insert key (.table .header inner) entries)
  | _ => none

def openElement (key : Text) (entries : Drafts) : Option Drafts :=
  match TextMap.find? key entries with
  | none => some (TextMap.insert key (.tables [[]]) entries)
  | some (.tables elements) => some (TextMap.insert key (.tables ([] :: elements)) entries)
  | _ => none

/-- Adds a value to the table or the array element that a header opened. -/
def addBelow (value : Toml) (keys : List Text) (key : Text) (entries : Drafts) :
    Option Drafts :=
  match TextMap.find? key entries with
  | some (.table opening inner) => (addValue value keys inner).map
      (fun inner => TextMap.insert key (.table opening inner) entries)
  | some (.tables (last :: others)) => (addValue value keys last).map
      (fun last => TextMap.insert key (.tables (last :: others)) entries)
  | _ => none

end Toml

end ParameterManual
