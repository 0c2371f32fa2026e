import ParameterManual.Toml.Number

/-!
# TOML documents

Reading a document: lines of keys and values, and headers that open tables.
Values nest at most 79 deep.
-/

set_option autoImplicit false

namespace ParameterManual.Toml

/-- Drops blanks, line ends and comments; the flag says that a comment is
open. -/
def skipLines : (inComment : Bool) → Text → Option Text
  | inComment, [] => if inComment then none else some []
  | inComment, c :: t =>
    if c = '\n' then skipLines false t
    else if c = '\r' then
      match t with
      | '\n' :: r => skipLines false r
      | _ => none
    else if inComment then if isControl c then none else skipLines true t
    else if c = '#' then skipLines true t
    else if isLineBlank c then skipLines false t
    else some (c :: t)

abbrev Reader := Text → Option (Toml × Text)

/-- The rest of an array. -/
def arrayRest (value : Reader) : (fuel : Nat) → Text → Option (List Toml × Text)
  | 0, _ => none
  | fuel + 1, t => do
    match ← skipLines false t with
    | ']' :: r => some ([], r)
    | t =>
      let (item, t) ← value t
      match ← skipLines false t with
      | ',' :: r => (arrayRest value fuel r).map (fun rest => (item :: rest.1, rest.2))
      | ']' :: r => some ([item], r)
      | _ => none

def keyValue? (value : Reader) (t : Text) : Option (List Text × Toml × Text) := do
  let (keys, t) ← keys? t
  match t with
  | '=' :: r =>
    let (v, t) ← value (skipBlanks r)
    some (keys, v, t)
  | _ => none

/-- The rest of an inline table, given the entries read before. -/
def inlineRest (value : Reader) : (fuel : Nat) → Drafts → Text → Option (Drafts × Text)
  | 0, _, _ => none
  | fuel + 1, entries, t => do
    let (keys, v, t) ← keyValue? value t
    let entries ← addValue v keys entries
    match skipBlanks t with
    | ',' :: r => inlineRest value fuel entries r
    | '\x7d' :: r => some (entries, r)
    | _ => none

def inline (value : Reader) (t : Text) : Option (Drafts × Text) :=
  match skipBlanks t with
  | '\x7d' :: r => some ([], r)
  | _ => inlineRest value (t.length + 1) [] t

def value? : (depth : Nat) → Reader
  | depth, t =>
    match t with
    | '[' :: r =>
      match depth with
      | 0 => none
      | depth + 1 => (arrayRest (value? depth) (r.length + 1) r).map
          (fun items => (.array items.1, items.2))
    | '\x7b' :: r =>
      match depth with
      | 0 => none
      | depth + 1 => (inline (value? depth) r).map
          (fun entries => (.table (Draft.finishEntries entries.1), entries.2))
    | c :: _ =>
      if c = '"' ∨ c = '\x27' then (string? t).map (fun s => (.string s.1, s.2))
      else scalarValue? t
    | [] => none

/-- What follows the end of a line, after blanks and a comment. -/
def lineEnd? (t : Text) : Option Text :=
  let rest (t : Text) : Option Text :=
    match t with
    | [] => some []
    | '\n' :: r => some r
    | '\r' :: '\n' :: r => some r
    | _ => none
  match skipBlanks t with
  | '#' :: r => rest (r.dropWhile (fun c => !isControl c))
  | t => rest t

/-- The table that the last header opened, and all that was read. -/
structure Reading where
  header : List Text
  entries : Drafts

def Reading.add (reading : Reading) (keys : List Text) (v : Toml) : Option Reading := do
  let entries ←
    if reading.header.isEmpty then addValue v keys reading.entries
    else atHeader (addBelow v keys) reading.header reading.entries
  some { reading with entries }

def Reading.openAt (reading : Reading) (change : Text → Drafts → Option Drafts)
    (keys : List Text) : Option Reading := do
  some ⟨keys, ← atHeader change keys reading.entries⟩

/-- A header, or keys and a value, at the start of a line. -/
def line? (reading : Reading) (t : Text) : Option (Reading × Text) :=
  match t with
  | '[' :: '[' :: r => do
    match ← keys? r with
    | (keys, ']' :: ']' :: r) => some (← reading.openAt openElement keys, r)
    | _ => none
  | '[' :: r => do
    match ← keys? r with
    | (keys, ']' :: r) => some (← reading.openAt openTable keys, r)
    | _ => none
  | _ => do
    let (keys, v, r) ← keyValue? (value? 79) t
    some (← reading.add keys v, r)

def linesFrom : (fuel : Nat) → Reading → Text → Option Reading
  | 0, _, _ => none
  | fuel + 1, reading, t => do
    match skipBlanks t with
    | [] => some reading
    | t =>
      if t.head? = some '#' ∨ t.head? = some '\n' ∨ t.head? = some '\r' then
        linesFrom fuel reading (← lineEnd? t)
      else
        let (reading, t) ← line? reading t
        linesFrom fuel reading (← lineEnd? t)

/-- The entries of the table that a document describes, if it is well formed.
A byte order mark in front is passed over. -/
def document? (t : Text) : Option (List (Text × Toml)) := do
  let t := (Text.afterLead? ['\ufeff'] t).getD t
  let reading ← linesFrom (t.length + 1) ⟨[], []⟩ t
  some (Draft.finishEntries reading.entries)

end ParameterManual.Toml
