import ParameterManual.Text.Basic

/-!
# TOML strings

A basic string has escapes, a literal one has none, and either may run over
several lines between three quotes. Up to two quotes may stand before the
closing three. Control characters other than tabs and line ends are refused.
-/

set_option autoImplicit false

namespace ParameterManual.Toml

def isControl (c : Char) : Bool := (c.toNat < 0x20 && c != '\t') || c.toNat == 0x7F

def hexDigit? (c : Char) : Option Nat :=
  if Text.isDigit c then some (c.toNat - '0'.toNat)
  else if 'a' ≤ c ∧ c ≤ 'f' then some (c.toNat - 'a'.toNat + 10)
  else if 'A' ≤ c ∧ c ≤ 'F' then some (c.toNat - 'A'.toNat + 10)
  else none

def hexValue? (digits : Text) : Option Nat :=
  digits.foldlM (fun n c => (hexDigit? c).map (fun d => 16 * n + d)) 0

/-- The character of a code point that is no surrogate. -/
def scalar? (digits : Text) : Option Char := do
  let n ← hexValue? digits
  if n < 0xD800 ∨ (0xDFFF < n ∧ n < 0x110000) then some (Char.ofNat n) else none

def escaped? (c : Char) : Option Char :=
  match c with
  | 'b' => some '\x08'
  | 't' => some '\t'
  | 'n' => some '\n'
  | 'f' => some '\x0c'
  | 'r' => some '\r'
  | '"' => some '"'
  | '\\' => some '\\'
  | _ => none

/-- Puts characters in front of what a reader takes. -/
def taking (front : Text) : Option (Text × Text) → Option (Text × Text) :=
  Option.map (fun r => (front ++ r.1, r.2))

/-- The rest of a basic string up to its quote, and what follows. -/
def basicRest : Text → Option (Text × Text)
  | [] => none
  | c :: t =>
    if c = '"' then some ([], t)
    else if c = '\\' then
      match t with
      | [] => none
      | e :: r =>
        if e = 'u' then
          match r with
          | a :: b :: c :: d :: r => do taking [← scalar? [a, b, c, d]] (basicRest r)
          | _ => none
        else if e = 'U' then
          match r with
          | a :: b :: c :: d :: e :: f :: g :: h :: r =>
            do taking [← scalar? [a, b, c, d, e, f, g, h]] (basicRest r)
          | _ => none
        else do taking [← escaped? e] (basicRest r)
    else if isControl c then none
    else taking [c] (basicRest t)

def literalRest : Text → Option (Text × Text)
  | [] => none
  | c :: t =>
    if c = '\x27' then some ([], t)
    else if isControl c then none
    else taking [c] (literalRest t)

/-- What a run of quotes in a string of several lines means before other text:
up to two are contents, and three more close the string. -/
def closing (quote : Char) (run : Nat) (rest : Text) : Option (Text × Text) :=
  if 3 ≤ run ∧ run ≤ 5 then some (List.replicate (run - 3) quote, rest) else none

/-- Whether a reader is in the gap that a backslash at the end of a line
makes, and whether it has passed the line end. -/
inductive Gap where
  | none
  | sameLine
  | nextLine
  deriving DecidableEq, Repr

def isLineBlank (c : Char) : Bool := c == ' ' || c == '\t'

/-- The rest of a basic string of several lines; a run of quotes has just been
read. -/
def longBasicRest : Gap → (run : Nat) → Text → Option (Text × Text)
  | _, run, [] => closing '"' run []
  | gap, run, c :: t =>
    if gap = .sameLine ∧ isLineBlank c then longBasicRest .sameLine 0 t
    else if gap ≠ .none ∧ c = '\n' then longBasicRest .nextLine 0 t
    else if gap ≠ .none ∧ c = '\r' then
      match t with
      | '\n' :: r => longBasicRest .nextLine 0 r
      | _ => none
    else if gap = .sameLine then none
    else if gap = .nextLine ∧ isLineBlank c then longBasicRest .nextLine 0 t
    else if c = '"' then longBasicRest .none (run + 1) t
    else if 3 ≤ run then closing '"' run (c :: t)
    else
      let front := List.replicate run '"'
      if c = '\\' then
        match t with
        | [] => none
        | e :: r =>
          if e = 'u' then
            match r with
            | a :: b :: c :: d :: r =>
              do taking (front ++ [← scalar? [a, b, c, d]]) (longBasicRest .none 0 r)
            | _ => none
          else if e = 'U' then
            match r with
            | a :: b :: c :: d :: e :: f :: g :: h :: r =>
              do taking (front ++ [← scalar? [a, b, c, d, e, f, g, h]]) (longBasicRest .none 0 r)
            | _ => none
          else if isLineBlank e then taking front (longBasicRest .sameLine 0 r)
          else if e = '\n' then taking front (longBasicRest .nextLine 0 r)
          else if e = '\r' then
            match r with
            | '\n' :: r => taking front (longBasicRest .nextLine 0 r)
            | _ => none
          else do taking (front ++ [← escaped? e]) (longBasicRest .none 0 r)
      else if c = '\r' then
        match t with
        | '\n' :: r => taking (front ++ ['\n']) (longBasicRest .none 0 r)
        | _ => none
      else if isControl c && c != '\n' then none
      else taking (front ++ [c]) (longBasicRest .none 0 t)

def longLiteralRest : (run : Nat) → Text → Option (Text × Text)
  | run, [] => closing '\x27' run []
  | run, c :: t =>
    if c = '\x27' then longLiteralRest (run + 1) t
    else if 3 ≤ run then closing '\x27' run (c :: t)
    else
      let front := List.replicate run '\x27'
      if c = '\r' then
        match t with
        | '\n' :: r => taking (front ++ ['\n']) (longLiteralRest 0 r)
        | _ => none
      else if isControl c && c != '\n' then none
      else taking (front ++ [c]) (longLiteralRest 0 t)

/-- Drops the line end directly after opening quotes. -/
def afterOpening (t : Text) : Text :=
  match t with
  | '\n' :: r => r
  | '\r' :: '\n' :: r => r
  | _ => t

/-- A string of any of the four forms at the start of a text. -/
def string? (t : Text) : Option (Text × Text) :=
  match Text.afterLead? ['"', '"', '"'] t, Text.afterLead? ['\x27', '\x27', '\x27'] t with
  | some r, _ => longBasicRest .none 0 (afterOpening r)
  | _, some r => longLiteralRest 0 (afterOpening r)
  | none, none =>
    match t with
    | c :: r =>
      if c = '"' then basicRest r else if c = '\x27' then literalRest r else none
    | [] => none

def isBareKeyChar (c : Char) : Bool := Text.isNameChar c || c == '-'

/-- One key: bare, or a string on one line. -/
def simpleKey? (t : Text) : Option (Text × Text) :=
  match t with
  | [] => none
  | c :: r =>
    if c = '"' then basicRest r
    else if c = '\x27' then literalRest r
    else if isBareKeyChar c then some (t.takeWhile isBareKeyChar, t.dropWhile isBareKeyChar)
    else none

def skipBlanks (t : Text) : Text := t.dropWhile isLineBlank

/-- Keys with dots between them, and what follows. -/
def keysFrom : (fuel : Nat) → Text → Option (List Text × Text)
  | 0, _ => none
  | fuel + 1, t => do
    let (key, t) ← simpleKey? (skipBlanks t)
    match skipBlanks t with
    | '.' :: r => (keysFrom fuel r).map (fun k => (key :: k.1, k.2))
    | r => some ([key], r)

/-- At most 79 keys may be joined by dots. -/
def keys? (t : Text) : Option (List Text × Text) := keysFrom 79 t

end ParameterManual.Toml
