import ParameterManual.Text.Basic

/-!
# JSON documents

A document is written over several lines: each item of an array or an object
has a line of its own, two blanks further in than what holds it, and an empty
one is written on one line.
-/

set_option autoImplicit false

namespace ParameterManual

inductive Json where
  | null
  | boolean (b : Bool)
  | string (t : Text)
  | array (items : List Json)
  | object (fields : List (Text × Json))
  deriving Inhabited

namespace Json

def hexDigit (n : Nat) : Char := if n < 10 then Char.ofNat (48 + n) else Char.ofNat (87 + n)

def escapeChar (c : Char) : Text :=
  if c = '"' then ['\\', '"']
  else if c = '\\' then ['\\', '\\']
  else if c = '\n' then ['\\', 'n']
  else if c = '\r' then ['\\', 'r']
  else if c = '\t' then ['\\', 't']
  else if c = '\x08' then ['\\', 'b']
  else if c = '\x0c' then ['\\', 'f']
  else if c.toNat < 0x20 then
    ['\\', 'u', '0', '0', hexDigit (c.toNat / 16), hexDigit (c.toNat % 16)]
  else [c]

def quote (t : Text) : Text := '"' :: t.flatMap escapeChar ++ ['"']

def newline (depth : Nat) : Text := '\n' :: List.replicate (2 * depth) ' '

/-- Items between brackets, each on a line of its own. -/
def block (opening closing : Char) (depth : Nat) : List Text → Text
  | [] => [opening, closing]
  | items =>
    opening :: newline (depth + 1) ++ Text.joined (',' :: newline (depth + 1)) items ++
      newline depth ++ [closing]

mutual

def pretty (depth : Nat) : Json → Text
  | null => "null".toList
  | boolean b => (if b then "true" else "false").toList
  | string t => quote t
  | array items => block '[' ']' depth (prettyItems (depth + 1) items)
  | object fields => block '\x7b' '\x7d' depth (prettyFields (depth + 1) fields)
termination_by structural json => json

def prettyItems (depth : Nat) : List Json → List Text
  | [] => []
  | item :: rest => item.pretty depth :: prettyItems depth rest
termination_by structural items => items

def prettyFields (depth : Nat) : List (Text × Json) → List Text
  | [] => []
  | (key, value) :: rest =>
    (quote key ++ ": ".toList ++ value.pretty depth) :: prettyFields depth rest
termination_by structural fields => fields

end

end Json

end ParameterManual
