import ParameterManual.Text.Basic

/-!
# String and character literals

A scan of source text is either in code or inside a literal. Inside a
literal commas, brackets and comment markers carry no meaning, and a
backslash takes the next character along. Every scanner of this library
keeps this one state.
-/

set_option autoImplicit false

namespace ParameterManual

inductive Quoting where
  | code
  | inside (quote : Char) (escaped : Bool)
  deriving DecidableEq, Repr

namespace Quoting

def isQuote (c : Char) : Bool := c == '"' || c == '\x27'

/-- Whether the next character belongs to a literal, its quotes included. -/
def covers : Quoting → Char → Bool
  | .code, c => isQuote c
  | .inside _ _, _ => true

def next : Quoting → Char → Quoting
  | .code, c => if isQuote c then .inside c false else .code
  | .inside q true, _ => .inside q false
  | .inside q false, c =>
    if c = '\\' then .inside q true else if c = q then .code else .inside q false

def after (s : Quoting) (t : Text) : Quoting := t.foldl next s

/-- The characters of a text that lie outside its literals. -/
def bare : Quoting → Text → Text
  | _, [] => []
  | s, c :: t => if s.covers c then bare (s.next c) t else c :: bare (s.next c) t

theorem after_append (s : Quoting) (t u : Text) : s.after (t ++ u) = (s.after t).after u :=
  List.foldl_append

theorem bare_append (s : Quoting) (t u : Text) :
    s.bare (t ++ u) = s.bare t ++ (s.after t).bare u := by
  induction t generalizing s with
  | nil => rfl
  | cons c t ih =>
    by_cases h : s.covers c <;> simp [bare, after, h, ih]

end Quoting

end ParameterManual
