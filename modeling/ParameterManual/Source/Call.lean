import ParameterManual.Source.Argument

/-!
# Calls and braces

A call is cut out of a text at its first opening parenthesis and at the
parenthesis that matches it, both outside literals. The net brace count of a
line says how the nesting depth changes across it.
-/

set_option autoImplicit false

namespace ParameterManual.Source

structure Call where
  head : Text
  arguments : Text
  rest : Text
  deriving DecidableEq, Repr

/-- The text before and after the first opening parenthesis. -/
def cutAtOpening : Quoting → Text → Option (Text × Text)
  | _, [] => none
  | s, c :: t =>
    if !s.covers c && c == '(' then some ([], t)
    else (cutAtOpening (s.next c) t).map (fun cut => (c :: cut.1, cut.2))

/-- The text before and after the parenthesis that closes all `depth + 1`
open ones. -/
def cutAtClosing : Quoting → (depth : Nat) → Text → Option (Text × Text)
  | _, _, [] => none
  | s, depth, c :: t =>
    let keep (cut : Text × Text) := (c :: cut.1, cut.2)
    if s.covers c then (cutAtClosing (s.next c) depth t).map keep
    else if c = '(' then (cutAtClosing s (depth + 1) t).map keep
    else if c = ')' then
      match depth with
      | 0 => some ([], t)
      | depth + 1 => (cutAtClosing s depth t).map keep
    else (cutAtClosing s depth t).map keep

def Call.ofText? (t : Text) : Option Call := do
  let (before, inside) ← cutAtOpening .code t
  let (arguments, rest) ← cutAtClosing .code 0 inside
  return ⟨before.trim, arguments, rest⟩

def braceWeight (c : Char) : Int :=
  if c = '\x7b' then 1 else if c = '\x7d' then -1 else 0

def braceDeltaFrom : Quoting → Text → Int
  | _, [] => 0
  | s, c :: t => (if s.covers c then 0 else braceWeight c) + braceDeltaFrom (s.next c) t

def braceDelta (line : Text) : Int := braceDeltaFrom .code line

end ParameterManual.Source
