import ParameterManual.Statement.Basic

/-!
# Reading statements

A statement is read from the text between its lead and its terminator. A
bind names its type between angles; all that may follow its arguments is a
chain of modifiers.
-/

set_option autoImplicit false

namespace ParameterManual.Statement

open Source

/-- The text before and after the angle that closes all `depth + 1` open ones. -/
def cutAtAngle : (depth : Nat) → Text → Option (Text × Text)
  | _, [] => none
  | depth, c :: t =>
    let keep (cut : Text × Text) := (c :: cut.1, cut.2)
    if c = '<' then (cutAtAngle (depth + 1) t).map keep
    else if c = '>' then
      match depth with
      | 0 => some ([], t)
      | depth + 1 => (cutAtAngle depth t).map keep
    else if c = '(' ∨ c = ';' then none
    else (cutAtAngle depth t).map keep

def callOf (t : Text) : Except Malformation Call :=
  match Call.ofText? t with
  | some call => .ok call
  | none => .error .unbalancedParentheses

def soleCall (t : Text) : Except Malformation (List Text) := do
  let call ← callOf t
  match call.rest.trim with
  | [] => return splitArguments call.arguments
  | rest => throw (.afterCall rest)

/-- Reads at most `fuel` modifiers; each takes characters, so the length of
the text is enough. -/
def modifiersFrom : (fuel : Nat) → Text → Except Malformation (List Modifier)
  | 0, _ => .ok []
  | fuel + 1, t =>
    match t.trim with
    | [] => .ok []
    | rest =>
      match Text.afterLead? "->".toList rest with
      | none => .error (.afterBind rest)
      | some chained => do
        let call ← callOf chained
        let others ← modifiersFrom fuel call.rest
        return ⟨call.head, splitArguments call.arguments⟩ :: others

def modifiers (t : Text) : Except Malformation (List Modifier) := modifiersFrom (t.length + 1) t

def parseBind (t : Text) : Except Malformation Statement :=
  match cutAtAngle 0 t with
  | none => .error .unterminatedTemplate
  | some (template, after) => do
    let call ← callOf after
    if call.head = [] then
      let chain ← modifiers call.rest
      return .bind template.trim (splitArguments call.arguments) chain
    else
      throw (.beforeArguments call.head)

def withoutTerminator (t : Text) : Text :=
  Text.trimEnd (Text.dropEndWhile (· == ';') t.trim)

/-- The statement that a text spells, `none` if it begins like no statement. -/
def parse (t : Text) : Except Malformation (Option Statement) :=
  let t := withoutTerminator t
  if Text.startsWith bindTableLead t then (fun a => some (.bindTable a)) <$> soleCall t
  else
    match Text.afterLead? bindLead t with
    | some after => some <$> parseBind after
    | none =>
      if startsRegistration t then (fun a => some (.register a)) <$> soleCall t
      else .ok none

end ParameterManual.Statement
