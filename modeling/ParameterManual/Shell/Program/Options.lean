import ParameterManual.Shell.Session

/-!
# Options of programs

Options may stand anywhere in front of a double dash. A single letter may
have its value attached, and letters without values can be written together.
-/

set_option autoImplicit false

namespace ParameterManual.Shell

abbrev Program := List Bytes → Action Nat

structure OptionTable where
  program : String
  plain : String
  valued : String
  /-- Long names with the letters that they stand for. -/
  long : List (String × Char)
  /-- The status of a wrong use. -/
  misuse : Nat
  /-- Whether the first operand ends the options. -/
  stops : Bool

structure Options where
  given : List (Char × Bytes)
  operands : List Bytes

def Options.has (o : Options) (letter : Char) : Bool := o.given.any (·.1 == letter)

def Options.value? (o : Options) (letter : Char) : Option Bytes :=
  o.given.reverse.lookup letter

def Options.lastOf? (o : Options) (letters : String) : Option Char :=
  ((o.given.map Prod.fst).filter letters.toList.contains).getLast?

inductive Misuse where
  | unknown (option : Bytes)
  | valueMissing (option : Bytes)
  deriving DecidableEq, Repr

namespace OptionTable

def takesValue (table : OptionTable) (c : Char) : Bool := table.valued.toList.contains c

/-- The letters of an argument behind its dash, with a value if the last one
takes one that is attached; the flag says that it waits for one. -/
def letters (table : OptionTable) : Bytes → Except Misuse (List (Char × Bytes) × Bool)
  | [] => .ok ([], false)
  | c :: t =>
    if table.takesValue c then .ok ([(c, t)], t.isEmpty)
    else if table.plain.toList.contains c then do
      let rest ← letters table t
      return ((c, []) :: rest.1, rest.2)
    else .error (.unknown [c])

def long? (table : OptionTable) (name : Bytes) : Option Char :=
  (table.long.find? (fun l => l.1.toList == name)).map Prod.snd

def readFrom (table : OptionTable) : (waiting : Option Char) → List Bytes → Except Misuse Options
  | none, [] => .ok ⟨[], []⟩
  | some c, [] => .error (.valueMissing [c])
  | some c, a :: rest => do
    let o ← readFrom table none rest
    return { o with given := (c, a) :: o.given }
  | none, a :: rest =>
    match a with
    | ['-'] => do
      let o ← readFrom table none rest
      return { o with operands := a :: o.operands }
    | ['-', '-'] => .ok ⟨[], rest⟩
    | '-' :: '-' :: t =>
      let name := t.takeWhile (· != '=')
      match table.long? name with
      | none => .error (.unknown a)
      | some c =>
        if table.takesValue c && !t.contains '=' then readFrom table (some c) rest
        else do
          let o ← readFrom table none rest
          return { o with given := (c, t.drop (name.length + 1)) :: o.given }
    | '-' :: t => do
      let (found, waits) ← letters table t
      match waits, found.getLast? with
      | true, some (c, _) => do
        let o ← readFrom table (some c) rest
        return { o with given := found.dropLast ++ o.given }
      | _, _ => do
        let o ← readFrom table none rest
        return { o with given := found ++ o.given }
    | _ =>
      if table.stops then .ok ⟨[], a :: rest⟩
      else do
        let o ← readFrom table none rest
        return { o with operands := a :: o.operands }

def complaint (table : OptionTable) : Misuse → List Bytes
  | .unknown option =>
    [(if option.length = 1 then table.program ++ ": invalid option -- '"
      else table.program ++ ": unrecognized option '").toList ++ option ++ ['\x27']]
  | .valueMissing option =>
    [(table.program ++ ": option requires an argument -- '").toList ++ option ++ ['\x27']]

def helpHint (program : String) : Action Unit :=
  Action.complain ("Try '" ++ program ++ " --help' for more information.").toList

def andThen (table : OptionTable) (body : Options → Action Nat) : Program := fun arguments => do
  match table.readFrom none arguments with
  | .ok o => body o
  | .error m =>
    for line in table.complaint m do Action.complain line
    helpHint table.program
    return table.misuse

end OptionTable

def misused (program : String) (t : Bytes) : Action Nat := do
  Action.complain ((program ++ ": ").toList ++ t)
  OptionTable.helpHint program
  return 1

def missing (program what : String) : Action Nat := misused program ("missing " ++ what).toList

def fileComplaint (program : String) (path : Bytes) (fault : FileFault) : Action Unit :=
  Action.complain ((program ++ ": ").toList ++ path ++ ": ".toList ++ reason fault)

/-- The contents of files, standard input for none. Those that cannot be read
are complained about; the flag says that there were none of these. -/
def readOperands (program : String) (operands : List Bytes) :
    Action (List (Bytes × Bytes) × Bool) := do
  let mut found := []
  let mut allRead := true
  for path in if operands.isEmpty then [['-']] else operands do
    match ← Action.readFile path with
    | .ok b => found := (path, b) :: found
    | .error fault =>
      fileComplaint program path fault
      allRead := false
  return (found.reverse, allRead)

def natural? (t : Bytes) : Option Nat :=
  if !t.isEmpty && t.all Text.isDigit then
    some (t.foldl (fun n c => 10 * n + (c.toNat - '0'.toNat)) 0)
  else none

def statusOf (ok : Bool) : Nat := if ok then 0 else 1

end ParameterManual.Shell
