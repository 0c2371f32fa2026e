import ParameterManual.Shell.Format
import ParameterManual.Shell.Program.Characters
import ParameterManual.Shell.Program.Columns
import ParameterManual.Shell.Program.Edit
import ParameterManual.Shell.Program.Finding
import ParameterManual.Shell.Program.Order
import ParameterManual.Shell.Program.Search
import ParameterManual.Shell.Program.Sequence
import ParameterManual.Shell.Program.Test

/-!
# Programs

The programs that a shell can start, by name.
-/

set_option autoImplicit false

namespace ParameterManual.Shell.Program

/-! ## Short programs -/

def echo : Program := fun arguments => do
  let isFlag (a : Bytes) : Bool :=
    match a with
    | '-' :: c :: t => (c :: t).all (fun c => c == 'n' || c == 'e' || c == 'E')
    | _ => false
  let flags := (arguments.takeWhile isFlag).flatten
  let words := arguments.dropWhile isFlag
  let (t, isOver) := if flags.contains 'e' then echoWords words
    else (Text.joined [' '] words, false)
  Action.put (t ++ if flags.contains 'n' || isOver then [] else ['\n'])
  return 0

def printf : Program := fun arguments => do
  match arguments with
  | [] => missing "printf" "operand"
  | format :: rest =>
    let p := printing format rest
    Action.put p.written
    for t in p.warnings do Action.complain ("printf: ".toList ++ t)
    return min p.status 1

def test : Program := fun arguments => do
  match condition (← get) arguments with
  | .ok b => return statusOf b
  | .error fault =>
    Action.complain ("test: ".toList ++ fault.text)
    return 2

def pwd : Program := fun _ => do
  Action.put ('/' :: Text.joined ['/'] ((← get).tree.here.map Bytes.ofText) ++ ['\n'])
  return 0

def mktemp : Program := fun arguments => do
  let s ← get
  let path := "/tmp/tmp.".toList ++ Text.ofNat (1000000000 + s.steps)
  let fault ← Action.inTree (fun tree => if arguments.contains ['-', 'd']
    then tree.makeFolder (Bytes.toText path) else tree.writeFile (Bytes.toText path) (.text []))
  match fault with
  | none => Action.put (path ++ ['\n']); return 0
  | some fault =>
    Action.complain ("mktemp: failed to create file".toList ++ because fault)
    return 1

/-- The same line again and again, more often than a reader will ask for. -/
def yes : Program := fun arguments => do
  let line := if arguments.isEmpty then ['y'] else Text.joined [' '] arguments
  Action.put (List.replicate 10000 (line ++ ['\n'])).flatten
  return 0

def sleep : Program := fun arguments => do
  let isTime (t : Bytes) : Bool :=
    let digits := if t.getLast?.any "smhd".toList.contains then t.dropLast else t
    !digits.isEmpty && digits.all (fun c => Text.isDigit c || c == '.')
  match arguments, arguments.find? (fun t => !isTime t) with
  | [], _ => missing "sleep" "operand"
  | _, some t => misused "sleep" ("invalid time interval '".toList ++ t ++ ['\x27'])
  | _, none => return 0

/-! ## The table -/

def succeed : Program := fun _ => return 0

def fail : Program := fun _ => return 1

def which (names : List String) : Program := fun arguments => do
  let mut ok := true
  for name in arguments.filter (· != ['-', 'a']) do
    if names.any (·.toList == name) then Action.put ("/usr/bin/".toList ++ name ++ ['\n'])
    else ok := false
  return statusOf ok

def tableOf (start : Starter) : List (String × Program) := [
  ("[", fun arguments => test arguments.dropLast), ("basename", basename), ("cat", cat),
  ("chmod", chmod), ("cmp", cmp), ("comm", comm), ("cp", cp), ("cut", cut),
  ("dirname", dirname), ("echo", echo), ("egrep", grepWith (some 'E')), ("env", env start),
  ("expr", expr), ("false", fail), ("fgrep", grepWith (some 'F')), ("find", find start),
  ("fold", fold), ("grep", grepWith none), ("head", head), ("ln", ln), ("ls", ls),
  ("mkdir", mkdir), ("mktemp", mktemp), ("mv", mv), ("nice", wrapper start withoutPriority), ("nl", nl),
  ("nohup", wrapper start id), ("paste", paste), ("printenv", printenv), ("printf", printf),
  ("pwd", pwd), ("rev", reversedCharacters), ("rm", rm), ("rmdir", rmdir), ("sed", sed),
  ("seq", seq), ("sleep", sleep), ("sort", sort), ("sync", succeed), ("tac", reversedLines),
  ("tail", tail), ("tee", tee), ("test", test), ("timeout", wrapper start withoutLimit),
  ("touch", touch), ("tr", tr), ("true", succeed), ("uniq", uniq), ("wc", wc),
  ("xargs", xargs start), ("yes", yes)]

def table (start : Starter) : List (String × Program) :=
  let programs := tableOf start
  ("which", which ("sh" :: "dash" :: "which" :: programs.map Prod.fst)) :: programs

end ParameterManual.Shell.Program
