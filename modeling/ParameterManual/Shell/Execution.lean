import ParameterManual.Shell.Builtin
import ParameterManual.Shell.Program.Table

/-!
# Running scripts

A simple command is, in this order, a special command of the shell, a
function, another command of the shell, or a program. Running takes fuel for
how deep commands stand in each other, and the session counts the commands
that are run, so that no script runs forever.
-/

set_option autoImplicit false

namespace ParameterManual.Shell

/-! ## Programs and shells -/

def standardPath : String := "/usr/local/sbin:/usr/local/bin:/usr/sbin:/usr/bin:/sbin:/bin"

/-- Variables of a new session: those that are handed on, and the standard ones. -/
def freshVariables (bindings : TextMap Variable) (here : List Text) : TextMap Variable :=
  let set (name value : String) (m : TextMap Variable) : TextMap Variable :=
    TextMap.insert name.toList ⟨some value.toList, false, false⟩ m
  let standard := set "IFS" " \t\n" (set "OPTIND" "1" (set "PS1" "# " (set "PS2" "> "
    (set "PS4" "+ " []))))
  let standard := set "PATH" standardPath standard
  let standard := TextMap.insert "PWD".toList ⟨some (Builtin.pathOf here), true, false⟩ standard
  TextMap.insertAll (bindings.filter (·.2.isExported)) standard

def newShell (run : Runner) (options : List Char) (name : Bytes) (arguments : List Bytes)
    (t : Bytes) : Action Nat := do
  let outer ← get
  let left ← attempt (isolated run (do
    modify (fun s => { s with
      bindings := freshVariables s.bindings s.tree.here
      functions := [], name, arguments, options, traps := [], loops := 0, scopes := []
      line := 1, speaker := none, process := s.process + 2, job := none
      optionPlace := (1, none) })
    runText run t))
  match left with
  | some (.signal n) =>
    modify (fun s => { outer with
      tree := { s.tree with here := outer.tree.here }
      programs := s.programs, files := s.files, steps := s.steps, stopped := some n })
    return 128 + n
  | _ => return (← get).status

def shellOptions : List Bytes → List Char × List Bytes
  | ['-', '-'] :: rest => ([], rest)
  | ['-'] :: rest => ([], rest)
  | ['-', 'o'] :: name :: rest =>
    let letter := (Builtin.optionNames.find? (·.1.toList == name)).map Prod.snd
    let (letters, rest) := shellOptions rest
    (letter.toList ++ letters, rest)
  | ('-' :: '-' :: _) :: rest => shellOptions rest
  | ('-' :: letters) :: rest =>
    let (more, rest) := shellOptions rest
    (letters ++ more, rest)
  | ('+' :: _) :: rest => shellOptions rest
  | rest => ([], rest)

def shellProgram (run : Runner) : (options : List Char) → List Bytes → Action Nat
  | options, arguments => do
    let (letters, rest) := shellOptions arguments
    let options := options ++ letters.filter (fun c => c != 'c' && c != 's')
    if letters.contains 'c' then
      match rest with
      | [] => return 2
      | t :: [] => newShell run options "sh".toList [] t
      | t :: name :: rest => newShell run options name rest t
    else if letters.contains 's' then
      newShell run options "sh".toList rest (← Action.readAll)
    else
      match rest with
      | [] => newShell run options "sh".toList [] (← Action.readAll)
      | path :: rest =>
        match ← Action.readFile path with
        | .ok b => newShell run options path rest b
        | .error _ =>
          Action.warn ("cannot open ".toList ++ path ++ ": No such file".toList)
          return 2

inductive Located where
  | program (p : Program)
  | shell
  | script (path : Bytes)
  | denied
  | absent

def shellNames : List String := ["sh", "dash", "bash"]

def locatePath (starter : Program.Starter) (s : Session) (path : Bytes) : Located :=
  let standard := ["/bin/", "/usr/bin/"].findSome? (fun lead => Text.afterLead? lead.toList path)
  let program := standard.bind (fun name =>
    if shellNames.any (·.toList == name) then some Located.shell
    else ((Program.table starter).find? (·.1.toList == name)).map (fun p => .program p.2))
  match program with
  | some p => p
  | none =>
    match s.tree.place (Bytes.toText path) with
    | .error _ => .absent
    | .ok place =>
      if isFile s.tree path && s.programs.contains place then .script path else .denied

/-- What a name or a path starts; names are searched for in the folders of a
variable. -/
def locate (starter : Program.Starter) (s : Session) (name : Bytes) : Located :=
  if name.contains '/' then locatePath starter s name
  else if name.isEmpty then .denied
  else
    let folders := ((s.valueOf? "PATH".toList).getD []).splitOn ':'
    let found := folders.filterMap (fun folder =>
      match locatePath starter s ((if folder.isEmpty then ['.'] else folder) ++ '/' :: name) with
      | .absent => none
      | .denied => none
      | found => some found)
    found.head?.getD .absent

/-- Starts a program by its words; a complaint is made in the given form. -/
def start (run : Runner) (complain : Bytes → String → Action Unit) : (fuel : Nat) → List Bytes →
    Action Nat
  | 0, _ => return 127
  | _, [] => return 0
  | fuel + 1, name :: arguments => do
    let quote : Bytes := if name = "xargs".toList then [] else ['\x27']
    let starter := start run (fun inner reason => Action.complain (name ++ ": ".toList ++ quote ++
      inner ++ quote ++ ": ".toList ++
        if reason = "not found" then "No such file or directory".toList else reason.toList)) fuel
    let s ← get
    match locate starter s name with
    | .program p => p arguments
    | .shell => shellProgram run [] arguments
    | .script path =>
      match ← Action.readFile path with
      | .ok b => newShell run [] path arguments b
      | .error _ => return 127
    | .denied =>
      complain name "Permission denied"
      return if name.isEmpty then 127 else 126
    | .absent => complain name "not found"; return 127

def startHere (run : Runner) (words : List Bytes) : Action Nat := do
  Action.openAwaited
  modify (fun s => { s with stopped := none })
  start run (fun name t => Action.warn (name ++ ": ".toList ++ t.toList)) 100 words

/-! ## Simple commands -/

/-- Words of a command. Assignments that are arguments of some commands are
not split. -/
def expandWords (run : Runner) (words : List Word) : Action (List Bytes) := do
  let declares := match words with
    | w :: _ => ["export", "readonly", "local"].any (fun n => Word.plain? w == some n.toList)
    | [] => false
  let lists ← words.mapM (fun w => do
    match if declares then Word.assignment? w else none with
    | some (name, value) => return [name ++ '=' :: (← expandValue (capture run) value)]
    | none => expand (capture run) w)
  return lists.flatten

/-- Sets variables in turn; gives the assignments as they were made. -/
def assignAll (run : Runner) (assignments : List (Text × Word)) : Action (List Bytes) :=
  assignments.mapM (fun (name, w) => do
    let value ← expandValue (capture run) w
    Action.setVariable name value
    return name ++ '=' :: value)

/-- Writes a command to standard error before it is run, if the option for
that is set. Redirections of the command do not count. -/
def trace (descriptors : List (Nat × Nat)) (words : List Bytes) : Action Unit := do
  let s ← get
  if s.hasOption 'x' then
    set { s with descriptors }
    Action.complain ((s.valueOf? "PS4".toList).getD [] ++ Text.joined [' '] words)
    modify (fun after => { after with descriptors := s.descriptors })

def exportAll (names : List Text) : Action Unit :=
  modify (fun s => { s with
    bindings := s.bindings.map (fun v =>
      if names.contains v.1 then (v.1, { v.2 with isExported := true }) else v) })

def assigning (run : Runner) (assignments : List (Text × Word))
    (body : (assigned : List Bytes) → Action Unit) : Action Unit := do
  let before := (← get).bindings
  let saved := assignments.map (fun a => (a.1, TextMap.find? a.1 before))
  let assigned ← assignAll run assignments
  exportAll (assignments.map Prod.fst)
  if assignments.isEmpty then body assigned else ensuring (body assigned) (restore saved)

def speaking (name : Bytes) (body : Action Nat) : Action Unit := do
  modify (fun s => { s with speaker := some name })
  ensuring (do setStatus (← body)) (modify (fun s => { s with speaker := none }))

def forgiving (name : Bytes) (body : Action Nat) : Action Unit := do
  match ← attempt (speaking name body) with
  | none => pure ()
  | some .fault => pure ()
  | some e => throw e

def named {α : Type} (table : List (String × α)) (name : Bytes) : Option α :=
  (table.find? (·.1.toList == name)).map Prod.snd

def keywords : List String := [
  "!", "case", "do", "done", "elif", "else", "esac", "fi", "for", "if", "in", "then", "until",
  "while", "\x7b", "\x7d"]

def describe (run : Runner) (isShort : Bool) (name : Bytes) : Action Bool := do
  let s ← get
  let say (long : String) : Action Bool := do
    Action.put (if isShort then name ++ ['\n'] else name ++ (" is " ++ long ++ "\n").toList)
    return true
  if keywords.any (·.toList == name) then say "a shell keyword"
  else if (named (Builtin.specials run) name).isSome || name = "exec".toList then
    say "a special shell builtin"
  else if (TextMap.find? name s.functions).isSome then say "a shell function"
  else if (named (Builtin.regulars run) name).isSome then say "a shell builtin"
  else
    match locate (fun _ => return 0) s name with
    | .absent =>
      if !isShort then Action.put (name ++ ": not found\n".toList)
      return false
    | .denied =>
      if !isShort then Action.put (name ++ ": not found\n".toList)
      return false
    | _ =>
      let path := if name.contains '/' then name else "/usr/bin/".toList ++ name
      Action.put (if isShort then path ++ ['\n'] else name ++ " is ".toList ++ path ++ ['\n'])
      return true

def describeAll (run : Runner) (isShort : Bool) (names : List Bytes) : Action Nat := do
  let mut ok := true
  for name in names do
    if !(← describe run isShort name) then ok := false
  return if ok then 0 else 127

structure Simple where
  assignments : List (Text × Word)
  redirects : List Redirect
  name : Bytes
  arguments : List Bytes

def Simple.words (c : Simple) : List Bytes := c.name :: c.arguments

def Simple.keeping (run : Runner) (c : Simple) (isFatal : Bool) (body : Action Unit) :
    Action Unit := do
  let descriptors := (← get).descriptors
  redirecting run c.redirects isFatal (do
    let assigned ← assignAll run c.assignments
    trace descriptors (assigned ++ c.words)
    body)

def Simple.passing (run : Runner) (c : Simple) (body : Action Unit) : Action Unit := do
  let descriptors := (← get).descriptors
  redirecting run c.redirects false (assigning run c.assignments (fun assigned => do
    trace descriptors (assigned ++ c.words)
    body))

def Simple.replaceShell (run : Runner) (c : Simple) : Action Unit := do
  let descriptors := (← get).descriptors
  if !(← redirectAll run c.redirects) then throw .exit
  let assigned ← assignAll run c.assignments
  trace descriptors (assigned ++ c.words)
  match c.arguments with
  | [] => setStatus 0
  | _ =>
    exportAll (c.assignments.map Prod.fst)
    modify (fun s => { s with speaker := some "exec".toList })
    let n ← startHere run c.arguments
    modify (fun s => { s with status := n, traps := s.traps.filter (·.1 != 0) })
    match (← get).stopped with
    | some n => throw (.signal n)
    | none => throw .exit

/-- Runs a command by its name. Functions can be passed over, and special
commands are no different then. -/
def Simple.dispatch (run : Runner) (isTested passesOver : Bool) (c : Simple) (name : Bytes)
    (arguments : List Bytes) : Action Unit := do
  let inner : Runner := fun tested => run (tested || isTested)
  match named (Builtin.specials inner) name with
  | some p =>
    if passesOver then c.passing run (forgiving name (p arguments))
    else c.keeping run true (speaking name (p arguments))
  | none =>
    let s ← get
    match if passesOver then none else TextMap.find? name s.functions with
    | some body => c.passing run (callFunction run isTested body arguments)
    | none =>
      c.passing run (do
        match named (Builtin.regulars inner) name with
        | some p => forgiving name (p arguments)
        | none => setStatus (← startHere run (name :: arguments)))

def Simple.run (run : Runner) (isTested : Bool) (c : Simple) : Action Unit := do
  if c.name = "exec".toList then c.replaceShell run
  else if c.name = "type".toList then
    c.passing run (do setStatus (← describeAll run false c.arguments))
  else if c.name = "command".toList then
    match c.arguments with
    | [] => setStatus 0
    | ['-', 'v'] :: names =>
      c.passing run (do setStatus (← describeAll run true (names.take 1)))
    | ['-', 'V'] :: names =>
      c.passing run (do setStatus (← describeAll run false (names.take 1)))
    | ['-', 'p'] :: name :: arguments => c.dispatch run isTested true name arguments
    | name :: arguments => c.dispatch run isTested true name arguments
  else c.dispatch run isTested false c.name c.arguments

def runSimple (run : Runner) (isTested : Bool) (line : Nat) (assignments : List (Text × Word))
    (words : List Word) (redirects : List Redirect) : Action Unit := do
  modify (fun s => { s with line, substituted := 0, speaker := none })
  match ← expandWords run words with
  | name :: arguments => Simple.run run isTested ⟨assignments, redirects, name, arguments⟩
  | [] =>
    let descriptors := (← get).descriptors
    redirecting run redirects false (do
      let assigned ← assignAll run assignments
      trace descriptors assigned
      setStatus (← get).substituted)

/-! ## Commands -/

/-- Ends the shell if a command has failed, the option for that is set, and
nothing looks at the status. -/
def checked (isTested : Bool) (body : Action Unit) : Action Unit := do
  body
  let s ← get
  if !isTested && s.hasOption 'e' && s.status != 0 then throw .exit

/-- The files that a stage of a pipeline opens before it does anything else. -/
def outputsOf (stage : Command) : List (Direction × Bytes) :=
  let redirects := match stage with
    | .simple _ _ _ redirects => redirects
    | .redirected _ redirects => redirects
    | _ => []
  redirects.filterMap (fun
    | .mk _ direction target =>
      if direction = .document ∨ direction = .duplicate then none
      else (Word.plain? target).map (fun path => (direction, Bytes.ofText path)))

/-- Runs the stages of a pipeline, each in an environment of its own; the
first reads from an open file if one is given. -/
def runStages (run : Runner) (isTested : Bool) : (source : Option Nat) → List Command → Action Unit
  | _, [] => return
  | source, stage :: rest => do
    let connectSource : Action Unit := match source with
      | some i => modify (·.connect 0 i)
      | none => pure ()
    if rest.isEmpty then
      isolated run (do
        connectSource
        run isTested stage)
    else
      let (i, s) := (← get).addFile ⟨.pipe [], 0, false⟩
      set s
      isolated run (do
        connectSource
        modify (fun s => { s.connect 1 i with
          awaited := if s.hasOption 'C' then [] else rest.flatMap outputsOf })
        run isTested stage)
      runStages run isTested (some i) rest

def branchFor (run : Runner) (t : Bytes) : List (List Word × Command) → Action (Option Command)
  | [] => return none
  | (patterns, body) :: rest => do
    for w in patterns do
      if (← expandPattern (capture run) w).matches_ t then return some body
    branchFor run t rest

def inBackground (run : Runner) (command : Command) : Action Unit := do
  let (i, s) := (← get).addFile ⟨.nowhere, 0, false⟩
  set s
  isolated run (do
    modify (·.connect 0 i)
    run false command)
  modify (fun s => { s with job := some s.status, status := 0 })

def countStep : Action Unit := do
  let s ← get
  match s.steps with
  | 0 => set { s with status := 2 }; throw .exit
  | n + 1 => set { s with steps := n }

/-- One turn of a loop, if its condition is met: whether the loop goes on, and
the status of the loop so far. -/
def turn (run : Runner) (isTested isUntil : Bool) (condition body : Command) (status : Nat) :
    Action (Bool × Nat) := do
  if !(← bodyOnce (run true condition)) then return (false, status)
  if ((← get).status == 0) == isUntil then return (false, status)
  let goesOn ← bodyOnce (run isTested body)
  return (goesOn, (← get).status)

def turnsOver (run : Runner) (isTested : Bool) (name : Text) (body : Command) :
    List Bytes → Action Unit
  | [] => return
  | value :: rest => do
    Action.setVariable name value
    if ← bodyOnce (run isTested body) then turnsOver run isTested name body rest

def runWith (run : Runner) (isTested : Bool) : Command → Action Unit
  | .nothing => setStatus 0
  | .simple line assignments words redirects =>
    checked isTested (runSimple run isTested line assignments words redirects)
  | .pipeline stages => checked isTested (runStages run isTested none stages)
  | .negation command => do
    run true command
    setStatus (if (← get).status = 0 then 1 else 0)
  | .both first second => do
    run true first
    if (← get).status = 0 then run isTested second
  | .either first second => do
    run true first
    if (← get).status != 0 then run isTested second
  | .sequence first second => do
    run isTested first
    run isTested second
  | .background command => inBackground run command
  | .redirected command redirects => do
    let isFatal := !isTested && (← get).hasOption 'e'
    redirecting run redirects isFatal (run isTested command)
  | .subshell command => checked isTested (isolated run (run isTested command))
  | .choose condition yes no => do
    run true condition
    if (← get).status = 0 then run isTested yes else run isTested no
  | .loop isUntil condition body => do
    let steps := (← get).steps
    inLoop (repeatFrom (turn run isTested isUntil condition body) (steps + 1) 0)
  | .each name words body => do
    let values ← match words with
      | some words => expandWords run words
      | none => pure (← get).arguments
    if values.isEmpty then setStatus 0
    inLoop (turnsOver run isTested name body values)
  | .select word branches => do
    let t ← expandText (capture run) word
    match ← branchFor run t branches with
    | some body => run isTested body
    | none => setStatus 0
  | .function name body => do
    modify (fun s => { s with functions := TextMap.insert name body s.functions })
    setStatus 0

def runCommand : (fuel : Nat) → Runner
  | 0 => fun _ _ => do
    setStatus 2
    throw .exit
  | fuel + 1 => fun isTested command => do
    countStep
    if !(← get).hasOption 'n' then runWith (runCommand fuel) isTested command

/-- How deep commands may stand in each other, functions that call themselves
included. -/
def deepestNesting : Nat := 12000

def mostSteps : Nat := 100000

/-! ## Whole scripts -/

def environment : TextMap Variable := TextMap.ofEntries [
  ("HOME".toList, ⟨some "/root".toList, true, false⟩),
  ("PATH".toList, ⟨some standardPath.toList, true, false⟩)]

/-- A session in a tree whose input is empty and whose output is lost. -/
def Session.ofTree (tree : FileTree) : Session := {
  tree
  programs := []
  files := #[⟨.pipe [], 0, false⟩, ⟨.nowhere, 0, false⟩]
  descriptors := [(0, 0), (1, 1), (2, 1)]
  bindings := freshVariables environment tree.here
  functions := []
  name := "sh".toList
  arguments := []
  options := []
  traps := []
  status := 0
  line := 1
  speaker := none
  substituted := 0
  process := 2
  job := none
  stopped := none
  awaited := []
  optionPlace := (1, none)
  loops := 0
  scopes := []
  steps := mostSteps }

def wholeRun (commandLine : Bytes) : Action Unit := do
  let run := runCommand deepestNesting
  match ← attempt (runText run commandLine) with
  | some (.signal n) => throw (.signal n)
  | _ => atEnd run

def execute (commandLine : Text) (tree : FileTree) : Run.Ending × FileTree :=
  match (wholeRun (Bytes.ofText commandLine)).run (Session.ofTree tree) with
  | .ok _ s => (.exit s.status, { s.tree with here := tree.here })
  | .error (.signal n) s => (.signal n, { s.tree with here := tree.here })
  | .error _ s => (.exit s.status, { s.tree with here := tree.here })

end ParameterManual.Shell
