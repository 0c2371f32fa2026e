import ParameterManual.Shell.Expansion
import ParameterManual.Shell.Grammar
import ParameterManual.Run.Ending

/-!
# Control

How parts of a session are kept apart: commands in an environment of their
own, redirections for the time of one command, loops and functions that catch
the exits meant for them.
-/

set_option autoImplicit false

namespace ParameterManual.Shell

def signalNumber? (name : Text) : Option Nat :=
  (Run.signalNames.find? (·.2.toList == name)).map Prod.fst

/-- Signals that a process takes no notice of, or that only hold it up. -/
def isHarmless (number : Nat) : Bool :=
  [0, 17, 18, 19, 20, 21, 22, 23, 28].contains number

abbrev Runner := (isTested : Bool) → Command → Action Unit

def setStatus (n : Nat) : Action Unit := modify (fun s => { s with status := n })

def attempt (body : Action Unit) : Action (Option Exit) :=
  tryCatch (do body; return none) (fun e => return some e)

def ensuring (body after : Action Unit) : Action Unit := do
  let left ← attempt body
  after
  match left with
  | some e => throw e
  | none => pure ()

def runScript (run : Runner) (script : Script) : Action Unit := do
  if script.lines.isEmpty then setStatus 0
  for line in script.lines do run false line
  if !script.isWhole then Action.fail "Syntax error".toList

def runText (run : Runner) (t : Bytes) : Action Unit := runScript run (Script.ofText t)

def atEnd (run : Runner) : Action Unit := do
  let s ← get
  match s.traps.lookup 0 with
  | none => pure ()
  | some t =>
    set { s with traps := s.traps.filter (·.1 != 0) }
    match ← attempt (runText run t) with
    | some (.signal n) => throw (.signal n)
    | none => setStatus s.status
    | some .return_ => setStatus s.status
    | some _ => pure ()

def isolated (run : Runner) (body : Action Unit) : Action Unit := do
  let outer ← get
  set { outer with traps := outer.traps.filter (fun t => t.1 != 0 && t.2.isEmpty) }
  let left ← attempt body
  match left with
  | some (.signal n) => throw (.signal n)
  | _ => pure ()
  atEnd run
  let inner ← get
  set { outer with
    tree := { inner.tree with here := outer.tree.here }
    programs := inner.programs
    files := inner.files
    steps := inner.steps
    status := inner.status }

def capture (run : Runner) (command : Command) : Action Bytes := do
  let (i, s) := (← get).addFile ⟨.pipe [], 0, false⟩
  set s
  isolated run (do
    modify (·.connect 1 i)
    run false command)
  let s ← get
  set { s with substituted := s.status }
  match (s.files[i]?).map OpenFile.stream with
  | some (.pipe t) => return t
  | _ => return []

/-! ## Redirections -/

def openFault (direction : Direction) (path : Bytes) (fault : FileFault) : Bytes :=
  let isNowhere := fault == .notFound || fault == .notDirectory
  if direction = .input then
    "cannot open ".toList ++ path ++ ": ".toList ++
      if isNowhere then "No such file".toList else reason fault
  else
    "cannot create ".toList ++ path ++ ": ".toList ++
      if isNowhere then "Directory nonexistent".toList else reason fault

/-- Connects a descriptor to the text of a document; gives whether that text
could be worked out. -/
def connectDocument (run : Runner) (descriptor : Nat) (text : Word) : Action Bool := do
  let left ← attempt (do
    let items ← itemsOf (capture run) deepest text
    let s ← get
    let (i, s) := s.addFile ⟨.pipe (textOfItems s items), 0, false⟩
    set (s.connect descriptor i))
  match left with
  | none => return true
  | some .fault => return false
  | some e => throw e

/-- What a descriptor is connected to: a path or another descriptor, or the text
of a document, which is worked out when it is read. -/
inductive Target where
  | name (t : Bytes)
  | text (w : Word)

def targetOf (run : Runner) : Redirect → Action (Nat × Direction × Target)
  | .mk descriptor direction w => do
    if direction = .document then return (descriptor, direction, .text w)
    return (descriptor, direction, .name (← expandText (capture run) w))

def redirect (run : Runner) (descriptor : Nat) (direction : Direction) (target : Target) :
    Action Bool := do
  let attach (i : Nat) : Action Bool := do
    modify (·.connect descriptor i)
    return true
  let refuse (complaint : Bytes) : Action Bool := do
    Action.warn complaint
    return false
  match target with
  | .text w => connectDocument run descriptor w
  | .name t =>
    if direction = .duplicate then
      if t = ['-'] then
        modify (·.close descriptor)
        return true
      else if isNumber t then
        match (← get).descriptors.lookup (numberOf t) with
        | some i => attach i
        | none => refuse (t ++ ": Bad file descriptor".toList)
      else Action.fail "Syntax error: Bad fd number".toList
    else
      match ← Action.openPath direction t with
      | .ok i => attach i
      | .error fault => refuse (openFault direction t fault)

/-- Works out all targets, then changes descriptors in order up to one that
fails. -/
def redirectAll (run : Runner) (redirects : List Redirect) : Action Bool := do
  let targets ← redirects.mapM (targetOf run)
  for (descriptor, direction, target) in targets do
    if !(← redirect run descriptor direction target) then
      setStatus 2
      return false
  return true

def redirecting (run : Runner) (redirects : List Redirect) (isFatal : Bool) (body : Action Unit) :
    Action Unit := do
  let before := (← get).descriptors
  ensuring (do
      if ← redirectAll run redirects then body
      else if isFatal then throw .exit)
    (modify (fun s => { s with descriptors := before }))

/-! ## Loops and functions -/

def bodyOnce (body : Action Unit) : Action Bool := do
  match ← attempt body with
  | none => return true
  | some (.leave n) => if n ≤ 1 then return false else throw (.leave (n - 1))
  | some (.again n) => if n ≤ 1 then return true else throw (.again (n - 1))
  | some e => throw e

/-- Takes turns until one says that it is the last. The status is that of the
last turn. -/
def repeatFrom (once : (status : Nat) → Action (Bool × Nat)) : (fuel status : Nat) → Action Unit
  | 0, status => setStatus status
  | fuel + 1, status => do
    let (goesOn, status) ← once status
    if goesOn then repeatFrom once fuel status else setStatus status

def inLoop (body : Action Unit) : Action Unit := do
  let before := (← get).loops
  modify (fun s => { s with loops := before + 1 })
  ensuring body (modify (fun s => { s with loops := before }))

def restore (saved : List (Text × Option Variable)) : Action Unit :=
  modify (fun s => { s with
    bindings := saved.foldl (fun m v =>
      match v.2 with
      | some old => TextMap.insert v.1 old m
      | none => m.filter (fun e => e.1 != v.1)) s.bindings })

def mostCalls : Nat := 1000

def callFunction (run : Runner) (isTested : Bool) (body : Command) (arguments : List Bytes) :
    Action Unit := do
  let before ← get
  if mostCalls ≤ before.scopes.length then
    Action.fail ("Maximum function recursion depth (".toList ++ Text.ofNat mostCalls ++
      ") reached".toList)
  set { before with
    arguments, loops := 0, scopes := [] :: before.scopes, optionPlace := (1, none) }
  ensuring (do
      match ← attempt (run isTested body) with
      | none => pure ()
      | some .return_ => pure ()
      | some e => throw e)
    (do
      restore ((← get).scopes.head?.getD [])
      modify (fun s => { s with
        arguments := before.arguments
        loops := before.loops
        scopes := before.scopes
        optionPlace := before.optionPlace }))

end ParameterManual.Shell
