import ParameterManual.Shell.Arithmetic
import ParameterManual.Shell.Pattern
import ParameterManual.Shell.Script

/-!
# Sessions

The state of a running shell. Descriptors lead to open files, which several
descriptors can share with one position. A pipe is an open file whose text is
kept until it is read. What is written to no file is lost.
-/

set_option autoImplicit false

namespace ParameterManual.Shell

inductive Stream where
  | nowhere
  | pipe (waiting : Bytes)
  | file (place : List Text)
  deriving DecidableEq, Repr

structure OpenFile where
  stream : Stream
  position : Nat
  appends : Bool
  deriving DecidableEq, Repr

structure Variable where
  value : Option Bytes
  isExported : Bool
  isReadOnly : Bool
  deriving DecidableEq, Repr

structure Session where
  tree : FileTree
  /-- The places of files that were made executable. -/
  programs : List (List Text)
  files : Array OpenFile
  descriptors : List (Nat × Nat)
  bindings : TextMap Variable
  functions : TextMap Command
  name : Bytes
  arguments : List Bytes
  /-- The letters of the options that are set. -/
  options : List Char
  /-- The commands for signals, where zero stands for the end. -/
  traps : List (Nat × Bytes)
  status : Nat
  line : Nat
  /-- The name of the command that complains. -/
  speaker : Option Bytes
  /-- The status of the last command whose output was put into a word. -/
  substituted : Nat
  /-- The number that stands for the shell's own process. -/
  process : Nat
  /-- The status of the last command in the background. -/
  job : Option Nat
  /-- The signal that ended the last program, if one did. -/
  stopped : Option Nat
  /-- Files that the later stages of a pipeline open while a program starts. -/
  awaited : List (Direction × Bytes)
  /-- The number of the next argument to be looked at for options, and where
  in it the next letter stands. -/
  optionPlace : Nat × Option Nat
  loops : Nat
  /-- Variables to put back when a function returns, innermost first. -/
  scopes : List (List (Text × Option Variable))
  /-- How many commands may still be run. -/
  steps : Nat

inductive Exit where
  | leave (loops : Nat)
  | again (loops : Nat)
  | return_
  | exit
  /-- An error, after which a shell does not go on. -/
  | fault
  | signal (number : Nat)
  deriving DecidableEq, Repr

abbrev Action := EStateM Exit Session

instance {α : Type} [Inhabited α] : Inhabited (Action α) := ⟨pure default⟩

def reason : FileFault → Bytes
  | .notFound => "No such file or directory".toList
  | .alreadyExists => "File exists".toList
  | .notDirectory => "Not a directory".toList
  | .isDirectory => "Is a directory".toList
  | fault => fault.message

namespace Session

def openFile? (s : Session) (descriptor : Nat) : Option (Nat × OpenFile) := do
  let i ← s.descriptors.lookup descriptor
  some (i, ← s.files[i]?)

def isOpen (s : Session) (descriptor : Nat) : Bool := (s.openFile? descriptor).isSome

def bytesAt (s : Session) (place : List Text) : Bytes :=
  match s.tree.root.get? place with
  | some (.file content) => Bytes.ofContent content
  | _ => []

def setBytes (s : Session) (place : List Text) (b : Bytes) : Session :=
  match s.tree.root.get? place with
  | some (.file _) =>
    { s with tree := { s.tree with
        root := Entry.put (.file (Bytes.toContent b)) place s.tree.root } }
  | _ => s

/-- Contents with new ones from a position on; a gap is filled with zeros. -/
def overwrite (old : Bytes) (position : Nat) (new : Bytes) : Bytes :=
  old.take position ++ List.replicate (position - old.length) '\x00' ++ new ++
    old.drop (position + new.length)

def setFile (s : Session) (i : Nat) (f : OpenFile) : Session :=
  { s with files := s.files.setIfInBounds i f }

def write (s : Session) (descriptor : Nat) (b : Bytes) : Session :=
  match s.openFile? descriptor with
  | none => s
  | some (i, f) =>
    match f.stream with
    | .nowhere => s
    | .pipe waiting => s.setFile i { f with stream := .pipe (waiting ++ b) }
    | .file place =>
      let old := s.bytesAt place
      let position := if f.appends then old.length else f.position
      (s.setBytes place (overwrite old position b)).setFile i
        { f with position := position + b.length }

def waiting (s : Session) (descriptor : Nat) : Bytes :=
  match s.openFile? descriptor with
  | none => []
  | some (_, f) =>
    match f.stream with
    | .nowhere => []
    | .pipe waiting => waiting
    | .file place => (s.bytesAt place).drop f.position

def isOutput (s : Session) (path : Bytes) : Bool :=
  match s.openFile? 1, s.tree.place (Bytes.toText path) with
  | some (_, ⟨.file place, _, _⟩), .ok other => place == other
  | _, _ => false

def pass (s : Session) (descriptor n : Nat) : Session :=
  match s.openFile? descriptor with
  | none => s
  | some (i, f) =>
    match f.stream with
    | .nowhere => s
    | .pipe waiting => s.setFile i { f with stream := .pipe (waiting.drop n) }
    | .file _ => s.setFile i { f with position := f.position + n }

def addFile (s : Session) (f : OpenFile) : Nat × Session :=
  (s.files.size, { s with files := s.files.push f })

def close (s : Session) (descriptor : Nat) : Session :=
  { s with descriptors := s.descriptors.filter (fun d => d.1 != descriptor) }

def connect (s : Session) (descriptor i : Nat) : Session :=
  { s with descriptors := (descriptor, i) :: (s.close descriptor).descriptors }

def hasOption (s : Session) (letter : Char) : Bool := s.options.contains letter

def valueOf? (s : Session) (name : Text) : Option Bytes :=
  (TextMap.find? name s.bindings).bind Variable.value

def jobNumber (s : Session) : Nat := s.process + 1

def separators (s : Session) : Bytes := (s.valueOf? "IFS".toList).getD [' ', '\t', '\n']

end Session

def numberOf (t : Text) : Nat := t.foldl (fun n c => 10 * n + (c.toNat - '0'.toNat)) 0

namespace Action

def put (b : Bytes) : Action Unit := modify (·.write 1 b)

def complain (b : Bytes) : Action Unit := modify (·.write 2 (b ++ ['\n']))

def warn (b : Bytes) : Action Unit := do
  let s ← get
  let speaker := match s.speaker with
    | some name => name ++ ": ".toList
    | none => []
  complain (s.name ++ ": ".toList ++ Text.ofNat s.line ++ ": ".toList ++ speaker ++ b)

def fail {α : Type} (b : Bytes) : Action α := do
  warn b
  modify (fun s => { s with status := 2 })
  throw .fault

def inTree (change : FileTree → Except FileFault FileTree) : Action (Option FileFault) := do
  let s ← get
  match change s.tree with
  | .ok tree => set { s with tree }; return none
  | .error fault => return some fault

def readAll : Action Bytes := do
  let s ← get
  let b := s.waiting 0
  set (s.pass 0 b.length)
  return b

def readLine : Action Bytes := do
  let s ← get
  let b := s.waiting 0
  let line := b.takeWhile (· != '\n')
  let line := if line.length < b.length then line ++ ['\n'] else line
  set (s.pass 0 line.length)
  return line

def setVariable (name : Text) (value : Bytes) : Action Unit := do
  let s ← get
  let old := (TextMap.find? name s.bindings).getD ⟨none, s.hasOption 'a', false⟩
  if old.isReadOnly then fail (name ++ ": is read only".toList)
  set { s with bindings := TextMap.insert name { old with value := some value } s.bindings }
  if name = "OPTIND".toList then
    modify (fun s => { s with optionPlace := (max 1 (numberOf value), none) })

def isSpecialFile (path : Bytes) : Option Nat :=
  if path = "/dev/stdin".toList then some 0
  else if path = "/dev/stdout".toList then some 1
  else if path = "/dev/stderr".toList then some 2
  else none

def readFile (path : Bytes) : Action (Except FileFault Bytes) := do
  if path = ['-'] ∨ path = "/dev/stdin".toList then return .ok (← readAll)
  else if path = "/dev/null".toList then return .ok []
  else
    match (← get).tree.find (Bytes.toText path) with
    | .ok (.file content) => return .ok (Bytes.ofContent content)
    | .ok (.folder _) => return .error .isDirectory
    | .error fault => return .error fault

def openPath (direction : Direction) (path : Bytes) : Action (Except FileFault Nat) := do
  let s ← get
  let name := Bytes.toText path
  let add (stream : Stream) (appends : Bool) : Action (Except FileFault Nat) := do
    let (i, s) := (← get).addFile ⟨stream, 0, appends⟩
    set s
    return .ok i
  let existing : Action (Except FileFault Nat) := do
    match (← get).tree.place name with
    | .ok place => add (.file place) (direction == .append)
    | .error fault => return .error fault
  if path = "/dev/null".toList then add .nowhere false
  else if let some i := (isSpecialFile path).bind (fun d => s.descriptors.lookup d) then return .ok i
  else
    match s.tree.find name, direction with
    | .ok (.file _), .input => existing
    | .ok (.folder _), .input => add .nowhere false
    | .error fault, .input => return .error fault
    | .ok (.file _), .append => existing
    | .ok (.file _), .both => existing
    | .ok (.file _), .output =>
      if s.hasOption 'C' then return .error .alreadyExists
      match ← inTree (·.writeFile name (.text [])) with
      | none => existing
      | some fault => return .error fault
    | _, _ =>
      match ← inTree (·.writeFile name (.text [])) with
      | none => existing
      | some fault => return .error fault

/-- Opens the files that later stages of a pipeline wait to write to. -/
def openAwaited : Action Unit := do
  let s ← get
  set { s with awaited := [] }
  for (direction, path) in s.awaited do
    if let .error _ ← openPath direction path then return

end Action

end ParameterManual.Shell
