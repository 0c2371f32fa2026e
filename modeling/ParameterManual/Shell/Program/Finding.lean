import ParameterManual.Shell.Program.Starter
import ParameterManual.Shell.Program.Files

/-!
# Finding files

A condition is decided for each path below some starts, and acts on it.
-/

set_option autoImplicit false

namespace ParameterManual.Shell.Program

inductive Finding where
  | all
  | name (p : Pattern) (ignoresCase : Bool)
  | path (p : Pattern)
  | kind (c : Char)
  | empty
  | print (mark : Char)
  | delete
  | start (command : List Bytes)
  | together (command : List Bytes)
  | prune
  | not_ (f : Finding)
  | both (a b : Finding)
  | either (a b : Finding)
  deriving Inhabited

structure Reach where
  least : Nat
  most : Nat
  deepFirst : Bool

abbrev FindingParser := StateT (List Bytes × Reach) Option

def unmarked (t : Bytes) : Pattern := Pattern.ofMarked (t.map (fun c => (c, false)))

def argument : FindingParser Bytes := do
  match ← get with
  | (a :: rest, reach) => set (rest, reach); return a
  | ([], _) => failure

def setReach (change : Reach → Reach) : FindingParser Finding := do
  modify (fun s => (s.1, change s.2))
  return .all

/-- The words of a command up to its end, and whether it takes all paths
together. -/
def commandWords : List Bytes → Option (List Bytes × Bool × List Bytes)
  | [] => none
  | [';'] :: rest => some ([], false, rest)
  | ['\x7b', '\x7d'] :: ['+'] :: rest => some ([], true, rest)
  | a :: rest => (commandWords rest).map (fun r => (a :: r.1, r.2))

def simpleFinding (t : Bytes) : FindingParser Finding := do
  let is (s : String) : Bool := t == s.toList
  if is "-name" then return .name (unmarked (← argument)) false
  else if is "-iname" then return .name (unmarked ((← argument).map Char.toLower)) true
  else if is "-path" || is "-wholename" then return .path (unmarked (← argument))
  else if is "-type" then return .kind ((← argument).head?.getD 'f')
  else if is "-empty" then return .empty
  else if is "-print" then return .print '\n'
  else if is "-print0" then return .print '\x00'
  else if is "-true" then return .all
  else if is "-false" then return .not_ .all
  else if is "-prune" then return .prune
  else if is "-delete" then
    let _ ← setReach ({ · with deepFirst := true })
    return .delete
  else if is "-depth" then setReach ({ · with deepFirst := true })
  else if is "-maxdepth" then
    let some n := natural? (← argument) | failure
    setReach ({ · with most := n })
  else if is "-mindepth" then
    let some n := natural? (← argument) | failure
    setReach ({ · with least := n })
  else if is "-exec" then
    let (words, reach) ← get
    let some (command, isTogether, rest) := commandWords words | failure
    set (rest, reach)
    return if isTogether then .together command else .start command
  else failure

def onePart (whole : FindingParser Finding) : (fuel : Nat) → FindingParser Finding
  | 0 => failure
  | fuel + 1 => do
    let t ← argument
    if t = ['!'] ∨ t = "-not".toList then return .not_ (← onePart whole fuel)
    else if t = ['('] then
      let f ← whole
      if (← argument) = [')'] then return f else failure
    else simpleFinding t

def allParts (whole : FindingParser Finding) : (fuel : Nat) → FindingParser Finding
  | 0 => failure
  | fuel + 1 => do
    let first ← onePart whole (fuel + 1)
    match ← get with
    | ([], _) => return first
    | (t :: rest, reach) =>
      if t = "-o".toList ∨ t = "-or".toList ∨ t = [')'] then return first
      if t = "-a".toList ∨ t = "-and".toList then set (rest, reach)
      return .both first (← allParts whole fuel)

def wholeFinding : (fuel : Nat) → FindingParser Finding
  | 0 => failure
  | fuel + 1 => do
    let first ← allParts (wholeFinding fuel) (fuel + 1)
    match ← get with
    | (t :: rest, reach) =>
      if t = "-o".toList ∨ t = "-or".toList then
        set (rest, reach)
        return .either first (← wholeFinding fuel)
      return first
    | _ => return first

/-- Whether a condition acts on paths itself, so that it is not printed. -/
def Finding.acts : Finding → Bool
  | .print _ => true
  | .delete => true
  | .start _ => true
  | .together _ => true
  | .not_ f => f.acts
  | .both a b => a.acts || b.acts
  | .either a b => a.acts || b.acts
  | _ => false

/-- Paths for commands that take them together, and folders that are not
looked into. -/
structure Gathered where
  commands : List (List Bytes × Bytes)
  pruned : List Bytes

def Finding.decide (start : Starter) (path : Bytes) : Finding → StateT Gathered Action Bool
  | .all => return true
  | .name p ignoresCase => do
    let name := baseName path []
    return p.matches_ (if ignoresCase then name.map Char.toLower else name)
  | .path p => return p.matches_ path
  | .kind c => do
    let tree := (← getThe Session).tree
    return if c = 'd' then isFolder tree path else c == 'f' && isFile tree path
  | .empty => do
    match (← getThe Session).tree.find (Bytes.toText path) with
    | .ok (.folder entries) => return entries.isEmpty
    | .ok (.file (.text t)) => return t.isEmpty
    | _ => return false
  | .print mark => do
    Action.put (path ++ [mark])
    return true
  | .delete => do
    let fault ← Action.inTree (removeAt · path)
    return fault.isNone
  | .start command => do
    let n ← start (command.map (Text.replaceAll "\x7b\x7d".toList path))
    return n == 0
  | .together command => do
    modify (fun g => { g with commands := g.commands ++ [(command, path)] })
    return true
  | .prune => do
    modify (fun g => { g with pruned := (path ++ ['/']) :: g.pruned })
    return true
  | .not_ f => return !(← f.decide start path)
  | .both a b => do
    if ← a.decide start path then b.decide start path else return false
  | .either a b => do
    if ← a.decide start path then return true else b.decide start path

def pathsBelow (tree : FileTree) (reach : Reach) : (fuel : Nat) → (depth : Nat) → Bytes →
    List Bytes
  | 0, _, _ => []
  | fuel + 1, depth, path =>
    let own := if reach.least ≤ depth then [path] else []
    let inner := if depth < reach.most && isFolder tree path then
        ((namesIn tree path).filter (fun n => n != ['.'] && n != ['.', '.'])).flatMap (fun n =>
          pathsBelow tree reach fuel (depth + 1) (below path n))
      else []
    if reach.deepFirst then inner ++ own else own ++ inner

def find (start : Starter) : Program := fun arguments => do
  let isStart (a : Bytes) : Bool := a.head? != some '-' && a != ['!'] && a != ['(']
  let starts := arguments.takeWhile isStart
  let words := arguments.dropWhile isStart
  let reading := if words.isEmpty then some (Finding.all, ([], Reach.mk 0 1000 false))
    else (wholeFinding (words.length + 1)).run (words, ⟨0, 1000, false⟩)
  match reading with
  | some (f, ([], reach)) =>
    let f := if f.acts then f else .both f (.print '\n')
    let mut gathered : Gathered := ⟨[], []⟩
    let mut ok := true
    for path in if starts.isEmpty then [['.']] else starts do
      let tree := (← get).tree
      match faultOf? tree path with
      | some fault =>
        ok := false
        Action.complain ("find: '".toList ++ path ++ '\x27' :: because fault)
      | none =>
        for p in pathsBelow tree reach 1000 0 path do
          if !gathered.pruned.any (fun folder => Text.startsWith folder p) then
            let (_, more) ← (f.decide start p).run gathered
            gathered := more
    for command in (gathered.commands.map Prod.fst).eraseDups do
      let n ← start (command ++ (gathered.commands.filter (·.1 == command)).map Prod.snd)
      if n != 0 then ok := false
    return statusOf ok
  | _ =>
    Action.complain "find: unknown predicate".toList
    return 1

end ParameterManual.Shell.Program
