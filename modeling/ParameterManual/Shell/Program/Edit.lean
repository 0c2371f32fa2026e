import ParameterManual.Shell.Program.Edit.Script

/-!
# Editing streams

A script of editing commands is run on each line of an input in turn.
-/

set_option autoImplicit false

namespace ParameterManual.Shell.Edit

structure Editor where
  input : List Bytes
  number : Nat
  space : Bytes
  hold : Bytes
  output : Bytes
  waiting : Bytes
  /-- For each command with a range that has begun, the line that ends it. -/
  ranges : List (Nat × Option Nat)
  isDone : Bool
  quits : Option Nat
  isQuiet : Bool
  files : List (Bytes × Bytes)
  sources : Bytes → Bytes

def holdsAt (e : Editor) : Address → Bool
  | .line n => e.number == n
  | .last => e.input.isEmpty
  | .step first step =>
    if step = 0 then e.number == first
    else first ≤ e.number && (e.number - first) % step == 0
  | .matching r ignoresCase => (Regex.search r ⟨e.space.toArray, ignoresCase⟩ 0).isSome
  | .after _ => false

def selects (e : Editor) (i : Nat) (s : Selection) : Bool × Editor :=
  match s.first, s.last with
  | none, _ => (!s.isNegated, e)
  | some a, none => (holdsAt e a != s.isNegated, e)
  | some a, some b =>
    let others := e.ranges.filter (·.1 != i)
    match e.ranges.lookup i with
    | some endLine =>
      let (inside, isOver) : Bool × Bool := match endLine, b with
        | some n, .matching _ _ => (true, n ≤ e.number)
        | some n, _ => (e.number ≤ n, n ≤ e.number)
        | none, _ => (true, holdsAt e b)
      (inside != s.isNegated, if isOver then { e with ranges := others } else e)
    | none =>
      if holdsAt e a then
        let (isOver, endLine) : Bool × Option Nat := match b with
          | .line n => (n ≤ e.number, some n)
          | .after n => (n == 0, some (e.number + n))
          | .step _ n => (n == 0 || e.number % n == 0,
              some (e.number + n - e.number % max n 1))
          | .last => (e.input.isEmpty, none)
          | .matching _ _ => (false, none)
        (!s.isNegated, if isOver then e else { e with ranges := (i, endLine) :: others })
      else (s.isNegated, e)

def cased (change : Option Bool) (t : Bytes) : Bytes :=
  match change with
  | some true => t.map Char.toUpper
  | some false => t.map Char.toLower
  | none => t

/-- A text with its letters changed, and the changes for what follows. -/
def Casing.apply (k : Casing) (t : Bytes) : Bytes × Casing :=
  match t with
  | [] => ([], k)
  | c :: r => (cased (k.next <|> k.all) [c] ++ cased k.all r, { k with next := none })

def replacementFrom (s : Regex.Subject) (m : Regex.Match) (k : Casing) : List Part → Bytes
  | [] => []
  | .casing change :: rest => replacementFrom s m (change k) rest
  | .text t :: rest =>
    let (t, k) := k.apply t
    t ++ replacementFrom s m k rest
  | .group n :: rest =>
    let (first, last) := if n = 0 then (m.first, m.last) else (m.groups.lookup n).getD (0, 0)
    let (t, k) := k.apply (Regex.slice s first last)
    t ++ replacementFrom s m k rest

def replacementText (s : Regex.Subject) (m : Regex.Match) (parts : List Part) : Bytes :=
  replacementFrom s m ⟨none, none⟩ parts

/-- The text from a position on with matches replaced, and whether any was. -/
def replacedFrom (sub : Substitution) (s : Regex.Subject) : (fuel : Nat) → (count : Nat) →
    (position : Nat) → (afterMatch : Bool) → Bytes × Bool
  | 0, _, position, _ => (Regex.slice s position s.text.size, false)
  | fuel + 1, count, position, afterMatch =>
    match Regex.search sub.expression s position with
    | none => (Regex.slice s position s.text.size, false)
    | some m =>
      let before := Regex.slice s position m.first
      let next := Regex.slice s m.last (m.last + 1)
      if m.first = m.last ∧ m.first = position ∧ afterMatch then
        if s.text.size ≤ position then ([], false)
        else
          let rest := replacedFrom sub s fuel count (position + 1) false
          (next ++ rest.1, rest.2)
      else
        let counts := sub.from_ ≤ count
        let new := if counts then replacementText s m sub.parts else Regex.slice s m.first m.last
        if counts && !sub.isGlobal then
          (before ++ new ++ Regex.slice s m.last s.text.size, true)
        else if m.first = m.last then
          if s.text.size ≤ m.last then (before ++ new, counts)
          else
            let rest := replacedFrom sub s fuel (count + 1) (m.last + 1) false
            (before ++ new ++ next ++ rest.1, counts || rest.2)
        else
          let rest := replacedFrom sub s fuel (count + 1) m.last true
          (before ++ new ++ rest.1, counts || rest.2)

def addTo (path t : Bytes) (files : List (Bytes × Bytes)) : List (Bytes × Bytes) :=
  let old := (files.lookup path).getD []
  (path, old ++ t) :: files.filter (·.1 != path)

def Editor.say (e : Editor) (t : Bytes) : Editor := { e with output := e.output ++ t }

inductive Next where
  | onward
  | jump (i : Nat)
  /-- The next line, with the space printed if that is not switched off. -/
  | line
  /-- The next line without printing. -/
  | silent
  /-- The script again with what is left in the space. -/
  | again

def targetOf (script : EditScript) (name : Bytes) : Next :=
  if name.isEmpty then .line
  else
    match script.findIdx? (fun c => match c.2 with
      | .label n => n == name
      | _ => false) with
    | some i => .jump i
    | none => .line

/-- The position behind the end of the block that starts at a position. -/
def blockEnd (script : EditScript) : (fuel : Nat) → (depth : Nat) → Nat → Nat
  | 0, _, i => i
  | fuel + 1, depth, i =>
    match (script[i]?).map Prod.snd with
    | some .blockStart => blockEnd script fuel (depth + 1) (i + 1)
    | some .blockEnd => if depth = 1 then i + 1 else blockEnd script fuel (depth - 1) (i + 1)
    | some _ => blockEnd script fuel depth (i + 1)
    | none => i

def firstLine (t : Bytes) : Bytes := t.takeWhile (· != '\n')

/-- Prints the space unless that is off, and what was to come after the line. -/
def Editor.finish (e : Editor) (prints : Bool) : Editor :=
  let e := if prints && !e.isQuiet then e.say (e.space ++ ['\n']) else e
  { e.say e.waiting with waiting := [] }

def Editor.take (e : Editor) : Option (Bytes × Editor) :=
  match e.input with
  | [] => none
  | line :: rest => some (line, { e with input := rest, number := e.number + 1 })

def letterStep (e : Editor) (c : Char) : Editor × Next :=
  match c with
  | 'p' => (e.say (e.space ++ ['\n']), .onward)
  | 'P' => (e.say (firstLine e.space ++ ['\n']), .onward)
  | '=' => (e.say (Text.ofNat e.number ++ ['\n']), .onward)
  | 'd' => (e, .silent)
  | 'D' =>
    if e.space.contains '\n' then
      ({ e with space := (e.space.dropWhile (· != '\n')).drop 1 }, .again)
    else (e, .silent)
  | 'g' => ({ e with space := e.hold }, .onward)
  | 'G' => ({ e with space := e.space ++ '\n' :: e.hold }, .onward)
  | 'h' => ({ e with hold := e.space }, .onward)
  | 'H' => ({ e with hold := e.hold ++ '\n' :: e.space }, .onward)
  | 'x' => ({ e with space := e.hold, hold := e.space }, .onward)
  | 'z' => ({ e with space := [] }, .onward)
  | 'n' =>
    match e.take with
    | none => ({ e with quits := some 0 }, .line)
    | some (line, taken) =>
      let shown := { taken with space := e.space }.finish true
      ({ shown with space := line }, .onward)
  | 'N' =>
    match e.take with
    | none => ({ e with quits := some 0 }, .line)
    | some (line, taken) => ({ taken with space := e.space ++ '\n' :: line }, .onward)
  | _ => (e, .onward)

def runStep (script : EditScript) (e : Editor) (selection : Selection) : Step → Editor × Next
  | .blockStart => (e, .onward)
  | .blockEnd => (e, .onward)
  | .label _ => (e, .onward)
  | .branch name => (e, targetOf script name)
  | .branchIfDone name =>
    if e.isDone then ({ e with isDone := false }, targetOf script name) else (e, .onward)
  | .branchUnlessDone name =>
    if e.isDone then ({ e with isDone := false }, .onward) else (e, targetOf script name)
  | .substitute sub =>
    let s : Regex.Subject := ⟨e.space.toArray, sub.ignoresCase⟩
    let (t, any) := replacedFrom sub s (e.space.length + 2) 1 0 false
    if any then
      let e := { e with space := t, isDone := true }
      let e := if sub.prints then e.say (t ++ ['\n']) else e
      (match sub.target with
        | some path => { e with files := addTo path (t ++ ['\n']) e.files }
        | none => e, .onward)
    else (e, .onward)
  | .translate pairs =>
    ({ e with space := e.space.map (fun c => (pairs.lookup c).getD c) }, .onward)
  | .append t => ({ e with waiting := e.waiting ++ t }, .onward)
  | .insert t => (e.say t, .onward)
  | .change t =>
    match selection.last with
    | some _ => if e.ranges.isEmpty || selection.isNegated then (e.say t, .silent) else (e, .silent)
    | none => (e.say t, .silent)
  | .read path => ({ e with waiting := e.waiting ++ e.sources path }, .onward)
  | .write path => ({ e with files := addTo path (e.space ++ ['\n']) e.files }, .onward)
  | .quit status prints => ({ e with quits := some status }, if prints then .line else .silent)
  | .letter c => letterStep e c

def runFrom (script : EditScript) : (fuel : Nat) → Nat → Editor → Editor
  | 0, _, e => e
  | fuel + 1, i, e =>
    match script[i]? with
    | none => e.finish true
    | some (selection, step) =>
      let (applies, e) := selects e i selection
      if applies then
        match runStep script e selection step with
        | (e, .onward) => runFrom script fuel (i + 1) e
        | (e, .jump j) => runFrom script fuel j e
        | (e, .line) => e.finish true
        | (e, .silent) => e.finish false
        | (e, .again) => runFrom script fuel 0 (e.finish false)
      else
        match step with
        | .blockStart => runFrom script fuel (blockEnd script (script.size + 1) 0 i) e
        | _ => runFrom script fuel (i + 1) e

def runLines (script : EditScript) : (fuel : Nat) → Editor → Editor
  | 0, e => e
  | fuel + 1, e =>
    if e.quits.isSome then e
    else
      match e.take with
      | none => e
      | some (line, e) =>
        runLines script fuel (runFrom script 100000 0 { e with space := line, isDone := false })

end ParameterManual.Shell.Edit

namespace ParameterManual.Shell.Program

open Edit

def sedTable : OptionTable := ⟨"sed", "nErsuz", "ef", [("quiet", 'n'), ("silent", 'n'),
  ("regexp-extended", 'E'), ("expression", 'e'), ("file", 'f'), ("in-place", 'i'),
  ("separate", 's')], 1, false⟩

/-- Edits one text: what comes out, the files that are written, and the
status if the script ended it. -/
def edited (script : EditScript) (isQuiet : Bool) (sources : Bytes → Bytes) (b : Bytes) :
    Bytes × List (Bytes × Bytes) × Option Nat :=
  let lines := Bytes.lines b
  let e := runLines script (lines.length + 1)
    ⟨lines, 0, [], [], [], [], [], false, none, isQuiet, [], sources⟩
  let out := if Bytes.isEnded b || e.quits.isSome && !e.input.isEmpty then e.output
    else e.output.dropLast
  (out, e.files, e.quits)

/-- The suffix for copies if files are edited in place, and the other
arguments. -/
def inPlace : List Bytes → Option Bytes × List Bytes
  | [] => (none, [])
  | a :: rest =>
    let found := inPlace rest
    match a with
    | '-' :: 'i' :: suffix => (some suffix, found.2)
    | '-' :: 'n' :: 'i' :: [] => (some [], ['-', 'n'] :: found.2)
    | _ => if a = "--in-place".toList then (some [], found.2) else (found.1, a :: found.2)

def sed : Program := fun arguments => do
  let (place, arguments) := inPlace arguments
  sedTable.andThen (fun o => do
    let given := (o.given.filter (·.1 == 'e')).map Prod.snd
    let mut scripts := given
    for (c, path) in o.given do
      if c = 'f' then
        match ← Action.readFile path with
        | .ok b => scripts := scripts ++ [b]
        | .error fault =>
          Action.complain ("sed: couldn't open file ".toList ++ path ++ ": ".toList ++
            reason fault)
          return 1
    let (texts, operands) := match scripts, o.operands with
      | [], t :: rest => ([t], rest)
      | _, rest => (scripts, rest)
    if texts.isEmpty then
      Action.complain "Usage: sed [OPTION]... script [input-file]...".toList
      return 1
    let text := Text.joined ['\n'] texts
    let isQuiet := o.has 'n' || Text.startsWith "#n\n".toList text
    let some script := Edit.parse? (o.has 'E' || o.has 'r') text | do
      Action.complain "sed: -e expression #1, char 1: unknown command".toList
      return 1
    let tree := (← get).tree
    let sources (path : Bytes) : Bytes :=
      match tree.find (Bytes.toText path) with
      | .ok (.file content) => Bytes.ofContent content
      | _ => []
    let writeFiles (files : List (Bytes × Bytes)) : Action Unit := do
      for (path, b) in files do
        if path = "/dev/stdout".toList then Action.put b
        else
          let _ ← Action.inTree (·.writeFile (Bytes.toText path) (Bytes.toContent b))
    let mut status := 0
    let mut all := []
    for path in if operands.isEmpty then [['-']] else operands do
      match ← Action.readFile path with
      | .error .isDirectory =>
        Action.complain (if place.isSome then
            "sed: couldn't edit ".toList ++ path ++ ": not a regular file".toList
          else "sed: read error on ".toList ++ path ++ ": Is a directory".toList)
        status := if place.isSome then 4 else 2
      | .error fault =>
        Action.complain ("sed: can't read ".toList ++ path ++ ": ".toList ++ reason fault)
        status := 2
      | .ok b =>
        match place with
        | none => all := all ++ [b]
        | some suffix =>
          let (out, files, quits) := edited script isQuiet sources b
          if !suffix.isEmpty then
            let _ ← Action.inTree (·.writeFile (Bytes.toText (path ++ suffix))
              (Bytes.toContent b))
          let _ ← Action.inTree (·.writeFile (Bytes.toText path) (Bytes.toContent out))
          writeFiles files
          status := max status (quits.getD 0)
    if place.isNone then
      let whole := all.foldl (fun acc b =>
        if acc.isEmpty || Bytes.isEnded acc then acc ++ b else acc ++ '\n' :: b) []
      let (out, files, quits) := edited script isQuiet sources whole
      Action.put out
      writeFiles files
      status := max status (quits.getD 0)
    return status) arguments

end ParameterManual.Shell.Program
