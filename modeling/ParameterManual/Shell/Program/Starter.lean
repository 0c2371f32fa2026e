import ParameterManual.Shell.Program.Options

/-!
# Programs that start others

A program that starts others is given a function that does. It may change the
variables for them, or build their arguments from its input.
-/

set_option autoImplicit false

namespace ParameterManual.Shell.Program

abbrev Starter := List Bytes → Action Nat

/-! ## Surroundings -/

/-- The options in front of a command and its variables: whether there are to
be no others, and the names of those that are left out. -/
def environmentOptions : List Bytes → Bool × List Bytes × List Bytes
  | ['-', 'i'] :: rest =>
    let (_, names, rest) := environmentOptions rest
    (true, names, rest)
  | ['-', 'u'] :: name :: rest =>
    let (isEmptied, names, rest) := environmentOptions rest
    (isEmptied, name :: names, rest)
  | rest => (false, [], rest)

def env (start : Starter) : Program := fun arguments => do
  let (isEmptied, unset, arguments) := environmentOptions arguments
  let isAssignment (a : Bytes) : Bool := a.contains '='
  let outer := (← get).bindings
  if isEmptied then
    modify (fun s => { s with
      bindings := [("PATH".toList, ⟨some "/bin:/usr/bin".toList, false, false⟩)] })
  modify (fun s => { s with bindings := s.bindings.filter (fun v => !unset.contains v.1) })
  match arguments.dropWhile isAssignment with
  | [] =>
    for (name, v) in (← get).bindings do
      if v.isExported then Action.put (name ++ '=' :: (v.value.getD []) ++ ['\n'])
    for a in arguments do Action.put (a ++ ['\n'])
    modify (fun s => { s with bindings := outer })
    return 0
  | command =>
    for a in arguments.takeWhile isAssignment do
      let name := a.takeWhile (· != '=')
      modify (fun s => { s with
        bindings := TextMap.insert name ⟨some (a.drop (name.length + 1)), true, false⟩
          s.bindings })
    let status ← start command
    modify (fun s => { s with bindings := outer })
    return status

def printenv : Program := fun names => do
  let s ← get
  let exported (name : Bytes) : Option Bytes := do
    let v ← TextMap.find? name s.bindings
    if v.isExported then v.value else none
  let mut ok := true
  for name in names do
    match exported name with
    | some t => Action.put (t ++ ['\n'])
    | none => ok := false
  return statusOf ok

/-- A program that starts another one after dropping arguments of its own. -/
def wrapper (start : Starter) (drop : List Bytes → List Bytes) : Program := fun arguments => do
  match drop arguments with
  | [] => return 1
  | command => start command

def withoutPriority (arguments : List Bytes) : List Bytes :=
  match arguments with
  | ['-', 'n'] :: _ :: rest => rest
  | ('-' :: _) :: rest => rest
  | _ => arguments

def withoutLimit : List Bytes → List Bytes
  | ['-', 's'] :: _ :: rest => withoutLimit rest
  | ['-', 'k'] :: _ :: rest => withoutLimit rest
  | ('-' :: _) :: rest => withoutLimit rest
  | _ :: rest => rest
  | [] => []

/-! ## Building command lines -/

def inputWords : (quote : Option Char) → (word : Option Bytes) → Bytes → List Bytes
  | _, word, [] => (word.map List.reverse).toList
  | some q, word, c :: t =>
    if c = q then inputWords none (some (word.getD [])) t
    else inputWords (some q) (some (c :: word.getD [])) t
  | none, word, '\\' :: c :: t => inputWords none (some (c :: word.getD [])) t
  | none, word, c :: t =>
    if Sum.isSpace c then (word.map List.reverse).toList ++ inputWords none none t
    else if c = '"' ∨ c = '\x27' then inputWords (some c) (some (word.getD [])) t
    else inputWords none (some (c :: word.getD [])) t

def chunks {α : Type} (size : Nat) : (fuel : Nat) → List α → List (List α)
  | 0, _ => []
  | fuel + 1, items =>
    if items.isEmpty then []
    else items.take size :: chunks size fuel (items.drop size)

def xargs (start : Starter) : Program := OptionTable.andThen ⟨"xargs", "0rtpx", "nILPdsE",
    [("null", '0'), ("no-run-if-empty", 'r'), ("max-args", 'n'), ("max-lines", 'L')], 1, true⟩
    fun o => do
  let b ← Action.readAll
  let split (c : Char) : List Bytes :=
    (if b.endsWithChar c then b.dropLast else b).splitOn c
  let words :=
    if b.isEmpty then []
    else if o.has '0' then split '\x00'
    else if let some (d :: _) := o.value? 'd' then split (if d = '\\' then '\n' else d)
    else if o.has 'I' then
      ((Bytes.lines b).map (·.dropWhile (fun c => c == ' ' || c == '\t'))).filter (!·.isEmpty)
    else inputWords none none b
  let command := if o.operands.isEmpty then ["echo".toList] else o.operands
  let lines := match o.value? 'I' with
    | some mark => words.map (fun w => command.map (Text.replaceAll mark w))
    | none =>
      match ((o.value? 'n').bind natural?) <|> ((o.value? 'L').bind natural?) with
      | some n => (chunks (max n 1) words.length words).map (command ++ ·)
      | none => if words.isEmpty && o.has 'r' then [] else [command ++ words]
  let mut status := 0
  for line in lines do
    let n ← start line
    if n = 126 ∨ n = 127 then return n
    if n = 255 then return 124
    if n != 0 then status := 123
  return status

end ParameterManual.Shell.Program
