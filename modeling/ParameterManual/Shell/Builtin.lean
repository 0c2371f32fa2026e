import ParameterManual.Shell.Control
import ParameterManual.Shell.Format
import ParameterManual.Shell.Program.Test

/-!
# Commands of the shell itself

These change the session. An error in a special one of them ends the shell.
-/

set_option autoImplicit false

namespace ParameterManual.Shell.Builtin

def refuse (t : Bytes) : Action Nat := do
  Action.warn t
  return 2

def illegalNumber {α : Type} (t : Bytes) : Action α := Action.fail ("Illegal number: ".toList ++ t)

def statusArgument (arguments : List Bytes) : Action Nat := do
  match arguments with
  | [] => return (← get).status
  | t :: _ =>
    match natural? t with
    | some n => return n % 256
    | none => illegalNumber t

def exit : Program := fun arguments => do
  setStatus (← statusArgument arguments)
  throw .exit

def return_ : Program := fun arguments => do
  setStatus (← statusArgument arguments)
  throw .return_

def loopExit (exit : Nat → Exit) : Program := fun arguments => do
  let n ← match arguments with
    | [] => pure 1
    | t :: _ =>
      match natural? t with
      | some (n + 1) => pure (n + 1)
      | _ => illegalNumber t
  let loops := (← get).loops
  if loops = 0 then return 0
  setStatus 0
  throw (exit (min n loops))

def shift : Program := fun arguments => do
  let s ← get
  let n ← match arguments with
    | [] => pure 1
    | t :: _ =>
      match natural? t with
      | some n => pure n
      | none => illegalNumber t
  if s.arguments.length < n then Action.fail "can't shift that many".toList
  set { s with arguments := s.arguments.drop n, optionPlace := (1, none) }
  return 0

/-! ## Variables -/

def quotedText (t : Bytes) : Bytes :=
  '\x27' :: t.flatMap (fun c => if c = '\x27' then "'\"'\"'".toList else [c]) ++ ['\x27']

def variableLines (lead : Bytes) (kept : Variable → Bool) : Action Unit := do
  let s ← get
  for (name, v) in s.bindings do
    if kept v then
      Action.put (lead ++ name ++
        (match v.value with
          | some t => '=' :: quotedText t
          | none => []) ++ ['\n'])

def assignment (t : Bytes) : Bytes × Option Bytes :=
  let name := t.takeWhile (· != '=')
  match t.drop name.length with
  | [] => (t, none)
  | _ :: value => (name, some value)

def mark (lead : String) (kept : Variable → Bool) (change : Variable → Variable) : Program :=
  fun arguments => do
    match arguments.filter (· != ['-', '-']) with
    | [] => variableLines lead.toList kept; return 0
    | [['-', 'p']] => variableLines lead.toList kept; return 0
    | names =>
      for t in names do
        let (name, value) := assignment t
        if !isName name then Action.fail (name ++ ": bad variable name".toList)
        if let some value := value then Action.setVariable name value
        let s ← get
        let old := (TextMap.find? name s.bindings).getD ⟨none, false, false⟩
        set { s with bindings := TextMap.insert name (change old) s.bindings }
      return 0

def export_ : Program := mark "export " Variable.isExported ({ · with isExported := true })

def readonly : Program := mark "readonly " Variable.isReadOnly ({ · with isReadOnly := true })

def unset : Program := fun arguments => do
  let isFunctions := arguments.contains ['-', 'f']
  let names := arguments.filter (fun a => a != ['-', 'f'] && a != ['-', 'v'])
  for name in names do
    let s ← get
    if isFunctions then set { s with functions := s.functions.filter (fun e => e.1 != name) }
    else
      if !isName name then Action.fail (name ++ ": bad variable name".toList)
      if ((TextMap.find? name s.bindings).any Variable.isReadOnly) then
        Action.fail (name ++ ": is read only".toList)
      set { s with bindings := s.bindings.filter (fun e => e.1 != name) }
  return 0

def local_ : Program := fun arguments => do
  let s ← get
  match s.scopes with
  | [] => Action.fail "not in a function".toList
  | scope :: outer =>
    let mut saved := scope
    for t in arguments do
      let (name, _) := assignment t
      if !isName name then Action.fail (name ++ ": bad variable name".toList)
      if !saved.any (·.1 == name) then
        saved := (name, TextMap.find? name (← get).bindings) :: saved
    modify (fun s => { s with scopes := saved :: outer })
    for t in arguments do
      if let (name, some value) := assignment t then Action.setVariable name value
    return 0

def optionNames : List (String × Char) := [
  ("errexit", 'e'), ("noglob", 'f'), ("nounset", 'u'), ("noclobber", 'C'), ("allexport", 'a'),
  ("xtrace", 'x'), ("verbose", 'v'), ("noexec", 'n'), ("notify", 'b'), ("monitor", 'm'),
  ("ignoreeof", 'I'), ("interactive", 'i'), ("stdin", 's'), ("vi", 'V'), ("emacs", 'E'),
  ("nolog", 'L'), ("debug", 'D')]

def setOption (letter : Char) (isOn : Bool) : Action Unit := do
  if !optionNames.any (·.2 == letter) then
    Action.fail ("Illegal option -".toList ++ [letter])
  modify (fun s =>
    let others := s.options.filter (· != letter)
    { s with options := if isOn then others ++ [letter] else others })

/-- Sets options in front of arguments; gives the arguments, if there are any. -/
def setOptions : List Bytes → Action (Option (List Bytes))
  | [] => return none
  | ['-', '-'] :: rest => return some rest
  | ['-'] :: rest => do
    modify (fun s => { s with options := s.options.filter (fun c => c != 'x' && c != 'v') })
    return if rest.isEmpty then none else some rest
  | [sign, 'o'] :: name :: rest => do
    if sign = '-' ∨ sign = '+' then
      match optionNames.find? (·.1.toList == name) with
      | some o => setOption o.2 (sign == '-')
      | none => Action.fail ("Illegal option -o ".toList ++ name)
      setOptions rest
    else return some ([sign, 'o'] :: name :: rest)
  | (sign :: c :: letters) :: rest => do
    if sign = '-' ∨ sign = '+' then
      for letter in c :: letters do setOption letter (sign == '-')
      setOptions rest
    else return some ((sign :: c :: letters) :: rest)
  | arguments => return some arguments

def set_ : Program := fun arguments => do
  if arguments.isEmpty then
    for (name, v) in (← get).bindings do
      if let some t := v.value then Action.put (name ++ '=' :: quotedText t ++ ['\n'])
    return 0
  if let some rest ← setOptions arguments then 
    modify (fun s => { s with arguments := rest, optionPlace := (1, none) })
  return 0

/-! ## Input and output -/

/-- A line with backslashes taken off; the characters behind them are marked.
A backslash at the end joins the next line. -/
def readMarked (isRaw : Bool) : (fuel : Nat) → Action (Marked × Bool)
  | 0 => return ([], false)
  | fuel + 1 => do
    let line ← Action.readLine
    let isWhole := line.endsWithChar '\n'
    let text := if isWhole then line.dropLast else line
    if isRaw then return (text.map (fun c => (c, false)), isWhole)
    let (marked, joins) := unescaped text
    if joins && isWhole then
      let (rest, isWhole) ← readMarked isRaw fuel
      return (marked ++ rest, isWhole)
    return (marked, isWhole)
where
  unescaped : Bytes → Marked × Bool
    | [] => ([], false)
    | ['\\'] => ([], true)
    | '\\' :: c :: t =>
      let rest := unescaped t
      ((c, true) :: rest.1, rest.2)
    | c :: t =>
      let rest := unescaped t
      ((c, false) :: rest.1, rest.2)

/-- The values of variables that a line is split into; the last one takes all
that is left. -/
def lineFields (separators : Bytes) : (names : List Bytes) → Marked → List (Bytes × Bytes)
  | [], _ => []
  | [name], t =>
    let kept := (t.reverse.dropWhile (fun c => isBlank c)).reverse
    [(name, kept.map Prod.fst)]
  | name :: rest, t =>
    let field := t.takeWhile (fun c => !isSeparator c)
    let after := (t.drop field.length).dropWhile isBlank
    let after := match after with
      | c :: r => if isSeparator c then r.dropWhile isBlank else after
      | [] => []
    (name, field.map Prod.fst) :: lineFields separators rest after
where
  isSeparator (c : Char × Bool) : Bool := separators.contains c.1 && !c.2
  isBlank (c : Char × Bool) : Bool :=
    isSeparator c && (c.1 == ' ' || c.1 == '\t' || c.1 == '\n')

def readOptions : (isRaw : Bool) → List Bytes → Bool × List Bytes
  | _, ['-', 'r'] :: rest => readOptions true rest
  | isRaw, ['-', 'p'] :: _ :: rest => readOptions isRaw rest
  | isRaw, ['-', '-'] :: rest => (isRaw, rest)
  | isRaw, rest => (isRaw, rest)

def read : Program := fun arguments => do
  let (isRaw, names) := readOptions false arguments
  if names.isEmpty then return ← refuse "arg count".toList
  for name in names do
    if !isName name then return ← refuse (name ++ ": bad variable name".toList)
  let s ← get
  let (t, isWhole) ← readMarked isRaw ((s.waiting 0).length + 1)
  let isBlank (c : Char × Bool) : Bool :=
    s.separators.contains c.1 && !c.2 && (c.1 == ' ' || c.1 == '\t' || c.1 == '\n')
  for (name, value) in lineFields s.separators names (t.dropWhile isBlank) do
    Action.setVariable name value
  return statusOf isWhole

def whenOpen (body : Action Nat) : Action Nat := do
  if (← get).isOpen 1 then body
  else
    Action.warn "write error: Bad file descriptor".toList
    return 1

def echo : Program := fun arguments => whenOpen do
  Action.put (echoText arguments)
  return 0

def printf : Program := fun arguments => do
  let arguments := match arguments with
    | ['-', '-'] :: rest => rest
    | _ => arguments
  match arguments with
  | [] => refuse "usage: printf format [arg ...]".toList
  | format :: rest => whenOpen do
    let p := printing format rest
    Action.put p.written
    for t in p.warnings do Action.warn t
    return p.status

def test : Program := fun arguments => do
  match Program.condition (← get) arguments with
  | .ok b => return statusOf b
  | .error fault => Action.warn fault.text; return 2

def bracket : Program := fun arguments => do
  if arguments.getLast? = some [']'] then test arguments.dropLast
  else
    Action.warn "missing ]".toList
    return 2

/-! ## Places and processes -/

def pathOf (place : List Text) : Bytes := '/' :: Text.joined ['/'] (place.map Bytes.ofText)

def pwd : Program := fun _ => do
  Action.put (pathOf (← get).tree.here ++ ['\n'])
  return 0

def goTo (path shown : Bytes) (isShown : Bool) : Action Nat := do
  let s ← get
  match s.tree.place (Bytes.toText path), isFolder s.tree path with
  | .ok place, true =>
    set { s with tree := { s.tree with here := place } }
    Action.setVariable "OLDPWD".toList (pathOf s.tree.here)
    Action.setVariable "PWD".toList (pathOf place)
    if isShown then Action.put (pathOf place ++ ['\n'])
    return 0
  | _, _ => refuse ("can't cd to ".toList ++ shown)

def cd : Program := fun arguments => do
  let s ← get
  match arguments.filter (fun a => a != ['-', 'P'] && a != ['-', 'L'] && a != ['-', '-']) with
  | [] =>
    match s.valueOf? "HOME".toList with
    | some home => goTo home home false
    | none => return 0
  | [] :: _ => return 0
  | ['-'] :: _ =>
    let path := (s.valueOf? "OLDPWD".toList).getD (pathOf s.tree.here)
    goTo path path true
  | path :: _ => goTo path path false

def signal? (t : Bytes) : Option Nat :=
  match natural? t with
  | some n => if n < 65 then some n else none
  | none =>
    if t.map Char.toUpper = "EXIT".toList then some 0
    else signalNumber? (t.map Char.toUpper)

def receive (run : Runner) (n : Nat) : Action Unit := do
  let s ← get
  match s.traps.lookup n with
  | some [] => if n = 9 then throw (.signal n)
  | some t =>
    if n = 9 then throw (.signal n)
    runText run t
    setStatus s.status
  | none => if isHarmless n then pure () else throw (.signal n)

def killUsage : Action Nat := do
  Action.warn ("Usage: kill [-s sigspec | -signum | -sigspec] [pid | job]... or\n" ++
    "kill -l [exitstatus]").toList
  return 2

def send (run : Runner) (n : Nat) (targets : List Bytes) : Action Nat := do
  if targets.isEmpty then return ← killUsage
  let mut status := 0
  for target in targets do
    if target = Text.ofNat (← get).process then receive run n
    else if (natural? target).isNone then return ← refuse ("Illegal number: ".toList ++ target)
    else if target = Text.ofNat (← get).jobNumber ∧ (← get).job.isSome then
      if n != 0 then modify (fun s => { s with job := some (128 + n) })
    else
      Action.warn "No such process\n".toList
      status := 1
  return status

def kill (run : Runner) : Program := fun arguments => do
  let unknown (name : Bytes) : Action Nat :=
    refuse ("invalid signal number or name: ".toList ++ name)
  match arguments with
  | [] => killUsage
  | ['-', '-'] :: targets => send run 15 targets
  | ['-', 's'] :: name :: targets =>
    match signal? name with
    | some n => send run n targets
    | none => unknown name
  | ['-', 'l'] :: numbers =>
    for t in numbers do
      match ((natural? t).map (· % 128)).bind Run.signalName? with
      | some name => Action.put (name ++ ['\n'])
      | none => return ← unknown t
    return 0
  | ('-' :: name) :: targets =>
    match signal? name, name with
    | some n, _ => send run n targets
    | none, 's' :: rest => do
      match signal? rest with
      | some n => send run n targets
      | none => unknown rest
    | none, c :: _ => refuse ("Illegal option -".toList ++ [c])
    | none, [] => killUsage
  | targets => send run 15 targets

def trap : Program := fun arguments => do
  let arguments := match arguments with
    | ['-', '-'] :: rest => rest
    | _ => arguments
  match arguments with
  | [] =>
    for (n, t) in (← get).traps do
      let name := if n = 0 then "EXIT".toList else (Run.signalName? n).getD (Text.ofNat n)
      Action.put ("trap -- ".toList ++ quotedText t ++ ' ' :: name ++ ['\n'])
    return 0
  | action :: names =>
    let resets := action == ['-'] || names.isEmpty || (natural? action).isSome
    let names := if names.isEmpty || (natural? action).isSome then action :: names else names
    for name in names do
      match signal? name with
      | none =>
        Action.complain ("trap: ".toList ++ name ++ ": bad trap".toList)
        return 1
      | some n =>
        modify (fun s =>
          let others := s.traps.filter (·.1 != n)
          { s with traps := if resets then others
            else others.takeWhile (·.1 < n) ++ (n, action) :: others.dropWhile (·.1 < n) })
    return 0

def wait : Program := fun arguments => do
  match arguments with
  | [] => return 0
  | t :: _ =>
    let s ← get
    return if t = Text.ofNat s.jobNumber then s.job.getD 127 else 127

def umask : Program := fun arguments => do
  match arguments with
  | [] => Action.put "0022\n".toList
  | t :: _ =>
    if (natural? t).isSome && !t.all (· < '8') then illegalNumber t
  return 0

def source (run : Runner) : Program := fun arguments => do
  match arguments with
  | [] => return 0
  | path :: _ =>
    if !path.contains '/' then Action.fail (path ++ ": not found".toList)
    match ← Action.readFile path with
    | .ok b =>
      match ← attempt (runText run b) with
      | some .return_ => return (← get).status
      | some e => throw e
      | none => return (← get).status
    | .error fault => Action.fail (openFault .input path fault)

def eval (run : Runner) : Program := fun arguments => do
  runText run (Text.joined [' '] arguments)
  return (← get).status

def ulimit : Program := fun _ => do
  Action.put "unlimited\n".toList
  return 0

/-! ## Options of scripts -/

/-- What a letter means in a list of options: whether it takes a value, if it
is listed. -/
def listedOption? (letters : Bytes) (c : Char) : Option Bool :=
  match letters.dropWhile (· != c) with
  | _ :: ':' :: _ => if c = ':' then none else some true
  | _ :: _ => if c = ':' then none else some false
  | [] => none

/-- The argument that holds the next option letter, with the number of the
argument behind it, and the place of the letter. -/
def optionLetter? (arguments : List Bytes) (place : Nat × Option Nat) :
    Option (Nat × Nat) × Nat :=
  let (index, offset) := place
  match offset with
  | some offset => (some (index, offset), index)
  | none =>
    match arguments[index - 1]? with
    | some ['-', '-'] => (none, index + 1)
    | some ('-' :: _ :: _) => (some (index + 1, 1), index + 1)
    | _ => (none, index)

def getopts : Program := fun arguments => do
  match arguments with
  | letters :: name :: own =>
    let s ← get
    let operands := if own.isEmpty then s.arguments else own
    let place := if operands.length + 1 < s.optionPlace.1 then (1, none) else s.optionPlace
    let finish (result : Bytes) (index : Nat) (offset : Option Nat) (status : Nat) :
        Action Nat := do
      Action.setVariable "OPTIND".toList (Text.ofNat index)
      modify (fun s => { s with optionPlace := (index, offset) })
      Action.setVariable name result
      return status
    let setValue := Action.setVariable "OPTARG".toList
    let unsetValue : Action Unit := modify (fun s => { s with
      bindings := s.bindings.filter (fun e => e.1 != "OPTARG".toList) })
    let isSilent := letters.head? == some ':'
    match optionLetter? operands place with
    | (none, index) => finish ['?'] index none 1
    | (some (index, offset), _) =>
      let word := operands[index - 2]?.getD []
      match word.drop offset with
      | [] => finish ['?'] index none 1
      | c :: t =>
        let next := if t.isEmpty then none else some (offset + 1)
        match listedOption? letters c with
        | none =>
          if isSilent then setValue [c]
          else
            Action.complain ("Illegal option -".toList ++ [c])
            unsetValue
          finish ['?'] index next 0
        | some false =>
          setValue []
          finish [c] index next 0
        | some true =>
          match t, operands[index - 1]? with
          | _ :: _, _ =>
            setValue t
            finish [c] index none 0
          | [], some value =>
            setValue value
            finish [c] (index + 1) none 0
          | [], none =>
            if isSilent then
              setValue [c]
              finish [':'] index none 0
            else
              Action.complain ("No arg for -".toList ++ c :: " option".toList)
              unsetValue
              finish ['?'] index none 0
  | _ => refuse "Usage: getopts optstring var [arg...]".toList

def succeed : Program := fun _ => return 0

def fail : Program := fun _ => return 1

def specials (run : Runner) : List (String × Program) := [
  (":", succeed), ("break", loopExit .leave), ("continue", loopExit .again), (".", source run),
  ("eval", eval run), ("exit", exit), ("export", export_), ("local", local_),
  ("readonly", readonly),
  ("return", return_), ("set", set_), ("shift", shift), ("times", succeed), ("trap", trap),
  ("unset", unset)]

def regulars (run : Runner) : List (String × Program) := [
  ("true", succeed), ("false", fail), ("echo", echo), ("printf", printf), ("read", read),
  ("cd", cd), ("chdir", cd), ("pwd", pwd), ("test", test), ("[", bracket),
  ("kill", kill run), ("wait", wait), ("umask", umask), ("hash", succeed),
  ("jobs", succeed), ("ulimit", ulimit), ("getopts", getopts), ("alias", succeed), ("unalias", succeed)]

end ParameterManual.Shell.Builtin
