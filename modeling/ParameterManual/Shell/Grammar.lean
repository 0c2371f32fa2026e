import ParameterManual.Shell.Word

/-!
# Reading commands

A script is read line by line, so that what stands in front of a line that
makes no sense is still run. Reserved words count only where a command can
begin.
-/

set_option autoImplicit false

namespace ParameterManual.Shell

namespace Token

def plain? : Token → Option Text
  | .word w => Word.plain? w
  | _ => none

def isWord (keyword : String) (token : Token) : Bool := token.plain? == some keyword.toList

def closers : List String := ["then", "do", "done", "fi", "esac", "elif", "else", "\x7d", "in"]

def endsList : Token → Bool
  | .close => true
  | .branchEnd => true
  | .end_ => true
  | token => closers.any token.isWord

end Token

namespace Reader

def putBack (token : Token) : Reader Unit := modify (fun s => { s with token := some token })

def peek (next : Reader Token) : Reader Token := do
  let token ← next
  putBack token
  return token

def expect (next : Reader Token) (keyword : String) : Reader Unit := do
  if !(← next).isWord keyword then failure

def skipNewlines (next : Reader Token) : (fuel : Nat) → Reader Unit
  | 0 => return
  | fuel + 1 => do
    match ← next with
    | .newline => skipNewlines next fuel
    | token => putBack token

def lineBreaks (next : Reader Token) : Reader Unit := do
  skipNewlines next ((← rest).length + 2)

def steps : Reader Nat := return (← rest).length + 2

end Reader

section Lists

variable (next : Reader Token) (command : Reader Command)

def stagesFrom : (fuel : Nat) → Reader (List Command)
  | 0 => failure
  | fuel + 1 => do
    let stage ← command
    match ← next with
    | .pipe => do
      Reader.lineBreaks next
      return stage :: (← stagesFrom fuel)
    | token => do
      Reader.putBack token
      return [stage]

def pipeline : Reader Command := do
  let isNegated := (← Reader.peek next).isWord "!"
  if isNegated then let _ ← next
  let stages ← stagesFrom next command (← Reader.steps)
  let all := match stages with
    | [stage] => stage
    | _ => .pipeline stages
  return if isNegated then .negation all else all

def andOrFrom : (fuel : Nat) → Command → Reader Command
  | 0, _ => failure
  | fuel + 1, first => do
    match ← next with
    | .andThen => do
      Reader.lineBreaks next
      andOrFrom fuel (.both first (← pipeline next command))
    | .orElse => do
      Reader.lineBreaks next
      andOrFrom fuel (.either first (← pipeline next command))
    | token => do
      Reader.putBack token
      return first

def andOr : Reader Command := do
  andOrFrom next command (← Reader.steps) (← pipeline next command)

def listFrom : (fuel : Nat) → Reader Command
  | 0 => failure
  | fuel + 1 => do
    let first ← andOr next command
    let (first, goesOn) ← match ← next with
      | .next => pure (first, true)
      | .newline => pure (first, true)
      | .background => pure (.background first, true)
      | token => Reader.putBack token; pure (first, false)
    if goesOn then
      Reader.lineBreaks next
      if (← Reader.peek next).endsList then return first
      return .sequence first (← listFrom fuel)
    return first

def list (mayBeEmpty : Bool) : Reader Command := do
  Reader.lineBreaks next
  if mayBeEmpty && (← Reader.peek next).endsList then return .nothing
  listFrom next command (← Reader.steps)

def lineFrom : (fuel : Nat) → Reader Command
  | 0 => failure
  | fuel + 1 => do
    let first ← andOr next command
    let (first, goesOn) ← match ← next with
      | .next => pure (first, true)
      | .background => pure (.background first, true)
      | .newline => pure (first, false)
      | .end_ => pure (first, false)
      | _ => failure
    if goesOn then
      match ← Reader.peek next with
      | .newline => let _ ← next; return first
      | .end_ => return first
      | _ => return .sequence first (← lineFrom fuel)
    return first

end Lists

section Commands

variable (next : Reader Token) (below : Level)

def redirect? : Token → Reader (Option Redirect)
  | .redirect descriptor direction => do
    let .word target ← next | failure
    return some (.mk (descriptor.getD 0) direction target)
  | .document descriptor dropsTabs => do
    let .word delimiter ← next | failure
    return some (.mk (descriptor.getD 0) .document (← takeDocument below dropsTabs delimiter))
  | _ => return none

def redirectsFrom : (fuel : Nat) → Reader (List Redirect)
  | 0 => return []
  | fuel + 1 => do
    let token ← next
    match ← redirect? next below token with
    | some r => return r :: (← redirectsFrom fuel)
    | none => do
      Reader.putBack token
      return []

def withRedirects (command : Command) : Reader Command := do
  let redirects ← redirectsFrom next below (← Reader.steps)
  return if redirects.isEmpty then command else .redirected command redirects

/-- The words of a simple command; a name with brackets begins the definition
of a function. -/
def simpleFrom (line : Nat) : (fuel : Nat) → List (Text × Word) → List Word → List Redirect →
    Reader Command
  | 0, _, _, _ => failure
  | fuel + 1, assignments, words, redirects => do
    let token ← next
    let finish : Reader Command := do
      Reader.putBack token
      if assignments.isEmpty && words.isEmpty && redirects.isEmpty then failure
      return .simple line assignments.reverse words.reverse redirects.reverse
    match token with
    | .word w =>
      match if words.isEmpty then Word.assignment? w else none with
      | some a => simpleFrom line fuel (a :: assignments) words redirects
      | none => simpleFrom line fuel assignments (w :: words) redirects
    | .open_ =>
      match words, assignments.isEmpty && redirects.isEmpty with
      | [w], true => do
        let some name := Word.plain? w | failure
        if !isName name then failure
        let .close ← next | failure
        Reader.lineBreaks next
        return .function name (← below.command)
      | _, _ => finish
    | _ => do
      match ← redirect? next below token with
      | some r => simpleFrom line fuel assignments words (r :: redirects)
      | none => finish

def wordsFrom : (fuel : Nat) → Reader (List Word)
  | 0 => return []
  | fuel + 1 => do
    match ← next with
    | .word w => return w :: (← wordsFrom fuel)
    | .newline => return []
    | .next => return []
    | _ => failure

def loopBody : Reader Command := do
  Reader.lineBreaks next
  Reader.expect next "do"
  let body ← below.list false
  Reader.expect next "done"
  return body

def eachCommand : Reader Command := do
  let .word w ← next | failure
  let some name := Word.plain? w | failure
  if !isName name then failure
  Reader.lineBreaks next
  let token ← next
  if token.isWord "in" then
    let words ← wordsFrom next (← Reader.steps)
    return .each name (some words) (← loopBody next below)
  else
    match token with
    | .next => pure ()
    | _ => Reader.putBack token
    return .each name none (← loopBody next below)

def branchesOfChoice : (fuel : Nat) → Reader Command
  | 0 => failure
  | fuel + 1 => do
    let condition ← below.list false
    Reader.expect next "then"
    let yes ← below.list false
    let token ← next
    if token.isWord "elif" then return .choose condition yes (← branchesOfChoice fuel)
    else if token.isWord "else" then
      let no ← below.list false
      Reader.expect next "fi"
      return .choose condition yes no
    else if token.isWord "fi" then return .choose condition yes .nothing
    else failure

def patternsFrom : (fuel : Nat) → Reader (List Word)
  | 0 => failure
  | fuel + 1 => do
    let .word w ← next | failure
    match ← next with
    | .pipe => return w :: (← patternsFrom fuel)
    | .close => return [w]
    | _ => failure

def branchesFrom : (fuel : Nat) → Reader (List (List Word × Command))
  | 0 => failure
  | fuel + 1 => do
    Reader.lineBreaks next
    let token ← next
    if token.isWord "esac" then return []
    match token with
    | .open_ => pure ()
    | _ => Reader.putBack token
    let patterns ← patternsFrom next (← Reader.steps)
    let body ← below.list true
    match ← next with
    | .branchEnd => return (patterns, body) :: (← branchesFrom fuel)
    | token => if token.isWord "esac" then return [(patterns, body)] else failure

def selectCommand : Reader Command := do
  let .word w ← next | failure
  Reader.lineBreaks next
  Reader.expect next "in"
  return .select w (← branchesFrom next below (← Reader.steps))

def oneCommand : Reader Command := do
  let line := (← get).line
  let token ← next
  let compound (c : Reader Command) : Reader Command := do withRedirects next below (← c)
  match token with
  | .open_ => compound do
    let body ← below.list false
    let .close ← next | failure
    return .subshell body
  | _ =>
    if token.isWord "\x7b" then compound do
      let body ← below.list false
      Reader.expect next "\x7d"
      return body
    else if token.isWord "if" then compound (branchesOfChoice next below (← Reader.steps))
    else if token.isWord "while" then compound do
      let condition ← below.list false
      return .loop false condition (← loopBody next below)
    else if token.isWord "until" then compound do
      let condition ← below.list false
      return .loop true condition (← loopBody next below)
    else if token.isWord "for" then compound (eachCommand next below)
    else if token.isWord "case" then compound (selectCommand next below)
    else if token.endsList || token.isWord "!" then failure
    else
      Reader.putBack token
      simpleFrom next below line (← Reader.steps) [] [] []

end Commands

def level : (depth : Nat) → Level
  | 0 => ⟨failure, failure, fun _ => failure⟩
  | depth + 1 =>
    let below := level depth
    let next := readToken below
    let command := oneCommand next below
    ⟨next, command, list next command⟩

/-- The commands of a text line by line, and whether all of it makes sense. -/
def linesFrom (top : Level) : (fuel : Nat) → Source → List Command × Bool
  | 0, _ => ([], false)
  | fuel + 1, source =>
    let reading : Reader (Option Command) := do
      Reader.lineBreaks top.next
      match ← Reader.peek top.next with
      | .end_ => return none
      | _ => return some (← lineFrom top.next top.command (← Reader.steps))
    match reading.run source with
    | none => ([], false)
    | some (none, _) => ([], true)
    | some (some command, source) =>
      let rest := linesFrom top fuel source
      (command :: rest.1, rest.2)

/-- A script: what it says, line by line, and whether its end makes sense. -/
structure Script where
  lines : List Command
  isWhole : Bool

def Script.ofText (t : Text) : Script :=
  let found := linesFrom (level (t.length + 2)) (t.length + 2) (.ofText t 1)
  ⟨found.1, found.2⟩

end ParameterManual.Shell
