import ParameterManual.Shell.Script

/-!
# Reading words

The reader of words takes characters from a source text. A word can hold
commands, so a reader of the level below is given: it reads the lists of
commands that stand inside words. Documents are taken out of the text where
they are named, and the lines that they took are counted at the next line end.
-/

set_option autoImplicit false

namespace ParameterManual.Shell

inductive Token where
  | word (w : Word)
  | redirect (descriptor : Option Nat) (direction : Direction)
  /-- The name of a document follows. -/
  | document (descriptor : Option Nat) (dropsTabs : Bool)
  | newline
  | next
  | branchEnd
  | background
  | andThen
  | orElse
  | pipe
  | open_
  | close
  | end_

structure Source where
  rest : Text
  line : Nat
  taken : Nat
  /-- A token that was looked at and not used. -/
  token : Option Token

abbrev Reader := StateT Source Option

/-- The readers of what stands inside a pair of brackets: of tokens, of one
command and of a list of commands. -/
structure Level where
  next : Reader Token
  command : Reader Command
  list : (mayBeEmpty : Bool) → Reader Command

namespace Source

def ofText (t : Text) (line : Nat) : Source := ⟨t, line, 0, none⟩

def skip (s : Source) : Source :=
  match s.rest with
  | [] => s
  | c :: t => { s with rest := t, line := if c = '\n' then s.line + 1 else s.line }

end Source

namespace Reader

def rest : Reader Text := return (← get).rest

def skip : Reader Unit := modify Source.skip

def drop (n : Nat) : Reader Unit :=
  modify (fun s => (List.range n).foldl (fun s _ => s.skip) s)

def takeWhile (p : Char → Bool) : Reader Text := do
  let taken := (← rest).takeWhile p
  drop taken.length
  return taken

end Reader

inductive Close where
  | word
  | doubleQuote
  | brace (isQuoted : Bool)
  | sum
  | document
  deriving DecidableEq, Repr

def Close.isQuoted : Close → Bool
  | .word => false
  | .brace isQuoted => isQuoted
  | _ => true

def endsWord (c : Char) : Bool :=
  c == ' ' || c == '\t' || c == '\n' || c == ';' || c == '&' || c == '|' || c == '<' ||
    c == '>' || c == '(' || c == ')'

/-- Whether a backslash between double quotes takes the next character. -/
def Close.escapes (close : Close) (c : Char) : Bool :=
  c == '$' || c == '\x60' || c == '\\' ||
    match close with
    | .doubleQuote => c == '"'
    | .brace _ => c == '"' || c == '\x7d'
    | _ => false

def isSpecialName (c : Char) : Bool :=
  c == '@' || c == '*' || c == '#' || c == '?' || c == '-' || c == '$' || c == '!'

def parameterName (inBraces : Bool) (t : Text) : Text :=
  match t with
  | [] => []
  | c :: _ =>
    if isNameStart c then t.takeWhile Text.isNameChar
    else if Text.isDigit c then if inBraces then t.takeWhile Text.isDigit else [c]
    else if isSpecialName c then [c]
    else []

def substitution (below : Level) : Reader Command := do
  let command ← below.list true
  match ← below.next with
  | .close => return command
  | _ => failure

/-- The text up to a closing backquote and what follows it. Backslashes in
front of some characters are dropped. -/
def backquoted (isQuoted : Bool) : Text → Option (Text × Text)
  | [] => none
  | c :: t =>
    if c = '\x60' then some ([], t)
    else if c = '\\' then
      match t with
      | d :: r =>
        (backquoted isQuoted r).map (fun b =>
          if d = '\x60' ∨ d = '\\' ∨ d = '$' ∨ (isQuoted ∧ d = '"') then (d :: b.1, b.2)
          else ('\\' :: d :: b.1, b.2))
      | [] => none
    else (backquoted isQuoted t).map (fun b => (c :: b.1, b.2))

def wholeText (below : Level) (t : Text) : Reader Command := do
  let reading : Reader Command := do
    let command ← below.list true
    match ← below.next with
    | .end_ => return command
    | _ => failure
  return (← reading.run (.ofText t (← get).line)).1

def choice? (c : Char) : Option Choice :=
  match c with
  | '-' => some .default_
  | '=' => some .assign
  | '?' => some .require
  | '+' => some .alternative
  | _ => none

/-- Reads up to the closing brace, and gives a piece that cannot be used. -/
def misnamedParameter (nested : Close → Reader Word) (isQuoted : Bool) : Reader Piece := do
  let _ ← nested (.brace isQuoted)
  return .misnamed

def bracedFrom (nested : Close → Reader Word) (isQuoted : Bool) (name : Text) : Reader Piece := do
  let choice (kind? : Option Choice) (coversEmpty : Bool) (n : Nat) : Reader Piece := do
    match kind? with
    | none => misnamedParameter nested isQuoted
    | some kind =>
      Reader.drop n
      return .choice name kind coversEmpty (← nested (.brace isQuoted)) isQuoted
  match ← Reader.rest with
  | '\x7d' :: _ => Reader.skip; return .parameter name isQuoted
  | ':' :: c :: _ => choice (choice? c) true 2
  | c :: d :: _ =>
    if c = '#' ∨ c = '%' then
      Reader.drop (if c = d then 2 else 1)
      return .trimmed name (c == '%') (c == d) (← nested (.brace false)) isQuoted
    else choice (choice? c) false 1
  | _ => failure

def braced (nested : Close → Reader Word) (isQuoted : Bool) : Reader Piece := do
  let t ← Reader.rest
  let name := parameterName true t
  let counted := parameterName true (t.drop 1)
  if t.head? = some '#' ∧ !counted.isEmpty ∧ (t.drop (counted.length + 1)).head? = some '\x7d' then
    Reader.drop (counted.length + 2)
    return .length counted isQuoted
  else if name.isEmpty then misnamedParameter nested isQuoted
  else
    Reader.drop name.length
    bracedFrom nested isQuoted name

def dollar (below : Level) (nested : Close → Reader Word) (isQuoted : Bool) : Reader Piece := do
  match ← Reader.rest with
  | '(' :: '(' :: _ => Reader.drop 2; return .sum (← nested .sum) isQuoted
  | '(' :: _ => Reader.skip; return .output (← substitution below) isQuoted
  | '\x7b' :: _ => Reader.skip; braced nested isQuoted
  | t =>
    let name := parameterName false t
    if name.isEmpty then return .char '$' isQuoted
    Reader.drop name.length
    return .parameter name isQuoted

/-- Whether a word is all arguments and no more, so that it may be nothing. -/
def isArguments (w : Word) : Bool :=
  match w with
  | [.parameter ['@'] _] => true
  | _ => false

/-- The pieces up to the end of a part of a word. In a sum, brackets that are
open are counted. -/
def pieces (below : Level) : (fuel : Nat) → Close → (opened : Nat) → Reader Word
  | 0, _, _ => failure
  | fuel + 1, close, opened => do
    let isQuoted := close.isQuoted
    let before (front : Word) : Reader Word := return front ++ (← pieces below fuel close opened)
    match ← Reader.rest with
    | [] => if close = .word ∨ close = .document then return [] else failure
    | c :: t =>
      if close = .word ∧ endsWord c then return []
      Reader.skip
      if c = '\\' then
        match t with
        | [] => before [.char '\\' true]
        | d :: _ =>
          if d = '\n' then
            Reader.skip
            before []
          else if !isQuoted || close.escapes d then
            Reader.skip
            before [.char d true]
          else before [.char '\\' true]
      else if c = '\x27' ∧ !isQuoted then
        let inside ← Reader.takeWhile (· != '\x27')
        if (← Reader.rest).isEmpty then failure
        Reader.skip
        before (.quotes :: inside.map (fun c => .char c true))
      else if c = '"' ∧ close = .doubleQuote then return []
      else if c = '"' ∧ close ≠ .document ∧ close ≠ .sum then
        let inside ← pieces below fuel .doubleQuote 0
        before (if isArguments inside then inside else .quotes :: inside)
      else if c = '$' then
        let piece ← dollar below (fun close => pieces below fuel close 0) isQuoted
        before [piece]
      else if c = '\x60' then
        let some (inside, after) := backquoted isQuoted t | failure
        let command ← wholeText below inside
        Reader.drop (t.length - after.length)
        before [.output command isQuoted]
      else
        match close with
        | .brace _ => if c = '\x7d' then return [] else before [.char c isQuoted]
        | .sum =>
          if c = '(' then
            return .char c true :: (← pieces below fuel close (opened + 1))
          else if c = ')' then
            if opened = 0 then
              match t with
              | ')' :: _ => Reader.skip; return []
              | _ => failure
            else return .char c true :: (← pieces below fuel close (opened - 1))
          else before [.char c true]
        | _ => before [.char c isQuoted]

def readPart (below : Level) (close : Close) : Reader Word := do
  pieces below ((← Reader.rest).length + 1) close 0

def skipBlanks : (fuel : Nat) → Reader Unit
  | 0 => return
  | fuel + 1 => do
    match ← Reader.rest with
    | ' ' :: _ => Reader.skip; skipBlanks fuel
    | '\t' :: _ => Reader.skip; skipBlanks fuel
    | '\\' :: '\n' :: _ => Reader.drop 2; skipBlanks fuel
    | '#' :: _ => let _ ← Reader.takeWhile (· != '\n')
    | _ => return

def signs : List (String × Token) := [
  ("\n", .newline), (";;", .branchEnd), (";", .next), ("&&", .andThen), ("&", .background),
  ("||", .orElse), ("|", .pipe), ("(", .open_), (")", .close)]

def directions : List (String × (Option Nat → Token)) := [
  ("<<-", (.document · true)), ("<<", (.document · false)), ("<&", (.redirect · .duplicate)),
  ("<>", (.redirect · .both)), ("<", (.redirect · .input)), (">>", (.redirect · .append)),
  (">&", (.redirect · .duplicate)), (">|", (.redirect · .replace)), (">", (.redirect · .output))]

def sign? {α : Type} (table : List (String × α)) (t : Text) : Option (Nat × α) :=
  table.findSome? (fun s => if Text.startsWith s.1.toList t then some (s.1.length, s.2) else none)

/-- A redirection, with the descriptor that was written in front. The
standard one of a duplication depends on its sign. -/
def redirection? (descriptor : Option Nat) (t : Text) : Option (Nat × Token) :=
  let standard := if t.head? = some '<' then 0 else 1
  (sign? directions t).map (fun s => (s.1, s.2 (some (descriptor.getD standard))))

def readToken (below : Level) : Reader Token := do
  if let some token := (← get).token then
    modify (fun s => { s with token := none })
    return token
  skipBlanks ((← Reader.rest).length + 1)
  let t ← Reader.rest
  if t.isEmpty then return .end_
  if let some (n, token) := sign? signs t then
    Reader.drop n
    if t.head? = some '\n' then modify (fun s => { s with line := s.line + s.taken, taken := 0 })
    return token
  if let some (n, token) := redirection? none t then
    Reader.drop n
    return token
  let w ← readPart below .word
  match w with
  | [.char d false] =>
    if Text.isDigit d then
      match redirection? (some (d.toNat - '0'.toNat)) (← Reader.rest) with
      | some (n, token) => Reader.drop n; return token
      | none => return .word w
    else return .word w
  | _ => return .word w

def documentLines (dropsTabs : Bool) (delimiter : Text) : List Text → List Text × List Text
  | [] => ([], [])
  | line :: rest =>
    let line := if dropsTabs then line.dropWhile (· == '\t') else line
    if line = delimiter then ([line], rest)
    else
      let found := documentLines dropsTabs delimiter rest
      (line :: found.1, found.2)

/-- Takes a document out of the text behind the line that is being read. -/
def takeDocument (below : Level) (dropsTabs : Bool) (delimiter : Word) : Reader Word := do
  let t ← Reader.rest
  let front := t.takeWhile (· != '\n')
  match t.drop front.length with
  | [] => return []
  | _ :: behind =>
    let mark := Word.letters delimiter
    let (lines, after) := documentLines dropsTabs mark (behind.splitOn '\n')
    let body := if lines.getLast? = some mark then lines.dropLast else lines
    let text := body.flatMap (· ++ ['\n'])
    let text := if lines.getLast? = some mark then text else text.dropLast
    modify (fun s => { s with
      rest := front ++ '\n' :: Text.joined ['\n'] after
      taken := s.taken + lines.length })
    if Word.isPlain delimiter then
      let (w, _) ← (readPart below .document).run (.ofText text (← get).line)
      return w
    else return text.map (fun c => .char c true)

end ParameterManual.Shell
