import ParameterManual.Shell.Program.Options
import ParameterManual.Shell.Regex

/-!
# Searching

Lines of files that match an expression, and how many there are.
-/

set_option autoImplicit false

namespace ParameterManual.Shell.Program

structure Query where
  expressions : List Regex
  ignoresCase : Bool
  isInverted : Bool
  wholeWords : Bool
  wholeLines : Bool

def Query.subject (q : Query) (line : Bytes) : Regex.Subject := ⟨line.toArray, q.ignoresCase⟩

def Query.accepts (q : Query) (s : Regex.Subject) (m : Regex.Match) : Bool :=
  (!q.wholeLines || (m.first == 0 && m.last == s.text.size)) &&
    (!q.wholeWords || (!s.isWordBefore m.first && !s.isWordAt m.last))

/-- The matches of an expression that starts at a position, the long ones too. -/
def Query.matchAt (q : Query) (s : Regex.Subject) (r : Regex) (i : Nat) : Option Regex.Match :=
  let found := (Regex.ends_ s r ⟨i, []⟩).filter (fun p => q.accepts s ⟨i, p.position, []⟩)
  (Regex.longest found).map (fun p => ⟨i, p.position, p.groups⟩)

/-- The first match at or after a position, and of those there the longest. -/
def Query.matchFrom (q : Query) (s : Regex.Subject) : (fuel : Nat) → Nat → Option Regex.Match
  | 0, _ => none
  | fuel + 1, i =>
    if s.text.size < i then none
    else
      let found := q.expressions.filterMap (q.matchAt s · i)
      match found.foldl (fun best m =>
          match best with
          | some b => if b.last < m.last then some m else best
          | none => some m) (none : Option Regex.Match) with
      | some m => some m
      | none => Query.matchFrom q s fuel (i + 1)

def Query.selects (q : Query) (line : Bytes) : Bool :=
  let s := q.subject line
  (q.matchFrom s (line.length + 2) 0).isSome != q.isInverted

def Query.partsFrom (q : Query) (s : Regex.Subject) : (fuel : Nat) → Nat → List Bytes
  | 0, _ => []
  | fuel + 1, i =>
    match q.matchFrom s (s.text.size + 2) i with
    | none => []
    | some m =>
      if m.last = m.first then Query.partsFrom q s fuel (m.first + 1)
      else Regex.slice s m.first m.last :: Query.partsFrom q s fuel m.last

def filesBelow (tree : FileTree) : (fuel : Nat) → Bytes → List Bytes
  | 0, _ => []
  | fuel + 1, path =>
    if isFolder tree path then
      ((namesIn tree path).filter (fun n => n != ['.'] && n != ['.', '.'])).flatMap (fun n =>
        filesBelow tree fuel (if path.endsWithChar '/' then path ++ n else path ++ '/' :: n))
    else [path]

def grepTable : OptionTable := ⟨"grep", "EFGPcvinlLqsowxhHrRazU", "emfABCd", [
  ("extended-regexp", 'E'), ("fixed-strings", 'F'), ("basic-regexp", 'G'), ("count", 'c'),
  ("invert-match", 'v'), ("ignore-case", 'i'), ("line-number", 'n'),
  ("files-with-matches", 'l'), ("files-without-match", 'L'), ("quiet", 'q'), ("silent", 'q'),
  ("no-messages", 's'), ("only-matching", 'o'), ("word-regexp", 'w'), ("line-regexp", 'x'),
  ("no-filename", 'h'), ("with-filename", 'H'), ("recursive", 'r'), ("regexp", 'e'),
  ("max-count", 'm')], 2, false⟩

def searchText (q : Query) (o : Options) (isNamed : Bool) (path b : Bytes) : Action Bool := do
  let name := if path = ['-'] then "(standard input)".toList else path
  let lines := (Bytes.lines b).zipIdx.filter (fun l => q.selects l.1)
  let lines := match (o.value? 'm').bind natural? with
    | some n => lines.take n
    | none => lines
  let lead (separator : Char) (n : Nat) : Bytes :=
    (if isNamed then name ++ [separator] else []) ++
      if o.has 'n' then Text.ofNat (n + 1) ++ [separator] else []
  if o.has 'q' then return !lines.isEmpty
  if o.has 'l' || o.has 'L' then
    if o.has 'l' && !lines.isEmpty || o.has 'L' && lines.isEmpty then Action.put (name ++ ['\n'])
  else if o.has 'c' then
    Action.put ((if isNamed then name ++ [':'] else []) ++ Text.ofNat lines.length ++ ['\n'])
  else if o.has 'o' then
    for (line, n) in lines do
      if !q.isInverted then
        for part in q.partsFrom (q.subject line) (line.length + 2) 0 do
          Action.put (lead ':' n ++ part ++ ['\n'])
  else
    for (line, n) in lines do Action.put (lead ':' n ++ line ++ ['\n'])
  return !lines.isEmpty

def grepWith (kind : Option Char) : Program := grepTable.andThen fun o => do
  let kind := kind <|> o.lastOf? "EFG"
  let given := (o.given.filter (·.1 == 'e')).map Prod.snd
  let (patterns, operands) := match given, o.operands with
    | [], p :: rest => ([p], rest)
    | _, rest => (given, rest)
  if patterns.isEmpty then
    Action.complain "Usage: grep [OPTION]... PATTERNS [FILE]...".toList
    Action.complain "Try 'grep --help' for more information.".toList
    return 2
  let texts := patterns.flatMap (·.splitOn '\n')
  let some expressions := texts.mapM (fun t =>
      if kind = some 'F' then some (Regex.literal t) else Regex.parse? (kind == some 'E') t) | do
    Action.complain "grep: Invalid regular expression".toList
    return 2
  let q : Query := ⟨expressions, o.has 'i', o.has 'v', o.has 'w', o.has 'x'⟩
  let deep := o.has 'r' || o.has 'R'
  let tree := (← get).tree
  let operands := if operands.isEmpty then if deep then [['.']] else [['-']] else operands
  let paths := if deep then operands.flatMap (filesBelow tree 1000) else operands
  let paths := if deep && o.operands.length < 2 && given.isEmpty then
      paths.map (fun p => (Text.afterLead? ['.', '/'] p).getD p)
    else paths
  let isNamed := !o.has 'h' && (o.has 'H' || deep || 1 < operands.length)
  let mut found := false
  let mut ok := true
  for path in paths do
    match ← Action.readFile path with
    | .ok b => if ← searchText q o isNamed path b then found := true
    | .error fault =>
      ok := false
      if !o.has 's' then fileComplaint "grep" path fault
  if found && (ok || o.has 'q') then return 0
  return if ok then 1 else 2

end ParameterManual.Shell.Program
