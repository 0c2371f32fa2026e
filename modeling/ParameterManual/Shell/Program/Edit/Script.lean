import ParameterManual.Shell.Program.Options
import ParameterManual.Shell.Regex

/-!
# Editing scripts

Editing commands stand in one list, each with the lines that it is for. A
block is a mark where it starts and one where it ends.
-/

set_option autoImplicit false

namespace ParameterManual.Shell.Edit

inductive Address where
  | line (n : Nat)
  | last
  | step (first step : Nat)
  | matching (r : Regex) (ignoresCase : Bool)
  /-- So many lines after the first one of a range. -/
  | after (n : Nat)
  deriving Inhabited

structure Selection where
  first : Option Address
  last : Option Address
  isNegated : Bool

structure Casing where
  /-- For the next letter only. -/
  next : Option Bool
  /-- For all that follow; true stands for large letters. -/
  all : Option Bool

inductive Part where
  | text (t : Bytes)
  | group (n : Nat)
  | casing (change : Casing → Casing)

structure Substitution where
  expression : Regex
  parts : List Part
  isGlobal : Bool
  /-- The first match that is replaced, counted from one. -/
  from_ : Nat
  prints : Bool
  ignoresCase : Bool
  target : Option Bytes

inductive Step where
  | blockStart
  | blockEnd
  | label (name : Bytes)
  | branch (name : Bytes)
  | branchIfDone (name : Bytes)
  | branchUnlessDone (name : Bytes)
  | substitute (s : Substitution)
  | translate (pairs : List (Char × Char))
  | append (t : Bytes)
  | insert (t : Bytes)
  | change (t : Bytes)
  | read (path : Bytes)
  | write (path : Bytes)
  | quit (status : Nat) (prints : Bool)
  /-- The commands that one letter names. -/
  | letter (c : Char)

abbrev EditScript := Array (Selection × Step)

/-! ## Reading scripts -/

abbrev Parser := StateT Bytes Option

def takeWhile (p : Char → Bool) : Parser Bytes := do
  let t := (← get).takeWhile p
  modify (·.drop t.length)
  return t

def isBlank (c : Char) : Bool := c == ' ' || c == '\t'

/-- The text up to a delimiter, which is read too. A backslash in front of the
delimiter is dropped, other ones stay; brackets hide it. -/
def delimited (d : Char) : (fuel : Nat) → (inSet : Bool) → Parser Bytes
  | 0, _ => failure
  | fuel + 1, inSet => do
    match ← get with
    | [] => failure
    | c :: t =>
      set t
      if c = d ∧ !inSet then return []
      else if c = '\\' ∧ !inSet then
        match t with
        | [] => failure
        | e :: r =>
          set r
          let rest ← delimited d fuel inSet
          return if e = d then e :: rest else c :: e :: rest
      else
        let inSet := if c = '[' ∧ !inSet then t.contains ']' else inSet && c != ']'
        return c :: (← delimited d fuel inSet)

def readDelimited (d : Char) (hasSets : Bool) : Parser Bytes := do
  let t ← get
  if hasSets then delimited d (t.length + 1) false
  else plain d (t.length + 1)
where
  /-- In a replacement brackets mean nothing. -/
  plain (d : Char) : (fuel : Nat) → Parser Bytes
    | 0 => failure
    | fuel + 1 => do
      match ← get with
      | [] => failure
      | c :: t =>
        set t
        if c = d then return []
        else if c = '\\' then
          match t with
          | [] => failure
          | e :: r =>
            set r
            let rest ← plain d fuel
            return if e = d ∧ d ≠ '&' then e :: rest else c :: e :: rest
        else return c :: (← plain d fuel)

def readNumber : Parser (Option Nat) := return natural? (← takeWhile Text.isDigit)

def readAddress (extended : Bool) : Parser (Option Address) := do
  match ← get with
  | '$' :: t => set t; return some .last
  | '/' :: t =>
    set t
    let some r := Regex.parse? extended (← readDelimited '/' true) | failure
    match ← get with
    | 'I' :: t => set t; return some (.matching r true)
    | _ => return some (.matching r false)
  | '\\' :: d :: t =>
    set t
    let some r := Regex.parse? extended (← readDelimited d true) | failure
    return some (.matching r false)
  | '+' :: t => set t; return some (.after ((← readNumber).getD 0))
  | _ =>
    match ← readNumber with
    | none => return none
    | some n =>
      match ← get with
      | '~' :: t => set t; return some (.step n ((← readNumber).getD 0))
      | _ => return some (.line n)

def readSelection (extended : Bool) : Parser Selection := do
  let first ← readAddress extended
  let _ ← takeWhile isBlank
  let last ← match first, ← get with
    | some _, ',' :: t => do
      set t
      let _ ← takeWhile isBlank
      match ← readAddress extended with
      | some a => pure (some a)
      | none => failure
    | _, _ => pure none
  let _ ← takeWhile (fun c => isBlank c)
  let isNegated := (← get).head? == some '!'
  let _ ← takeWhile (fun c => c == '!' || isBlank c)
  return ⟨first, last, isNegated⟩

def replacementParts : Bytes → List Part
  | [] => []
  | '&' :: t => .group 0 :: replacementParts t
  | '\\' :: c :: t =>
    (if Text.isDigit c then .group (c.toNat - '0'.toNat)
      else if c = 'n' then .text ['\n']
      else if c = 't' then .text ['\t']
      else if c = 'U' then .casing (fun _ => ⟨none, some true⟩)
      else if c = 'L' then .casing (fun _ => ⟨none, some false⟩)
      else if c = 'E' then .casing (fun _ => ⟨none, none⟩)
      else if c = 'u' then .casing ({ · with next := some true })
      else if c = 'l' then .casing ({ · with next := some false })
      else .text [c]) :: replacementParts t
  | c :: t => .text [c] :: replacementParts t

/-- The text up to the end of a line; a backslash joins the next one. -/
def lineText : (fuel : Nat) → Parser Bytes
  | 0 => return []
  | fuel + 1 => do
    match ← get with
    | [] => return []
    | '\n' :: t => set t; return []
    | '\\' :: c :: t => set t; return c :: (← lineText fuel)
    | c :: t => set t; return c :: (← lineText fuel)

def readText : Parser Bytes := do
  let _ ← takeWhile isBlank
  match ← get with
  | '\\' :: t =>
    set t
    let blanks ← takeWhile isBlank
    match ← get with
    | '\n' :: t => set t
    | _ => set (blanks ++ (← get))
  | _ => pure ()
  return (← lineText ((← get).length + 1)) ++ ['\n']

def readWord : Parser Bytes := do
  let _ ← takeWhile isBlank
  let t ← takeWhile (fun c => c != '\n' && c != ';')
  return (t.reverse.dropWhile isBlank).reverse

def readName : Parser Bytes := do
  let _ ← takeWhile isBlank
  takeWhile (· != '\n')

def readSubstitution (extended : Bool) : Parser Step := do
  let d :: t ← get | failure
  set t
  let pattern ← readDelimited d true
  let replacement ← readDelimited d false
  let flags ← takeWhile (fun c => c == 'g' || c == 'p' || c == 'I' || c == 'i' || Text.isDigit c)
  let target ← match ← get with
    | 'w' :: t => do
      set t
      pure (some (← readName))
    | _ => pure none
  let some r := Regex.parse? extended pattern | failure
  return .substitute {
    expression := r
    parts := replacementParts replacement
    isGlobal := flags.contains 'g'
    from_ := (natural? (flags.filter Text.isDigit)).getD 1
    prints := flags.contains 'p'
    ignoresCase := flags.contains 'i' || flags.contains 'I'
    target }

def withoutEscapes : Bytes → Bytes
  | '\\' :: 'n' :: t => '\n' :: withoutEscapes t
  | '\\' :: c :: t => c :: withoutEscapes t
  | c :: t => c :: withoutEscapes t
  | [] => []

def readTranslation : Parser Step := do
  let d :: t ← get | failure
  set t
  let first := withoutEscapes (← readDelimited d false)
  let second := withoutEscapes (← readDelimited d false)
  if first.length != second.length then failure
  return .translate (first.zip second)

def readStep (extended : Bool) (c : Char) : Parser Step := do
  if c = '\x7b' then return .blockStart
  else if c = '\x7d' then return .blockEnd
  else if c = ':' then return .label (← readWord)
  else if c = 'b' then return .branch (← readWord)
  else if c = 't' then return .branchIfDone (← readWord)
  else if c = 'T' then return .branchUnlessDone (← readWord)
  else if c = 's' then readSubstitution extended
  else if c = 'y' then readTranslation
  else if c = 'a' then return .append (← readText)
  else if c = 'i' then return .insert (← readText)
  else if c = 'c' then return .change (← readText)
  else if c = 'r' then return .read (← readName)
  else if c = 'w' then return .write (← readName)
  else if c = 'q' ∨ c = 'Q' then
    let _ ← takeWhile isBlank
    return .quit ((← readNumber).getD 0) (c == 'q')
  else if "=dDgGhHnNpPxlzF".toList.contains c then return .letter c
  else failure

def readSteps (extended : Bool) : (fuel : Nat) → Parser (List (Selection × Step))
  | 0 => failure
  | fuel + 1 => do
    let _ ← takeWhile (fun c => isBlank c || c == '\n' || c == ';')
    match ← get with
    | [] => return []
    | '#' :: _ => do
      let _ ← takeWhile (· != '\n')
      readSteps extended fuel
    | _ => do
      let selection ← readSelection extended
      let c :: t ← get | failure
      set t
      let step ← readStep extended c
      return (selection, step) :: (← readSteps extended fuel)

/-- How many blocks are open at the end; none if one ends before it starts. -/
def openBlocks : (depth : Nat) → List Step → Option Nat
  | depth, [] => some depth
  | depth, .blockStart :: rest => openBlocks (depth + 1) rest
  | 0, .blockEnd :: _ => none
  | depth + 1, .blockEnd :: rest => openBlocks depth rest
  | depth, _ :: rest => openBlocks depth rest

def branchTarget? : Step → Option Bytes
  | .branch name => some name
  | .branchIfDone name => some name
  | .branchUnlessDone name => some name
  | _ => none

def parse? (extended : Bool) (t : Bytes) : Option EditScript := do
  let (found, _) ← (readSteps extended (t.length + 1)).run t
  let steps := found.map Prod.snd
  let labels := steps.filterMap (fun
    | .label name => some name
    | _ => none)
  let isWhole := openBlocks 0 steps == some 0 &&
    (steps.filterMap branchTarget?).all (fun name => name.isEmpty || labels.contains name)
  if isWhole then some found.toArray else none

end ParameterManual.Shell.Edit
