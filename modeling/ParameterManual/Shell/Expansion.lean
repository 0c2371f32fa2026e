import ParameterManual.Shell.Session

/-!
# Expansion

What a word comes to: parameters, sums and the output of commands are put in,
the unquoted ones of them are split, patterns become the paths that match
them, and quotes are taken off. The output of commands is given by a function
that runs them.
-/

set_option autoImplicit false

namespace ParameterManual.Shell

/-- Whether a character was quoted, written as it is, or put in unquoted. -/
inductive Mark where
  | quoted
  | literal
  | putIn
  deriving DecidableEq, Repr

inductive Item where
  | char (c : Char) (mark : Mark)
  | quotes
  /-- The end of one argument and the start of the next. -/
  | gap
  deriving DecidableEq, Repr

def itemsOfText (isQuoted : Bool) (t : Bytes) : List Item :=
  t.map (fun c => .char c (if isQuoted then .quoted else .putIn))

def joint (s : Session) : Bytes := s.separators.take 1

def textOfItems (s : Session) (items : List Item) : Bytes :=
  items.flatMap (fun
    | .char c _ => [c]
    | .quotes => []
    | .gap => joint s)

def patternOfItems (items : List Item) : Marked :=
  items.filterMap (fun
    | .char c mark => some (c, mark == .quoted)
    | _ => none)

def isNumber (t : Text) : Bool := !t.isEmpty && t.all Text.isDigit

def isAll (name : Text) : Bool := name == ['@'] || name == ['*']

def parameter? (s : Session) (name : Text) : Option Bytes :=
  if name = ['?'] then some (Text.ofNat s.status)
  else if name = ['$'] then some (Text.ofNat s.process)
  else if name = ['!'] then s.job.map (fun _ => Text.ofNat s.jobNumber)
  else if name = ['#'] then some (Text.ofNat s.arguments.length)
  else if name = ['-'] then some s.options
  else if name = ['0'] then some s.name
  else if isAll name then some (Text.joined (joint s) s.arguments)
  else if isNumber name then s.arguments[numberOf name - 1]?
  else s.valueOf? name

def itemsOfArguments (s : Session) (name : Text) (isQuoted : Bool) (change : Bytes → Bytes) :
    List Item :=
  let arguments := s.arguments.map change
  if isQuoted && name == ['*'] then itemsOfText true (Text.joined (joint s) arguments)
  else
    List.flatten ((arguments.map (fun a =>
      (if isQuoted then [.quotes] else []) ++ itemsOfText isQuoted a)).intersperse [.gap])

def requiredParameter (name : Text) : Action Bytes := do
  let s ← get
  match parameter? s name with
  | some t => return t
  | none =>
    if s.hasOption 'u' && !isAll name then Action.fail (name ++ ": parameter not set".toList)
    return []

def itemsOfParameter (name : Text) (isQuoted : Bool) (change : Bytes → Bytes) :
    Action (List Item) := do
  if isAll name then return itemsOfArguments (← get) name isQuoted change
  return itemsOfText isQuoted (change (← requiredParameter name))

/-- Characters as they are when they come out of a word inside braces. -/
def asPutIn (items : List Item) : List Item :=
  items.map (fun
    | .char c .literal => .char c .putIn
    | item => item)

def sumFault (expression : Bytes) : SumFault → Bytes
  | .malformed => "arithmetic expression: expecting primary: \"".toList ++ expression ++ ['"']
  | .overlong => "arithmetic expression: expecting EOF: \"".toList ++ expression ++ ['"']
  | .divisionByZero => "arithmetic expression: division by zero: \"".toList ++ expression ++ ['"']
  | .notNumber t => "Illegal number: ".toList ++ t

def sumValue (expression : Bytes) : Action Bytes := do
  let s ← get
  match sumOf (s.valueOf? ·) expression with
  | .error fault => Action.fail (sumFault expression fault)
  | .ok (n, assigned) => do
    for (name, value) in assigned do Action.setVariable name (ofInt value)
    return ofInt n

def withoutLineEnds (t : Bytes) : Bytes := (t.reverse.dropWhile (· == '\n')).reverse

def withHome (s : Session) (w : Word) : Word :=
  match w with
  | .char '~' false :: rest =>
    let user := rest.takeWhile (fun
      | .char '/' false => false
      | _ => true)
    match Word.plain? user with
    | some [] =>
      match s.valueOf? "HOME".toList with
      | some home => home.map (fun c => .char c true) ++ rest
      | none => w
    | some name =>
      if name = "root".toList then "/root".toList.map (fun c => .char c true) ++ rest.drop 4
      else w
    | none => w
  | _ => w

section Items

variable (capture : Command → Action Bytes) (inner : Word → Action (List Item))

def itemsOfChoice (name : Text) (choice : Choice) (coversEmpty : Bool) (word : Word)
    (isQuoted : Bool) : Action (List Item) := do
  let s ← get
  let isSet := match parameter? s name with
    | some t => !(coversEmpty && t.isEmpty)
    | none => false
  let value := itemsOfParameter name isQuoted id
  let word := if isQuoted then word else withHome s word
  match choice with
  | .default_ => if isSet then value else return asPutIn (← inner word)
  | .alternative => if isSet then return asPutIn (← inner word) else return []
  | .assign =>
    if isSet then value
    else
      let t := textOfItems s (← inner word)
      if !isName name then Action.fail (name ++ ": bad variable name".toList)
      Action.setVariable name t
      return itemsOfText isQuoted t
  | .require =>
    if isSet then value
    else
      let t := textOfItems s (← inner word)
      let standard := if coversEmpty then "parameter not set or null" else "parameter not set"
      Action.fail (name ++ ": ".toList ++ if word.isEmpty then standard.toList else t)

def itemsOfPiece : Piece → Action (List Item)
  | .char c isQuoted => return [.char c (if isQuoted then .quoted else .literal)]
  | .quotes => return [.quotes]
  | .parameter name isQuoted => itemsOfParameter name isQuoted id
  | .length name isQuoted => do
    return itemsOfText isQuoted (Text.ofNat (← requiredParameter name).length)
  | .choice name choice coversEmpty word isQuoted =>
    itemsOfChoice inner name choice coversEmpty word isQuoted
  | .trimmed name atEnd isLongest pattern isQuoted => do
    let p := Pattern.ofMarked (patternOfItems (← inner pattern))
    itemsOfParameter name isQuoted (if atEnd then p.trimEnd isLongest else p.trimStart isLongest)
  | .output command isQuoted => return itemsOfText isQuoted (withoutLineEnds (← capture command))
  | .sum expression isQuoted => do
    let t := textOfItems (← get) (← inner expression)
    return itemsOfText isQuoted (← sumValue t)
  | .misnamed => Action.fail "Bad substitution".toList

end Items

def deepest : Nat := 1000

def itemsOf (capture : Command → Action Bytes) : (depth : Nat) → Word → Action (List Item)
  | 0, _ => return []
  | depth + 1, w =>
    return (← w.mapM (itemsOfPiece capture (itemsOf capture depth))).flatten

/-- The fields of what was put in, one character after another; the field
under way has its last character first. The flag says that blanks have ended
a field and nothing has come since. -/
def splitFrom (separators : Bytes) : (field : Option Marked) → (afterBlank : Bool) → List Item →
    List Marked
  | field, _, [] => (field.map List.reverse).toList
  | field, afterBlank, item :: rest =>
    match item with
    | .quotes => splitFrom separators (some (field.getD [])) false rest
    | .gap => (field.map List.reverse).toList ++ splitFrom separators none false rest
    | .char c mark =>
      if mark = .putIn ∧ separators.contains c then
        if c = ' ' ∨ c = '\t' ∨ c = '\n' then
          (field.map List.reverse).toList ++
            splitFrom separators none (afterBlank || field.isSome) rest
        else if field.isSome || !afterBlank then
          (field.getD []).reverse :: splitFrom separators none false rest
        else splitFrom separators none false rest
      else splitFrom separators (some ((c, mark == .quoted) :: field.getD [])) false rest

section Words

variable (capture : Command → Action Bytes)

def expand (w : Word) : Action (List Bytes) := do
  let items ← itemsOf capture deepest (withHome (← get) w)
  let s ← get
  return (splitFrom s.separators none false items).flatMap (fun field =>
    match if s.hasOption 'f' then [] else paths s.tree field with
    | [] => [field.map Prod.fst]
    | found => found)

def expandText (w : Word) : Action Bytes := do
  let items ← itemsOf capture deepest (withHome (← get) w)
  return textOfItems (← get) items

/-- The value of an assignment. A tilde can stand behind each colon too. -/
def expandValue (w : Word) : Action Bytes := do
  let s ← get
  let items ← itemsOf capture deepest (([.char ':' false] : Word).intercalate
    ((Word.parts ':' w).map (withHome s)))
  return textOfItems (← get) items

def expandPattern (w : Word) : Action Pattern := do
  return Pattern.ofMarked (patternOfItems (← itemsOf capture deepest w))

end Words

end ParameterManual.Shell
