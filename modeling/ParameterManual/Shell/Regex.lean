import ParameterManual.Shell.Pattern

/-!
# Regular expressions

Expressions in the basic and in the extended spelling. A search finds the
leftmost match and of those there the longest, with the parts of the text
that its groups matched.
-/

set_option autoImplicit false

namespace ParameterManual.Shell

inductive Regex where
  | empty
  | char (c : Char)
  | any
  | set (s : CharSet)
  | lineStart
  | lineEnd
  | wordStart
  | wordEnd
  | wordEdge
  | group (n : Nat) (r : Regex)
  | both (a b : Regex)
  | either (a b : Regex)
  | many (r : Regex) (least : Nat) (most : Option Nat)
  | back (n : Nat)
  deriving Inhabited

namespace Regex

/-- A place in a text and the parts that groups have matched so far. -/
structure Place where
  position : Nat
  groups : List (Nat × Nat × Nat)
  deriving Inhabited

structure Subject where
  text : Array Char
  ignoresCase : Bool

def isWordChar (c : Char) : Bool := Text.isNameChar c

def Subject.isWordAt (s : Subject) (i : Nat) : Bool := s.text[i]?.any isWordChar

def Subject.isWordBefore (s : Subject) (i : Nat) : Bool := i != 0 && s.isWordAt (i - 1)

def Subject.same (s : Subject) (c d : Char) : Bool :=
  c == d || (s.ignoresCase && c.toLower == d.toLower)

def Subject.setHolds (s : Subject) (set : CharSet) (c : Char) : Bool :=
  if s.ignoresCase then
    (set.members.any (·.holds c.toLower) || set.members.any (·.holds c.toUpper)) != set.isNegated
  else set.holds c

def step (s : Subject) (p : Place) (accepts : Char → Bool) : List Place :=
  match s.text[p.position]? with
  | some c => if accepts c then [{ p with position := p.position + 1 }] else []
  | none => []

def check (p : Place) (b : Bool) : List Place := if b then [p] else []

/-- Repetitions, the longer ones first. One that matches nothing ends them. -/
def repeats (one : Place → List Place) : (fuel : Nat) → (least : Nat) → (most : Option Nat) →
    Place → List Place
  | 0, _, _, p => [p]
  | fuel + 1, least, most, p =>
    let more := if most = some 0 then []
      else ((one p).filter (fun q => q.position != p.position || least != 0)).flatMap
        (repeats one fuel (least - 1) (most.map (· - 1)))
    more ++ if least = 0 then [p] else []

def slice (s : Subject) (first last : Nat) : List Char :=
  (s.text.extract first last).toList

def ends_ (s : Subject) : Regex → Place → List Place
  | empty, p => [p]
  | char c, p => step s p (s.same c)
  | any, p => step s p (fun _ => true)
  | set members, p => step s p (s.setHolds members)
  | lineStart, p => check p (p.position == 0)
  | lineEnd, p => check p (p.position == s.text.size)
  | wordStart, p => check p (!s.isWordBefore p.position && s.isWordAt p.position)
  | wordEnd, p => check p (s.isWordBefore p.position && !s.isWordAt p.position)
  | wordEdge, p => check p (s.isWordBefore p.position != s.isWordAt p.position)
  | group n r, p =>
    (ends_ s r p).map (fun q => { q with groups := (n, p.position, q.position) :: q.groups })
  | both a b, p => (ends_ s a p).flatMap (ends_ s b)
  | either a b, p => ends_ s a p ++ ends_ s b p
  | many r least most, p => repeats (ends_ s r) (s.text.size + least + 1) least most p
  | back n, p =>
    match p.groups.lookup n with
    | none => []
    | some (first, last) =>
      let part := slice s first last
      let here := slice s p.position (p.position + part.length)
      if here.length = part.length ∧ (here.zip part).all (fun c => s.same c.1 c.2) then
        [{ p with position := p.position + part.length }]
      else []

def longest (places : List Place) : Option Place :=
  places.foldl (fun best p =>
    match best with
    | some q => if q.position < p.position then some p else best
    | none => some p) none

structure Match where
  first : Nat
  last : Nat
  groups : List (Nat × Nat × Nat)

def searchFrom (r : Regex) (s : Subject) : (fuel : Nat) → Nat → Option Match
  | 0, _ => none
  | fuel + 1, i =>
    if s.text.size < i then none
    else
      match longest (ends_ s r ⟨i, []⟩) with
      | some p => some ⟨i, p.position, p.groups⟩
      | none => searchFrom r s fuel (i + 1)

def search (r : Regex) (s : Subject) (position : Nat) : Option Match :=
  searchFrom r s (s.text.size + 2) position

/-! ## Spelling -/

def space : CharSet := ⟨false, [.ofClass "space".toList]⟩

def word : CharSet := ⟨false, [.ofClass "alnum".toList, .range '_' '_']⟩

def negated (s : CharSet) : CharSet := { s with isNegated := !s.isNegated }

def letterEscape? (c : Char) : Option Regex :=
  match c with
  | 'w' => some (.set word)
  | 'W' => some (.set (negated word))
  | 's' => some (.set space)
  | 'S' => some (.set (negated space))
  | 'b' => some .wordEdge
  | '<' => some .wordStart
  | '>' => some .wordEnd
  | 'n' => some (.char '\n')
  | 't' => some (.char '\t')
  | _ => none

def bracket? (t : List Char) : Option (CharSet × List Char) :=
  let (isNegated, t) := match t with
    | '^' :: r => (true, r)
    | _ => (false, t)
  (setMembers (t.length + 1) true (t.map (fun c => (c, false)))).map (fun found =>
    (⟨isNegated, found.1⟩, found.2.map Prod.fst))

structure Reading where
  rest : List Char
  groups : Nat

abbrev Parser := StateT Reading Option

def advance (n : Nat) : Parser Unit := modify (fun s => { s with rest := s.rest.drop n })

/-- A sign that means something with or without a backslash, by spelling. -/
def startsSign (extended : Bool) (c : Char) (t : List Char) : Bool :=
  if extended then t.head? == some c else t.take 2 == ['\\', c]

def signLength (extended : Bool) : Nat := if extended then 1 else 2

def takeNumber : Parser (Option Nat) := do
  let digits := (← get).rest.takeWhile Text.isDigit
  advance digits.length
  return if digits.isEmpty then none
    else some (digits.foldl (fun n c => 10 * n + (c.toNat - '0'.toNat)) 0)

def repetition (extended : Bool) : (fuel : Nat) → Regex → Parser Regex
  | 0, r => return r
  | fuel + 1, r => do
    let t := (← get).rest
    let n := signLength extended
    if t.head? = some '*' then advance 1; repetition extended fuel (.many r 0 none)
    else if startsSign extended '+' t then advance n; repetition extended fuel (.many r 1 none)
    else if startsSign extended '?' t then advance n; repetition extended fuel (.many r 0 (some 1))
    else if startsSign extended '\x7b' t then
      advance n
      let least ← takeNumber
      let most ← if (← get).rest.head? = some ',' then do
          advance 1
          takeNumber
        else pure least
      if !startsSign extended '\x7d' (← get).rest then failure
      advance n
      repetition extended fuel (.many r (least.getD 0) most)
    else return r

def endsHere (extended : Bool) (t : List Char) : Bool :=
  extended || t.isEmpty || startsSign false ')' t || startsSign false '|' t

/-- One part without its repetition; the flag says that it comes first. -/
def part (extended : Bool) (inner : Parser Regex) (isFirst : Bool) : Parser Regex := do
  match (← get).rest with
  | [] => failure
  | c :: t =>
    let n := signLength extended
    if startsSign extended '(' (c :: t) then
      advance n
      let k := (← get).groups + 1
      modify (fun s => { s with groups := k })
      let r ← inner
      if !startsSign extended ')' (← get).rest then failure
      advance n
      return .group k r
    advance 1
    if c = '.' then return .any
    else if c = '[' then
      let some (members, rest) := bracket? t | failure
      modify (fun s => { s with rest })
      return .set members
    else if c = '^' ∧ (extended || isFirst) then return .lineStart
    else if c = '$' ∧ endsHere extended t then return .lineEnd
    else if c = '\\' then
      match t with
      | [] => failure
      | d :: _ =>
        advance 1
        if '1' ≤ d ∧ d ≤ '9' then return .back (d.toNat - '0'.toNat)
        else return (letterEscape? d).getD (.char d)
    else return .char c

def endsPart (extended : Bool) (t : List Char) : Bool :=
  t.isEmpty || startsSign extended ')' t || startsSign extended '|' t

def parts (extended : Bool) (inner : Parser Regex) : (fuel : Nat) → (isFirst : Bool) →
    Parser Regex
  | 0, _ => return .empty
  | fuel + 1, isFirst => do
    let t := (← get).rest
    if endsPart extended t then return .empty
    match ← part extended inner isFirst with
    | .lineStart => return .both .lineStart (← parts extended inner fuel true)
    | one =>
      let one ← repetition extended (t.length + 1) one
      return .both one (← parts extended inner fuel false)

def alternatives (extended : Bool) (inner : Parser Regex) : (fuel : Nat) → Parser Regex
  | 0 => return .empty
  | fuel + 1 => do
    let first ← parts extended inner ((← get).rest.length + 1) true
    if startsSign extended '|' (← get).rest then
      advance (signLength extended)
      return .either first (← alternatives extended inner fuel)
    return first

def expression (extended : Bool) : (fuel : Nat) → Parser Regex
  | 0 => failure
  | fuel + 1 => do
    alternatives extended (expression extended fuel) ((← get).rest.length + 1)

def parse? (extended : Bool) (t : List Char) : Option Regex := do
  let (r, s) ← (expression extended (t.length + 1)).run ⟨t, 0⟩
  if s.rest.isEmpty then some r else none

def literal (t : List Char) : Regex := t.foldr (fun c r => .both (.char c) r) .empty

end Regex

end ParameterManual.Shell
