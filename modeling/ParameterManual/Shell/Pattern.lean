import ParameterManual.Shell.Bytes

/-!
# Patterns

A pattern is made of characters of which some are quoted and stand for
themselves. The others match any text, any one character, or one character
of a set.
-/

set_option autoImplicit false

namespace ParameterManual.Shell

abbrev Marked := List (Char × Bool)

def classes : List (String × (Char → Bool)) := [
  ("alpha", Char.isAlpha), ("digit", Char.isDigit), ("alnum", Char.isAlphanum),
  ("upper", Char.isUpper), ("lower", Char.isLower),
  ("space", fun c => c == ' ' || (9 ≤ c.toNat && c.toNat ≤ 13)),
  ("blank", fun c => c == ' ' || c == '\t'),
  ("punct", fun c => 33 ≤ c.toNat && c.toNat ≤ 126 && !c.isAlphanum),
  ("print", fun c => 32 ≤ c.toNat && c.toNat ≤ 126),
  ("graph", fun c => 33 ≤ c.toNat && c.toNat ≤ 126),
  ("cntrl", fun c => c.toNat < 32 || c.toNat == 127),
  ("xdigit", fun c => c.isDigit || ('a' ≤ c && c ≤ 'f') || ('A' ≤ c && c ≤ 'F'))]

inductive Member where
  | range (first last : Char)
  | ofClass (name : Text)
  deriving DecidableEq, Repr

def isInClass (name : Text) (c : Char) : Bool :=
  classes.any (fun k => k.1.toList == name && k.2 c)

def Member.holds (c : Char) : Member → Bool
  | .range first last => first ≤ c && c ≤ last
  | .ofClass name => isInClass name c

structure CharSet where
  isNegated : Bool
  members : List Member
  deriving DecidableEq, Repr

def CharSet.holds (s : CharSet) (c : Char) : Bool := s.members.any (·.holds c) != s.isNegated

/-- The name of a class at the start of a text, after the opening signs. -/
def className? (t : Text) : Option (Text × Nat) :=
  let name := t.takeWhile Char.isLower
  match t.drop name.length with
  | ':' :: ']' :: _ =>
    if classes.any (fun k => k.1.toList == name) then some (name, name.length + 2) else none
  | _ => none

/-- The members of a set up to its closing bracket, and what follows. A
bracket that comes first is a member. -/
def setMembers : (fuel : Nat) → (isFirst : Bool) → Marked → Option (List Member × Marked)
  | 0, _, _ => none
  | fuel + 1, isFirst, p =>
    let add (m : Member) (rest : Marked) : Option (List Member × Marked) :=
      (setMembers fuel false rest).map (fun r => (m :: r.1, r.2))
    match p with
    | [] => none
    | (']', false) :: rest => if isFirst then add (.range ']' ']') rest else some ([], rest)
    | ('[', false) :: (':', false) :: rest =>
      match className? (rest.map Prod.fst) with
      | some (name, n) => add (.ofClass name) (rest.drop n)
      | none => add (.range '[' '[') ((':', false) :: rest)
    | (c, _) :: ('-', false) :: (d, isQuoted) :: rest =>
      if d = ']' ∧ isQuoted = false then add (.range c c) (('-', false) :: (d, isQuoted) :: rest)
      else add (.range c d) rest
    | (c, _) :: rest => add (.range c c) rest

def charSet? (p : Marked) : Option (CharSet × Marked) :=
  match p with
  | ('!', false) :: rest =>
    (setMembers (rest.length + 1) true rest).map (fun r => (⟨true, r.1⟩, r.2))
  | _ => (setMembers (p.length + 1) true p).map (fun r => (⟨false, r.1⟩, r.2))

inductive Atom where
  | any
  | one
  | char (c : Char)
  | set (s : CharSet)
  deriving DecidableEq, Repr

abbrev Pattern := List Atom

def patternFrom : (fuel : Nat) → Marked → Pattern
  | 0, _ => []
  | fuel + 1, p =>
    match p with
    | [] => []
    | ('*', false) :: rest => .any :: patternFrom fuel rest
    | ('?', false) :: rest => .one :: patternFrom fuel rest
    | ('\\', false) :: (c, _) :: rest => .char c :: patternFrom fuel rest
    | ('[', false) :: rest =>
      match charSet? rest with
      | some (s, rest) => .set s :: patternFrom fuel rest
      | none => .char '[' :: patternFrom fuel rest
    | (c, _) :: rest => .char c :: patternFrom fuel rest

def Pattern.ofMarked (p : Marked) : Pattern := patternFrom (p.length + 1) p

def ends : Text → List Text
  | [] => [[]]
  | c :: t => (c :: t) :: ends t

namespace Pattern

def isPlain (p : Pattern) : Bool :=
  p.all (fun
    | .char _ => true
    | _ => false)

def matches_ : Pattern → Text → Bool
  | [], t => t.isEmpty
  | .any :: p, t => (ends t).any (matches_ p)
  | .one :: p, _ :: t => matches_ p t
  | .char c :: p, d :: t => c == d && matches_ p t
  | .set s :: p, d :: t => s.holds d && matches_ p t
  | _, _ => false

def cuts (t : Text) : List Nat := List.range (t.length + 1)

def trimStart (p : Pattern) (isLongest : Bool) (t : Text) : Text :=
  let order := if isLongest then (cuts t).reverse else cuts t
  match order.find? (fun n => p.matches_ (t.take n)) with
  | some n => t.drop n
  | none => t

def trimEnd (p : Pattern) (isLongest : Bool) (t : Text) : Text :=
  let order := if isLongest then cuts t else (cuts t).reverse
  match order.find? (fun n => p.matches_ (t.drop n)) with
  | some n => t.take n
  | none => t

/-- Names that begin with a dot are matched only by patterns that do. -/
def matchesName (p : Pattern) (name : Text) : Bool :=
  (name.head? != some '.' || p.head? == some (.char '.')) && p.matches_ name

end Pattern

/-- The names in a folder; those of the folder itself and of the one above
come with them. -/
def namesIn (tree : FileTree) (folder : Bytes) : List Bytes :=
  match tree.find (if folder.isEmpty then ['.'] else Bytes.toText folder) with
  | .ok (.folder entries) => ['.'] :: ['.', '.'] :: entries.map (fun e => Bytes.ofText e.1)
  | _ => []

def holds (tree : FileTree) (path : Bytes) : Bool := tree.holds (Bytes.toText path)

def isFolder (tree : FileTree) (path : Bytes) : Bool := tree.isFolder (Bytes.toText path)

def isFile (tree : FileTree) (path : Bytes) : Bool := tree.isFile (Bytes.toText path)

/-- The paths that match the parts of a pattern, each part between slashes. -/
def pathsFrom (tree : FileTree) : (lead : Bytes) → List Marked → List Bytes
  | lead, [] => if holds tree lead then [lead] else []
  | lead, part :: rest =>
    let pattern := Pattern.ofMarked part
    let slash := if rest.isEmpty then [] else ['/']
    let names := if pattern.isPlain then
        [pattern.filterMap (fun
          | .char c => some c
          | _ => none)]
      else (namesIn tree lead).filter pattern.matchesName
    names.flatMap (fun name =>
      if !rest.isEmpty && !name.isEmpty && !isFolder tree (lead ++ name) then []
      else pathsFrom tree (lead ++ name ++ slash) rest)

def inOrder (names : List Bytes) : List Bytes := names.mergeSort (fun a b => !decide (b < a))

/-- The paths that a word with pattern characters stands for; none if it has
no such characters or matches nothing. -/
def paths (tree : FileTree) (p : Marked) : List Bytes :=
  if (Pattern.ofMarked p).isPlain then []
  else inOrder (pathsFrom tree [] (p.splitOnP (fun c => c.1 == '/')))

end ParameterManual.Shell
