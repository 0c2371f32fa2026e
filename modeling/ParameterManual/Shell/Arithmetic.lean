import ParameterManual.Text.Basic

/-!
# Arithmetic

Sums are on integers of 64 bits that wrap around. A variable holds the number
that its text spells, and nothing is zero. Only the parts of a sum that are
needed are worked out.
-/

set_option autoImplicit false

namespace ParameterManual.Shell

inductive Operator where
  | times | divide | rest | plus | minus | left | right
  | less | atMost | more | atLeast | equal | unequal
  | bitAnd | bitXor | bitOr
  deriving DecidableEq, Repr

inductive Sum where
  | number (n : Int)
  | variable_ (name : Text)
  | negative (e : Sum)
  | complement (e : Sum)
  | not_ (e : Sum)
  | binary (op : Operator) (a b : Sum)
  | and_ (a b : Sum)
  | or_ (a b : Sum)
  | choose (condition yes no : Sum)
  | assign (name : Text) (op : Option Operator) (e : Sum)
  deriving Inhabited

inductive SumFault where
  | malformed
  /-- A whole sum has more behind it. -/
  | overlong
  | divisionByZero
  | notNumber (t : Text)
  deriving DecidableEq, Repr

def wrap (n : Int) : Int := Int.bmod n (Nat.pow 2 64)

namespace Sum

/-- Numbers of 64 bits are less than this, and not less than its negative. -/
def halfRange : Nat := Nat.pow 2 63

def digitOf? (base : Nat) (c : Char) : Option Nat :=
  let n := if Text.isDigit c then c.toNat - '0'.toNat
    else if 'a' ≤ c ∧ c ≤ 'z' then c.toNat - 'a'.toNat + 10
    else if 'A' ≤ c ∧ c ≤ 'Z' then c.toNat - 'A'.toNat + 10
    else 99
  if n < base then some n else none

/-- The digits of a base at the start of a text, as a number and the rest. -/
def digits (base : Nat) (t : Text) : Nat × Text :=
  (((t.takeWhile (fun c => (digitOf? base c).isSome)).filterMap (digitOf? base)).foldl
    (fun n d => base * n + d) 0, t.dropWhile (fun c => (digitOf? base c).isSome))

/-- A number at the start of a text that starts with a digit. A zero in front
makes it octal, and an x after that hexadecimal. -/
def numeral (t : Text) : Nat × Text :=
  match t with
  | '0' :: 'x' :: c :: r =>
    if (digitOf? 16 c).isSome then digits 16 (c :: r) else (0, 'x' :: c :: r)
  | '0' :: 'X' :: c :: r =>
    if (digitOf? 16 c).isSome then digits 16 (c :: r) else (0, 'X' :: c :: r)
  | '0' :: r => digits 8 r
  | _ => digits 10 t

def isSpace (c : Char) : Bool := c == ' ' || (9 ≤ c.toNat && c.toNat ≤ 13)

def ofText? (t : Text) : Option Int :=
  let body := t.dropWhile isSpace
  let digits := match body with
    | '-' :: r => r
    | '+' :: r => r
    | _ => body
  if digits.isEmpty then if body.isEmpty then some 0 else none
  else if !digits.head?.any Text.isDigit then none
  else
    let (n, after) := numeral digits
    let value : Int := if body.head? = some '-' then -n else n
    if after.all isSpace ∧ -halfRange ≤ value ∧ value < halfRange then some value else none

inductive Token where
  | number (n : Int)
  | name (t : Text)
  | sign (t : Text)
  deriving DecidableEq, Repr

def signs : List String := [
  "<<=", ">>=", "<<", ">>", "<=", ">=", "==", "!=", "&&", "||", "+=", "-=", "*=", "/=", "%=",
  "&=", "^=", "|=", "=", "+", "-", "*", "/", "%", "<", ">", "!", "~", "&", "^", "|", "?", ":",
  "(", ")"]

def tokens : (fuel : Nat) → Text → Option (List Token)
  | 0, _ => none
  | fuel + 1, t =>
    match t with
    | [] => some []
    | c :: r =>
      if isSpace c then tokens fuel r
      else if Text.isDigit c then
        let (n, after) := numeral t
        (tokens fuel after).map (.number (min n (halfRange - 1)) :: ·)
      else if Text.isNameChar c then
        (tokens fuel (t.dropWhile Text.isNameChar)).map (.name (t.takeWhile Text.isNameChar) :: ·)
      else
        match signs.find? (fun s => Text.startsWith s.toList t) with
        | some s => (tokens fuel (t.drop s.length)).map (.sign s.toList :: ·)
        | none => none

def operators : List (String × Operator × Nat) := [
  ("*", .times, 10), ("/", .divide, 10), ("%", .rest, 10), ("+", .plus, 9), ("-", .minus, 9),
  ("<<", .left, 8), (">>", .right, 8), ("<", .less, 7), ("<=", .atMost, 7), (">", .more, 7),
  (">=", .atLeast, 7), ("==", .equal, 6), ("!=", .unequal, 6), ("&", .bitAnd, 5),
  ("^", .bitXor, 4), ("|", .bitOr, 3)]

def operator? (sign : Text) : Option (Operator × Nat) :=
  (operators.find? (fun o => o.1.toList == sign)).map Prod.snd

def assignment? (sign : Text) : Option (Option Operator) :=
  if sign = ['='] then some none
  else if (["*=", "/=", "%=", "+=", "-=", "<<=", ">>=", "&=", "^=", "|="] : List String).any
      (·.toList == sign) then
    (operator? sign.dropLast).map (fun o => some o.1)
  else none

abbrev Parser := StateT (List Token) Option

def sign? (text : String) : Parser Bool := do
  match ← get with
  | .sign t :: rest => if t = text.toList then set rest; return true else return false
  | _ => return false

/-- Operands joined by operators that bind at least as tightly as asked. -/
def climb (operand : Parser Sum) : (fuel : Nat) → (least : Nat) → Sum → Parser Sum
  | 0, _, a => return a
  | fuel + 1, least, a => do
    match ← get with
    | .sign t :: rest =>
      match operator? t with
      | some (op, tightness) =>
        if tightness < least then return a
        set rest
        let b ← climb operand fuel (tightness + 1) (← operand)
        climb operand fuel least (.binary op a b)
      | none => return a
    | _ => return a

def conjunction (operand : Parser Sum) : (fuel : Nat) → Parser Sum
  | 0 => failure
  | fuel + 1 => do
    let a ← climb operand ((← get).length + 1) 0 (← operand)
    if ← sign? "&&" then return .and_ a (← conjunction operand fuel) else return a

def disjunction (operand : Parser Sum) : (fuel : Nat) → Parser Sum
  | 0 => failure
  | fuel + 1 => do
    let a ← conjunction operand ((← get).length + 1)
    if ← sign? "||" then return .or_ a (← disjunction operand fuel) else return a

def operand (whole : Parser Sum) : (fuel : Nat) → Parser Sum
  | 0 => failure
  | fuel + 1 => do
    match ← get with
    | .number n :: rest => set rest; return .number n
    | .name t :: rest => set rest; return .variable_ t
    | .sign t :: rest =>
      set rest
      if t = ['-'] then return .negative (← operand whole fuel)
      else if t = ['+'] then operand whole fuel
      else if t = ['!'] then return .not_ (← operand whole fuel)
      else if t = ['~'] then return .complement (← operand whole fuel)
      else if t = ['('] then
        let e ← whole
        if ← sign? ")" then return e else failure
      else failure
    | [] => failure

def conditional (whole : Parser Sum) : (fuel : Nat) → Parser Sum
  | 0 => failure
  | fuel + 1 => do
    let n := (← get).length + 1
    let condition ← disjunction (operand whole n) n
    if ← sign? "?" then
      let yes ← whole
      if ← sign? ":" then return .choose condition yes (← conditional whole fuel) else failure
    else return condition

def whole : (fuel : Nat) → Parser Sum
  | 0 => failure
  | fuel + 1 => do
    match ← get with
    | .name t :: .sign s :: rest =>
      match assignment? s with
      | some op => set rest; return .assign t op (← whole fuel)
      | none => conditional (whole fuel) (fuel + 1)
    | _ => conditional (whole fuel) (fuel + 1)

def parse (t : Text) : Except SumFault Sum :=
  match (do (whole (t.length + 2)).run (← tokens (t.length + 1) t)) with
  | none => .error .malformed
  | some (e, rest) => if rest.isEmpty then .ok e else .error .overlong

def ofBool (b : Bool) : Int := if b then 1 else 0

def bits (n : Int) : Nat := (n % (Nat.pow 2 64 : Nat)).toNat

def bitwise (f : Nat → Nat → Nat) (a b : Int) : Int := wrap (f (bits a) (bits b))

def apply (op : Operator) (a b : Int) : Except SumFault Int :=
  match op with
  | .times => .ok (wrap (a * b))
  | .divide =>
    if b = 0 ∨ (a = -halfRange ∧ b = -1) then .error .divisionByZero else .ok (Int.tdiv a b)
  | .rest =>
    if b = 0 ∨ (a = -halfRange ∧ b = -1) then .error .divisionByZero else .ok (Int.tmod a b)
  | .plus => .ok (wrap (a + b))
  | .minus => .ok (wrap (a - b))
  | .left => .ok (wrap (a * Nat.pow 2 (bits b % 64)))
  | .right => .ok (a / Nat.pow 2 (bits b % 64))
  | .less => .ok (ofBool (a < b))
  | .atMost => .ok (ofBool (a ≤ b))
  | .more => .ok (ofBool (b < a))
  | .atLeast => .ok (ofBool (b ≤ a))
  | .equal => .ok (ofBool (a == b))
  | .unequal => .ok (ofBool (a != b))
  | .bitAnd => .ok (bitwise Nat.land a b)
  | .bitXor => .ok (bitwise Nat.xor a b)
  | .bitOr => .ok (bitwise Nat.lor a b)

abbrev Evaluation := StateT (List (Text × Int)) (Except SumFault)

def valueOf (lookup : Text → Option Text) (name : Text) : Evaluation Int := do
  match (← get).lookup name with
  | some n => return n
  | none =>
    let t := (lookup name).getD []
    match ofText? t with
    | some n => return n
    | none => throw (.notNumber t)

def eval (lookup : Text → Option Text) : Sum → Evaluation Int
  | .number n => return n
  | .variable_ name => valueOf lookup name
  | .negative e => return wrap (-(← eval lookup e))
  | .complement e => return wrap (-(← eval lookup e) - 1)
  | .not_ e => return ofBool ((← eval lookup e) == 0)
  | .binary op a b => do
    let x ← eval lookup a
    let y ← eval lookup b
    apply op x y
  | .and_ a b => do
    if (← eval lookup a) == 0 then return 0
    return ofBool ((← eval lookup b) != 0)
  | .or_ a b => do
    if (← eval lookup a) != 0 then return 1
    return ofBool ((← eval lookup b) != 0)
  | .choose condition yes no => do
    if (← eval lookup condition) != 0 then eval lookup yes else eval lookup no
  | .assign name op e => do
    let y ← eval lookup e
    let value ← match op with
      | none => pure y
      | some op => apply op (← valueOf lookup name) y
    modify ((name, value) :: ·)
    return value

end Sum

def sumOf (lookup : Text → Option Text) (t : Text) :
    Except SumFault (Int × List (Text × Int)) := do
  let e ← Sum.parse t
  let (n, assigned) ← (e.eval lookup).run []
  return (n, assigned.reverse)

def ofInt (n : Int) : Text := (if n < 0 then ['-'] else []) ++ Text.ofNat n.natAbs

end ParameterManual.Shell
