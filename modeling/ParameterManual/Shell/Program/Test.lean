import ParameterManual.Shell.Program.Options
import ParameterManual.Shell.Regex

/-!
# Conditions and expressions

Conditions on files, texts and numbers, and a program that works out
expressions given as arguments.
-/

set_option autoImplicit false

namespace ParameterManual.Shell.Program

inductive TestFault where
  | notNumber (t : Bytes)
  | operandMissing (operator : Bytes)
  | unexpected (t : Bytes)
  | unclosed
  deriving DecidableEq, Repr

def TestFault.text : TestFault → Bytes
  | .notNumber t => "Illegal number: ".toList ++ t
  | .operandMissing t => t ++ ": argument expected".toList
  | .unexpected t => t ++ ": unexpected operator".toList
  | .unclosed => "closing paren expected".toList

abbrev Tester := StateT (List Bytes) (Except TestFault)

def unaryTests : List String := [
  "-b", "-c", "-d", "-e", "-f", "-g", "-h", "-k", "-L", "-n", "-O", "-G", "-p", "-r", "-s",
  "-S", "-t", "-u", "-w", "-x", "-z"]

def binaryTests : List String := [
  "=", "!=", "<", ">", "-eq", "-ne", "-gt", "-ge", "-lt", "-le", "-nt", "-ot", "-ef"]

def isUnaryTest (t : Bytes) : Bool := unaryTests.any (·.toList == t)

def isBinaryTest (t : Bytes) : Bool := binaryTests.any (·.toList == t)

def testNumber (t : Bytes) : Tester Int :=
  let body := t.dropWhile Sum.isSpace
  let isNegative := body.head? == some '-'
  let digits := if isNegative || body.head? == some '+' then body.drop 1 else body
  let whole := digits.takeWhile Text.isDigit
  if whole.isEmpty || !(digits.drop whole.length).all Sum.isSpace then throw (.notNumber t)
  else
    let n : Int := whole.foldl (fun n c => 10 * n + (c.toNat - '0'.toNat)) 0
    return if isNegative then -n else n

def unaryTest (s : Session) (operator operand : Bytes) : Bool :=
  let is (t : String) : Bool := operator == t.toList
  let tree := s.tree
  if is "-n" then !operand.isEmpty
  else if is "-z" then operand.isEmpty
  else if is "-d" then isFolder tree operand
  else if is "-f" then isFile tree operand
  else if is "-s" then
    match tree.find (Bytes.toText operand) with
    | .ok (.file (.text [])) => false
    | .ok _ => true
    | .error _ => false
  else if is "-x" then
    isFolder tree operand ||
      match tree.place (Bytes.toText operand) with
      | .ok place => s.programs.contains place
      | .error _ => false
  else if is "-e" || is "-r" || is "-w" || is "-O" || is "-G" then holds tree operand
  else if is "-c" then operand == "/dev/null".toList
  else false

def binaryTest (s : Session) (operator a b : Bytes) : Tester Bool := do
  let is (t : String) : Bool := operator == t.toList
  if is "=" then return a == b
  else if is "!=" then return a != b
  else if is "<" then return a < b
  else if is ">" then return b < a
  else if is "-ef" then
    match s.tree.place (Bytes.toText a), s.tree.place (Bytes.toText b) with
    | .ok x, .ok y => return x == y
    | _, _ => return false
  else if is "-nt" then return holds s.tree a && !holds s.tree b
  else if is "-ot" then return !holds s.tree a && holds s.tree b
  else
    let x ← testNumber a
    let y ← testNumber b
    return if is "-eq" then x == y
      else if is "-ne" then x != y
      else if is "-gt" then y < x
      else if is "-ge" then y ≤ x
      else if is "-lt" then x < y
      else x ≤ y

def isOperand (rest : List Bytes) : Bool :=
  match rest with
  | [] => true
  | [_] => false
  | _ :: t :: _ => isBinaryTest t

section Conditions

variable (s : Session) (whole : Tester Bool)

def primaryTest : Tester Bool := do
  match ← get with
  | [] => return false
  | t :: rest =>
    if t = ['('] ∧ !rest.isEmpty then
      set rest
      if rest.head? = some [')'] then
        set rest.tail
        return false
      let b ← whole
      match ← get with
      | [')'] :: rest => set rest; return b
      | _ => throw .unclosed
    else if isUnaryTest t && !isOperand rest then
      match rest with
      | operand :: rest => set rest; return unaryTest s t operand
      | [] => throw (.operandMissing t)
    else
      match rest with
      | operator :: operand :: rest =>
        if isBinaryTest operator then
          set rest
          binaryTest s operator t operand
        else
          set (operator :: operand :: rest)
          return !t.isEmpty
      | [operator] =>
        if isBinaryTest operator then throw (.operandMissing operator)
        set [operator]
        return !t.isEmpty
      | [] => set rest; return !t.isEmpty

def negatedTest : (fuel : Nat) → Tester Bool
  | 0 => return false
  | fuel + 1 => do
    match ← get with
    | ['!'] :: r :: rest => set (r :: rest); return !(← negatedTest fuel)
    | _ => primaryTest s whole

def bothTests : (fuel : Nat) → Tester Bool
  | 0 => return false
  | fuel + 1 => do
    let a ← negatedTest s whole (fuel + 1)
    match ← get with
    | ['-', 'a'] :: rest => do
      set rest
      let b ← bothTests fuel
      return a && b
    | _ => return a

def eitherTest : (fuel : Nat) → Tester Bool
  | 0 => return false
  | fuel + 1 => do
    let a ← bothTests s whole (fuel + 1)
    match ← get with
    | ['-', 'o'] :: rest => do
      set rest
      let b ← eitherTest fuel
      return a || b
    | _ => return a

end Conditions

def wholeTest (s : Session) : (fuel : Nat) → Tester Bool
  | 0 => return false
  | fuel + 1 => eitherTest s (wholeTest s fuel) (fuel + 1)

/-- A condition that uses all its arguments. Three or four of them may stand in
brackets. -/
def generalCondition (s : Session) (arguments : List Bytes) : Except TestFault Bool := do
  let isBracketed := (arguments.length == 3 || arguments.length == 4) &&
    arguments.head? == some ['('] && arguments.getLast? == some [')']
  let inner := if isBracketed then arguments.tail.dropLast else arguments
  let (b, rest) ← (wholeTest s (inner.length + 1)).run inner
  if rest.isEmpty then return b
  throw (.unexpected (inner[inner.length - rest.length - 1]?.getD []))

/-- Conditions of three arguments with an operator in the middle are decided
by it. -/
def condition (s : Session) (arguments : List Bytes) : Except TestFault Bool :=
  match arguments with
  | [] => .ok false
  | [a, operator, b] =>
    if isBinaryTest operator then ((binaryTest s operator a b).run []).map Prod.fst
    else generalCondition s arguments
  | _ => generalCondition s arguments

/-! ## Expressions -/

inductive ExprFault where
  | malformed
  | notInteger
  | divisionByZero
  deriving DecidableEq, Repr

def ExprFault.text : ExprFault → Bytes
  | .malformed => "expr: syntax error".toList
  | .notInteger => "expr: non-integer argument".toList
  | .divisionByZero => "expr: division by zero".toList

abbrev Calculator := StateT (List Bytes) (Except ExprFault)

def wholeNumber? (t : Bytes) : Option Int :=
  let digits := if t.head? = some '-' then t.drop 1 else t
  if !digits.isEmpty && digits.all Text.isDigit then
    let n : Int := digits.foldl (fun n c => 10 * n + (c.toNat - '0'.toNat)) 0
    some (if t.head? = some '-' then -n else n)
  else none

def isNothing (t : Bytes) : Bool := t.isEmpty || wholeNumber? t == some 0

/-- What an expression matches at the start of a text: a part of it, or how
much. -/
def matchStart (t pattern : Bytes) : Bytes :=
  match Regex.parse? false ('^' :: pattern) with
  | none => []
  | some r =>
    let s : Regex.Subject := ⟨t.toArray, false⟩
    let hasGroup := Text.occursIn ['\\', '('] pattern
    match Regex.longest (Regex.ends_ s r ⟨0, []⟩) with
    | none => if hasGroup then [] else ['0']
    | some p =>
      if hasGroup then
        match p.groups.lookup 1 with
        | some (first, last) => Regex.slice s first last
        | none => []
      else Text.ofNat p.position

def calculate (operator a b : Bytes) : Except ExprFault Bytes :=
  let is (t : String) : Bool := operator == t.toList
  if is "|" then .ok (if isNothing a then if isNothing b then ['0'] else b else a)
  else if is "&" then .ok (if isNothing a || isNothing b then ['0'] else a)
  else if is ":" then .ok (matchStart a b)
  else
    let numbers := match wholeNumber? a, wholeNumber? b with
      | some x, some y => some (x, y)
      | _, _ => none
    let order := match numbers with
      | some (x, y) => compare x y
      | none => if a < b then .lt else if b < a then .gt else .eq
    let truth (b : Bool) : Except ExprFault Bytes := .ok (if b then ['1'] else ['0'])
    if is "=" || is "==" then truth (order == .eq)
    else if is "!=" then truth (order != .eq)
    else if is "<" then truth (order == .lt)
    else if is "<=" then truth (order != .gt)
    else if is ">" then truth (order == .gt)
    else if is ">=" then truth (order != .lt)
    else
      match numbers with
      | none => .error .notInteger
      | some (x, y) =>
        if is "+" then .ok (ofInt (x + y))
        else if is "-" then .ok (ofInt (x - y))
        else if is "*" then .ok (ofInt (x * y))
        else if y = 0 then .error .divisionByZero
        else if is "/" then .ok (ofInt (Int.tdiv x y))
        else .ok (ofInt (Int.tmod x y))

def exprLevels : List (List String) := [
  ["|"], ["&"], ["<", "<=", "=", "==", "!=", ">=", ">"], ["+", "-"], ["*", "/", "%"], [":"]]

def joinedBy (operators : List String) (operand : Calculator Bytes) : (fuel : Nat) → Bytes →
    Calculator Bytes
  | 0, a => return a
  | fuel + 1, a => do
    match ← get with
    | t :: rest =>
      if operators.any (·.toList == t) then
        set rest
        let b ← operand
        joinedBy operators operand fuel (← calculate t a b)
      else return a
    | [] => return a

def byLevels (operand : Calculator Bytes) : List (List String) → Calculator Bytes
  | [] => operand
  | operators :: tighter => do
    let inner := byLevels operand tighter
    joinedBy operators inner ((← get).length + 1) (← inner)

def indexOfAny (set t : Bytes) : Nat :=
  match t.findIdx? set.contains with
  | some i => i + 1
  | none => 0

def exprOperand (whole : Calculator Bytes) : (fuel : Nat) → Calculator Bytes
  | 0 => throw .malformed
  | fuel + 1 => do
    match ← get with
    | [] => throw .malformed
    | t :: rest => do
      set rest
      let operand := exprOperand whole fuel
      if t = ['('] then
        let value ← whole
        match ← get with
        | [')'] :: rest => set rest; return value
        | _ => throw .malformed
      else if t = "length".toList ∧ !rest.isEmpty then
        return Text.ofNat (← operand).length
      else if t = "index".toList ∧ !rest.isEmpty then
        let a ← operand
        let b ← operand
        return Text.ofNat (indexOfAny b a)
      else if t = "substr".toList ∧ !rest.isEmpty then
        let a ← operand
        let first ← operand
        let count ← operand
        match wholeNumber? first, wholeNumber? count with
        | some i, some n =>
          return if i ≤ 0 ∨ n ≤ 0 then [] else (a.drop (i.toNat - 1)).take n.toNat
        | _, _ => return []
      else if t = "match".toList ∧ !rest.isEmpty then
        let a ← operand
        let b ← operand
        return matchStart a b
      else if t = ['+'] ∧ !rest.isEmpty then
        match ← get with
        | value :: rest => set rest; return value
        | [] => throw .malformed
      else return t

def exprWhole : (fuel : Nat) → Calculator Bytes
  | 0 => throw .malformed
  | fuel + 1 => byLevels (exprOperand (exprWhole fuel) (fuel + 1)) exprLevels

def expr : Program := fun arguments => do
  let arguments := match arguments with
    | ['-', '-'] :: rest => rest
    | _ => arguments
  if arguments.isEmpty then
    let _ ← missing "expr" "operand"
    return 2
  match (exprWhole (arguments.length + 1)).run arguments with
  | .ok (value, []) =>
    Action.put (value ++ ['\n'])
    return if isNothing value then 1 else 0
  | .ok (_, t :: _) =>
    Action.complain ("expr: syntax error: unexpected argument '".toList ++ t ++ ['\x27'])
    return 2
  | .error fault => Action.complain fault.text; return 2

end ParameterManual.Shell.Program
