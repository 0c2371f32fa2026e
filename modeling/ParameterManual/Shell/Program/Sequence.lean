import ParameterManual.Shell.Program.Options

/-!
# Sequences of numbers

Numbers from a first one on in equal steps, written with as many places as
the ones that were given.
-/

set_option autoImplicit false

namespace ParameterManual.Shell.Program

def decimal? (t : Bytes) : Option (Int × Nat) :=
  let isNegative := t.head? == some '-'
  let body := if isNegative || t.head? == some '+' then t.drop 1 else t
  let whole := body.takeWhile Text.isDigit
  let part := match body.drop whole.length with
    | [] => some []
    | '.' :: r => if r.all Text.isDigit then some r else none
    | _ => none
  part.bind (fun part => (natural? (whole ++ part)).map (fun n =>
    (if isNegative then -(n : Int) else n, part.length)))

def decimalText (places : Nat) (n : Int) : Bytes :=
  let digits := Text.ofNat n.natAbs
  let digits := List.replicate (places + 1 - digits.length) '0' ++ digits
  (if n < 0 then ['-'] else []) ++ digits.take (digits.length - places) ++
    if places = 0 then [] else '.' :: digits.drop (digits.length - places)

def sequenceFrom (step last : Int) : (fuel : Nat) → Int → List Int
  | 0, _ => []
  | fuel + 1, n =>
    if (0 < step ∧ last < n) ∨ (step < 0 ∧ n < last) ∨ step = 0 then []
    else n :: sequenceFrom step last fuel (n + step)

def equalWidths (rows : List Bytes) : List Bytes :=
  let width := (rows.map List.length).foldl max 0
  rows.map (fun r =>
    match r with
    | '-' :: t => '-' :: (List.replicate (width - r.length) '0' ++ t)
    | _ => List.replicate (width - r.length) '0' ++ r)

/-- The options of a sequence in front of its numbers, which may be negative. -/
def sequenceOptions : (separator : Bytes) → (equal : Bool) → List Bytes →
    Bytes × Bool × List Bytes
  | separator, _, ['-', 'w'] :: rest => sequenceOptions separator true rest
  | _, equal, ['-', 's'] :: t :: rest => sequenceOptions t equal rest
  | _, equal, ('-' :: 's' :: t) :: rest => sequenceOptions t equal rest
  | separator, equal, rest => (separator, equal, rest)

def seq : Program := fun arguments => do
  let (separator, equal, numbers) := sequenceOptions ['\n'] false arguments
  match numbers.find? (fun t => (decimal? t).isNone) with
  | some t => misused "seq" ("invalid floating point argument: '".toList ++ t ++ ['\x27'])
  | none =>
    let found := numbers.filterMap decimal?
    let (first, step, last) : (Int × Nat) × (Int × Nat) × (Int × Nat) := match found with
      | [l] => ((1, 0), (1, 0), l)
      | [f, l] => (f, (1, 0), l)
      | [f, s, l] => (f, s, l)
      | _ => ((1, 0), (1, 0), (0, 0))
    if found.isEmpty then return ← missing "seq" "operand"
    if let some t := numbers[3]? then
      return ← misused "seq" ("extra operand '".toList ++ t ++ ['\x27'])
    let places := max first.2 step.2
    let all := max places last.2
    let scale (n : Int × Nat) : Int := n.1 * Nat.pow 10 (all - n.2)
    let rows := (sequenceFrom (scale step) (scale last) 100000 (scale first)).map (fun n =>
      decimalText places (n / Nat.pow 10 (all - places)))
    let rows := if equal then equalWidths rows else rows
    if !rows.isEmpty then Action.put (Text.joined separator rows ++ ['\n'])
    return 0

end ParameterManual.Shell.Program
