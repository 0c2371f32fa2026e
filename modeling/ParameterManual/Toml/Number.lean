import ParameterManual.Toml.Moment
import ParameterManual.Toml.Value

/-!
# TOML numbers

Numbers may have underscores between digits. Integers have 64 bits. A float
is refused if the nearest one of 64 bits would be infinite and positive.
-/

set_option autoImplicit false

namespace ParameterManual.Toml

/-- Digits with single underscores between them; the flag says that the last
character was a digit. -/
def groupedFrom (isDigit : Char → Bool) : Bool → Text → Bool
  | lastDigit, [] => lastDigit
  | lastDigit, c :: t =>
    if c = '_' then lastDigit && groupedFrom isDigit false t
    else isDigit c && groupedFrom isDigit true t

def grouped (isDigit : Char → Bool) (t : Text) : Bool := groupedFrom isDigit false t

def withoutSign (t : Text) : Text :=
  match t with
  | '+' :: r => r
  | '-' :: r => r
  | _ => t

/-- A decimal number without leading zeros. -/
def isWhole (t : Text) : Bool := grouped Text.isDigit t && (t.length == 1 || t.head? != some '0')

def ungrouped (t : Text) : Text := t.filter (· != '_')

/-- Integers have 64 bits: they are less than this, and not less than its
negative. -/
def integerBound : Nat := Nat.pow 2 63

def decimal? (t : Text) : Option Int :=
  let body := withoutSign t
  if isWhole body then
    let n : Int := valueOf 10 (ungrouped body)
    let n := if t.head? = some '-' then -n else n
    if -integerBound ≤ n ∧ n < integerBound then some n else none
  else none

def based? (lead : Text) (base : Nat) (isDigit : Char → Bool) (t : Text) : Option Int := do
  let digits ← Text.afterLead? lead t
  let n := valueOf base (ungrouped digits)
  if grouped isDigit digits && n < integerBound then some n else none

def integer? (t : Text) : Option Int :=
  decimal? t <|> based? ['0', 'x'] 16 (fun c => (hexDigit? c).isSome) t <|>
    based? ['0', 'o'] 8 (fun c => '0' ≤ c && c ≤ '7') t <|>
    based? ['0', 'b'] 2 (fun c => c == '0' || c == '1') t

/-- A number as digits and the power of ten that the last of them counts. -/
structure Decimal where
  isNegative : Bool
  digits : Text
  exponent : Int
  deriving DecidableEq, Repr

def exponent? (t : Text) : Option Int :=
  let body := withoutSign t
  if grouped Text.isDigit body then
    let n : Int := valueOf 10 (ungrouped body)
    some (if t.head? = some '-' then -n else n)
  else none

def endsWhole (c : Char) : Bool := c == '.' || c == 'e' || c == 'E'

/-- Digits with a fraction, an exponent or both. -/
def decimalFloat? (t : Text) : Option Decimal :=
  let body := withoutSign t
  let isNegative := t.head? == some '-'
  let whole := body.takeWhile (fun c => !endsWhole c)
  if isWhole whole then
    match body.dropWhile (fun c => !endsWhole c) with
    | [] => none
    | '.' :: r =>
      let fraction := r.takeWhile (fun c => !endsWhole c)
      if grouped Text.isDigit fraction then
        let digits := ungrouped (whole ++ fraction)
        let places : Int := (ungrouped fraction).length
        match r.dropWhile (fun c => !endsWhole c) with
        | [] => some ⟨isNegative, digits, -places⟩
        | c :: e =>
          if c = '.' then none
          else (exponent? e).map (fun n => ⟨isNegative, digits, n - places⟩)
      else none
    | _ :: e => (exponent? e).map (fun n => ⟨isNegative, ungrouped whole, n⟩)
  else none

/-- The least number that is nearer to the next power of two than to any
finite float. -/
def overflowBound : Nat := (Nat.pow 2 54 - 1) * Nat.pow 2 970

/-- Whether the number is too large for a float. Its order of magnitude
decides but for numbers of 309 digits. -/
def Decimal.overflows (d : Decimal) : Bool :=
  let digits := d.digits.dropWhile (· == '0')
  let order : Int := digits.length + d.exponent
  if digits.isEmpty || order < 309 then false
  else if 309 < order then true
  else
    overflowBound * Nat.pow 10 (-d.exponent).toNat ≤
      valueOf 10 digits * Nat.pow 10 d.exponent.toNat

def isFloat (t : Text) : Bool :=
  withoutSign t == "inf".toList || withoutSign t == "nan".toList ||
    (decimalFloat? t).any (fun d => d.isNegative || !d.overflows)

def endsScalar (c : Char) : Bool :=
  isLineBlank c || c == '\n' || c == '\r' || c == ',' || c == ']' || c == '\x7d' || c == '#'

def wordScalar? (t : Text) : Option Toml :=
  if t = "true".toList then some (.boolean true)
  else if t = "false".toList then some (.boolean false)
  else if isFloat t then some (.float t)
  else ((moment? t).map .moment) <|> (integer? t).map .integer

/-- A value of one word, or a date and a time with a space between. -/
def scalarValue? (t : Text) : Option (Toml × Text) :=
  let word := t.takeWhile (fun c => !endsScalar c)
  let rest := t.dropWhile (fun c => !endsScalar c)
  let second := (rest.drop 1).takeWhile (fun c => !endsScalar c)
  if (date? word).isSome && rest.head? == some ' ' && !second.isEmpty then
    (dateTime? word second).map (fun m => (.moment m, rest.drop (second.length + 1)))
  else (wordScalar? word).map (fun v => (v, rest))

end ParameterManual.Toml
