import ParameterManual.Shell.Session

/-!
# Formatted output

Texts with backslash escapes, and formats whose conversions take arguments. A
format is used again as long as there are arguments left. Fractions are the
nearest of 64 bits, and are written with exact rounding.
-/

set_option autoImplicit false

namespace ParameterManual.Shell

def octalDigit? (c : Char) : Option Nat :=
  if '0' ≤ c ∧ c ≤ '7' then some (c.toNat - '0'.toNat) else none

def letterEscape? (c : Char) : Option Char :=
  match c with
  | 'a' => some '\x07'
  | 'e' => some '\x1b'
  | 'b' => some '\x08'
  | 'f' => some '\x0c'
  | 'n' => some '\n'
  | 'r' => some '\r'
  | 't' => some '\t'
  | 'v' => some '\x0b'
  | '\\' => some '\\'
  | _ => none

/-- The character that the text behind a backslash stands for, and how much of
the text that is. A backslash that means nothing stands for itself. -/
def escapeAt (t : Bytes) : Char × Nat :=
  let digits := (t.take 3).takeWhile (fun c => (octalDigit? c).isSome)
  if digits.isEmpty then
    match t.head?.bind letterEscape? with
    | some c => (c, 1)
    | none => ('\\', 0)
  else
    (Char.ofNat ((digits.foldl (fun n c => 8 * n + (octalDigit? c).getD 0) 0) % 256),
      digits.length)

/-- A text with its escapes replaced, and whether an escape ended all output. -/
def unescape : (skip : Nat) → Bytes → Bytes × Bool
  | _, [] => ([], false)
  | skip + 1, _ :: t => unescape skip t
  | 0, c :: t =>
    if c = '\\' then
      match t with
      | 'c' :: _ => ([], true)
      | '0' :: d :: r =>
        if (octalDigit? d).isSome then
          let (e, n) := escapeAt (d :: r)
          let rest := unescape (n + 1) t
          (e :: rest.1, rest.2)
        else
          let rest := unescape 1 t
          ('\x00' :: rest.1, rest.2)
      | _ =>
        let (e, n) := escapeAt t
        let rest := unescape n t
        (e :: rest.1, rest.2)
    else
      let rest := unescape 0 t
      (c :: rest.1, rest.2)

/-- The words of an echo with blanks between, up to an escape that ends it. -/
def echoWords : List Bytes → Bytes × Bool
  | [] => ([], false)
  | [t] => unescape 0 t
  | t :: rest =>
    let first := unescape 0 t
    if first.2 then first
    else
      let others := echoWords rest
      (first.1 ++ ' ' :: others.1, others.2)

def echoText (arguments : List Bytes) : Bytes :=
  match arguments with
  | ['-', 'n'] :: rest => (echoWords rest).1
  | _ =>
    let words := echoWords arguments
    words.1 ++ if words.2 then [] else ['\n']

/-! ## Fractions -/

structure Fraction where
  isNegative : Bool
  numerator : Nat
  denominator : Nat

def roundDiv (a b : Nat) : Nat :=
  let q := a / b
  let r := a % b
  if 2 * r > b ∨ (2 * r = b ∧ q % 2 = 1) then q + 1 else q

def Fraction.rounded (f : Fraction) : Fraction :=
  if f.numerator = 0 then f
  else
    let shift : Int := 53 - ((Nat.log2 f.numerator : Int) - Nat.log2 f.denominator)
    let scaled (shift : Int) : Nat × Nat :=
      (f.numerator * Nat.pow 2 shift.toNat, f.denominator * Nat.pow 2 (-shift).toNat)
    let ab := scaled shift
    let shift := if ab.1 / ab.2 ≥ Nat.pow 2 53 then shift - 1 else shift
    let shift := min shift 1074
    let ab := scaled shift
    let m := roundDiv ab.1 ab.2
    ⟨f.isNegative, m * Nat.pow 2 (-shift).toNat, Nat.pow 2 shift.toNat⟩

def fractionAt (t : Bytes) : Fraction × Bytes :=
  let isNegative := t.head? == some '-'
  let body := if isNegative || t.head? == some '+' then t.drop 1 else t
  let whole := body.takeWhile Text.isDigit
  let rest := body.drop whole.length
  let part := match rest with
    | '.' :: r => r.takeWhile Text.isDigit
    | _ => []
  if whole.isEmpty && part.isEmpty then (⟨false, 0, 1⟩, t)
  else
    let rest := match rest with
      | '.' :: r => r.drop part.length
      | _ => rest
    let number (digits : Bytes) : Nat := digits.foldl (fun n c => 10 * n + (c.toNat - 48)) 0
    let exponent : Int × Bytes := match rest with
      | c :: r =>
        if c = 'e' ∨ c = 'E' then
          let sign := r.head?
          let digits := (if sign == some '-' || sign == some '+' then r.drop 1 else r)
          let n := digits.takeWhile Text.isDigit
          if n.isEmpty then (0, rest)
          else
            let value : Int := min (number n) 400
            (if sign = some '-' then -value else value, digits.drop n.length)
        else (0, rest)
      | [] => (0, rest)
    let power : Int := exponent.1 - part.length
    (⟨isNegative, number (whole ++ part) * Nat.pow 10 power.toNat, Nat.pow 10 (-power).toNat⟩,
      exponent.2)

def withPoint (places n : Nat) (keepsPoint : Bool) : Bytes :=
  let digits := Text.ofNat n
  let digits := List.replicate (places + 1 - digits.length) '0' ++ digits
  let whole := digits.take (digits.length - places)
  whole ++ (if places = 0 ∧ !keepsPoint then [] else '.' :: digits.drop (digits.length - places))

def fixedText (f : Fraction) (places : Nat) (keepsPoint : Bool) : Bytes :=
  withPoint places (roundDiv (f.numerator * Nat.pow 10 places) f.denominator) keepsPoint

def powerFrom (f : Fraction) : (fuel : Nat) → Int → Int
  | 0, e => e
  | fuel + 1, e =>
    if f.numerator * Nat.pow 10 (-e).toNat < f.denominator * Nat.pow 10 e.toNat then
      powerFrom f fuel (e - 1)
    else if f.denominator * Nat.pow 10 (e + 1).toNat ≤
        f.numerator * Nat.pow 10 (-(e + 1)).toNat then
      powerFrom f fuel (e + 1)
    else e

/-- The digits of a number, one more than the places, and the power of ten of
the first. -/
def scientificDigits (f : Fraction) (places : Nat) : Nat × Int :=
  if f.numerator = 0 then (0, 0)
  else
    let e := powerFrom f 800 0
    let power : Int := places - e
    let n := roundDiv (f.numerator * Nat.pow 10 power.toNat)
      (f.denominator * Nat.pow 10 (-power).toNat)
    if n ≥ Nat.pow 10 (places + 1) then (n / 10, e + 1) else (n, e)

def exponentText (letter : Char) (e : Int) : Bytes :=
  let digits := Text.ofNat e.natAbs
  letter :: (if e < 0 then '-' else '+') :: (if digits.length < 2 then '0' :: digits else digits)

def withoutZeros (t : Bytes) : Bytes :=
  if t.contains '.' then
    let kept := (t.reverse.dropWhile (· == '0'))
    (if kept.head? = some '.' then kept.tail else kept).reverse
  else t

/-! ## Conversions -/

structure Conversion where
  flags : List Char
  width : Option Int
  precision : Option Int
  kind : Char

def Conversion.has (c : Conversion) (flag : Char) : Bool := c.flags.contains flag

def Conversion.fill (c : Conversion) (zeros : Bool) (sign body : Bytes) : Bytes :=
  let width := (c.width.getD 0).natAbs
  let gap := width - (sign.length + body.length)
  if c.has '-' || c.width.any (· < 0) then sign ++ body ++ List.replicate gap ' '
  else if zeros then sign ++ List.replicate gap '0' ++ body
  else List.replicate gap ' ' ++ sign ++ body

def Conversion.places? (c : Conversion) : Option Nat :=
  match c.precision with
  | some n => if n < 0 then none else some n.toNat
  | none => none

def Conversion.sign (c : Conversion) (isNegative : Bool) : Bytes :=
  if isNegative then ['-'] else if c.has '+' then ['+'] else if c.has ' ' then [' '] else []

def Conversion.textOf (c : Conversion) (t : Bytes) : Bytes :=
  c.fill false [] (match c.places? with
    | some n => t.take n
    | none => t)

def Conversion.wholeOf (c : Conversion) (n : Int) : Bytes :=
  let signed := c.kind == 'd' || c.kind == 'i'
  let size : Nat := if signed then n.natAbs else (n % (Nat.pow 2 64 : Nat)).toNat
  let base := if c.kind == 'o' then 8 else if c.kind == 'x' || c.kind == 'X' then 16 else 10
  let digits := Nat.toDigits base size
  let digits := if c.kind == 'X' then digits.map Char.toUpper else digits
  let digits := if size = 0 ∧ c.places? = some 0 then [] else digits
  let digits := List.replicate ((c.places?.getD 0) - digits.length) '0' ++ digits
  let digits := if c.kind == 'o' && c.has '#' && digits.head? != some '0' then '0' :: digits
    else digits
  let lead := if signed then c.sign (n < 0)
    else if base = 16 ∧ c.has '#' ∧ size ≠ 0 then ['0', c.kind]
    else []
  c.fill (c.has '0' && c.places?.isNone) lead digits

def Conversion.fractionOf (c : Conversion) (f : Fraction) : Bytes :=
  let kind := c.kind.toLower
  let places := c.places?.getD 6
  let letter := if c.kind.isUpper then 'E' else 'e'
  let body :=
    if kind = 'f' then fixedText f places (c.has '#')
    else if kind = 'e' then
      let (n, e) := scientificDigits f places
      withPoint places n (c.has '#') ++ exponentText letter e
    else
      let places := max places 1
      let (n, e) := scientificDigits f (places - 1)
      if e < -4 ∨ (places : Int) ≤ e then
        let t := withPoint (places - 1) n (c.has '#')
        (if c.has '#' then t else withoutZeros t) ++ exponentText letter e
      else
        let t := fixedText f ((places : Int) - 1 - e).toNat (c.has '#')
        if c.has '#' then t else withoutZeros t
  c.fill (c.has '0') (c.sign f.isNegative) body

/-! ## Formats -/

/-- What is left of the arguments, what was written, and how it went. -/
structure Printing where
  arguments : List Bytes
  written : Bytes
  warnings : List Bytes
  status : Nat
  isOver : Bool

abbrev Printer := StateM Printing

def nextArgument : Printer (Option Bytes) := do
  let s ← get
  match s.arguments with
  | [] => return none
  | a :: rest => set { s with arguments := rest }; return some a

def emit (t : Bytes) : Printer Unit := modify (fun s => { s with written := s.written ++ t })

def objection (t : Bytes) : Printer Unit :=
  modify (fun s => { s with warnings := s.warnings ++ [t], status := 1 })

def breakOff (t : Bytes) : Printer Unit :=
  modify (fun s => { s with warnings := s.warnings ++ [t], status := 2, isOver := true })

def checkNumber (t rest : Bytes) : Printer Unit := do
  if !rest.isEmpty then
    objection (t ++ if rest == t then ": expected numeric value".toList
      else ": not completely converted".toList)

def integerAt (t : Bytes) : Int × Bytes :=
  let body := t.dropWhile Sum.isSpace
  let isNegative := body.head? == some '-'
  let digits := if isNegative || body.head? == some '+' then body.drop 1 else body
  if digits.head?.any Text.isDigit then
    let (n, rest) := Sum.numeral digits
    (if isNegative then -n else n, rest)
  else (0, t)

def nextInteger (isSigned : Bool) : Printer Int := do
  match ← nextArgument with
  | none => return 0
  | some t =>
    match t with
    | q :: r =>
      if q = '"' ∨ q = '\x27' then return (r.head?.map (fun c => (c.toNat : Int))).getD 0
    | [] => pure ()
    let (n, rest) := integerAt t
    checkNumber t rest
    let bound : Int := if isSigned then Sum.halfRange else Nat.pow 2 64
    let most := bound - 1
    let least := if isSigned then -bound else -most
    if most < n ∨ n < least then
      objection (t ++ ": Numerical result out of range".toList)
      return if n < 0 then (if isSigned then least else most) else most
    return n

def nextFraction : Printer Fraction := do
  match ← nextArgument with
  | none => return ⟨false, 0, 1⟩
  | some t =>
    match t with
    | q :: r =>
      if q = '"' ∨ q = '\x27' then return ⟨false, (r.head?.map Char.toNat).getD 0, 1⟩
    | [] => pure ()
    let body := t.dropWhile Sum.isSpace
    let (f, rest) := fractionAt body
    checkNumber t (if rest = body then t else rest)
    return f.rounded

/-- A width or a precision at the start of a text: digits, or a star for an
argument. -/
def measure_ (t : Bytes) : Printer (Option Int × Bytes) := do
  match t with
  | '*' :: r => return (some (← nextInteger true), r)
  | _ =>
    let digits := t.takeWhile Text.isDigit
    let value : Int := digits.foldl (fun n c => 10 * n + (c.toNat - '0'.toNat)) 0
    return (if digits.isEmpty then none else some value, t.drop digits.length)

/-- Writes one conversion; its sign has been read. Gives the rest of the
format. -/
def convert (t : Bytes) : Printer Bytes := do
  let flags := t.takeWhile (fun c => c == '#' || c == '-' || c == '+' || c == ' ' || c == '0')
  let (width, r) ← measure_ (t.drop flags.length)
  let (precision, r) ← match r with
    | '.' :: r => do
      let (n, r) ← measure_ r
      pure (some (n.getD 0), r)
    | _ => pure (none, r)
  match r with
  | [] => breakOff "missing format character".toList; return []
  | kind :: r =>
    let c : Conversion := ⟨flags, width, precision, kind⟩
    if kind = 's' then emit (c.textOf ((← nextArgument).getD []))
    else if kind = 'b' then
      let (b, isOver) := unescape 0 ((← nextArgument).getD [])
      emit (c.textOf b)
      if isOver then modify ({ · with isOver := true })
    else if kind = 'c' then
      emit ({ c with precision := none }.textOf [((← nextArgument).bind List.head?).getD '\x00'])
    else if kind = 'd' ∨ kind = 'i' then emit (c.wholeOf (← nextInteger true))
    else if kind = 'o' ∨ kind = 'u' ∨ kind = 'x' ∨ kind = 'X' then
      emit (c.wholeOf (← nextInteger false))
    else if "eEfFgG".toList.contains kind then emit (c.fractionOf (← nextFraction))
    else breakOff ('%' :: t.take (t.length - r.length) ++ ": invalid directive".toList)
    return r

def formatOnce : (fuel : Nat) → Bytes → Printer Unit
  | 0, _ => return
  | fuel + 1, t => do
    if (← get).isOver then return
    match t with
    | [] => return
    | '\\' :: r =>
      let (c, n) := escapeAt r
      emit [c]
      formatOnce fuel (r.drop n)
    | '%' :: '%' :: r => emit ['%']; formatOnce fuel r
    | '%' :: r => formatOnce fuel (← convert r)
    | c :: r => emit [c]; formatOnce fuel r

def formatAll (format : Bytes) : (fuel : Nat) → Printer Unit
  | 0 => return
  | fuel + 1 => do
    let before := (← get).arguments.length
    formatOnce (format.length + 1) format
    let s ← get
    if !s.isOver && !s.arguments.isEmpty && s.arguments.length < before then
      formatAll format fuel

def printing (format : Bytes) (arguments : List Bytes) : Printing :=
  ((formatAll format (arguments.length + 1)).run ⟨arguments, [], [], 0, false⟩).2

end ParameterManual.Shell
