import ParameterManual.Toml.Quoted

/-!
# TOML moments

A moment is a date, a time, or both with an optional offset, and the date
exists. A fraction of a second keeps nine digits, and its written form has no
zeros at the end.
-/

set_option autoImplicit false

namespace ParameterManual.Toml

/-- The value of a text of digits. -/
def valueOf (base : Nat) (digits : Text) : Nat :=
  digits.foldl (fun n c => base * n + (hexDigit? c).getD 0) 0

/-- The value of a text of decimal digits only. -/
def plain? (t : Text) : Option Nat :=
  if !t.isEmpty && t.all Text.isDigit then some (valueOf 10 t) else none

structure Date where
  year : Nat
  month : Nat
  day : Nat
  deriving DecidableEq, Repr

structure Time where
  hour : Nat
  minute : Nat
  second : Nat
  /-- The digits after the point. -/
  fraction : Text
  deriving DecidableEq, Repr

inductive Offset where
  | universal
  | local_ (isWest : Bool) (hours minutes : Nat)
  deriving DecidableEq, Repr

structure Moment where
  date : Option Date
  time : Option Time
  offset : Option Offset
  deriving DecidableEq, Repr

def daysOf (year month : Nat) : Nat :=
  if month = 2 then
    if year % 4 = 0 ∧ (year % 100 ≠ 0 ∨ year % 400 = 0) then 29 else 28
  else if month = 4 ∨ month = 6 ∨ month = 9 ∨ month = 11 then 30
  else 31

def date? (t : Text) : Option Date :=
  match t with
  | [a, b, c, d, '-', e, f, '-', g, h] => do
    let year ← plain? [a, b, c, d]
    let month ← plain? [e, f]
    let day ← plain? [g, h]
    if 1 ≤ month ∧ month ≤ 12 ∧ 1 ≤ day ∧ day ≤ daysOf year month then some ⟨year, month, day⟩
    else none
  | _ => none

def hourMinute? (t : Text) : Option (Nat × Nat) :=
  match t with
  | [a, b, ':', c, d] => do
    let hour ← plain? [a, b]
    let minute ← plain? [c, d]
    if hour ≤ 23 ∧ minute ≤ 59 then some (hour, minute) else none
  | _ => none

def offset? (t : Text) : Option Offset :=
  match t with
  | ['Z'] => some .universal
  | ['z'] => some .universal
  | '+' :: r => (hourMinute? r).map (fun m => .local_ false m.1 m.2)
  | '-' :: r => (hourMinute? r).map (fun m => .local_ true m.1 m.2)
  | _ => none

/-- The digits of a fraction that count. -/
def fractionOf (digits : Text) : Text :=
  ((digits.take 9).reverse.dropWhile (· == '0')).reverse

/-- Hour, minute and second, perhaps with a fraction, and what follows. -/
def timeThen? (t : Text) : Option (Time × Text) :=
  match t with
  | a :: b :: ':' :: c :: d :: ':' :: e :: f :: r => do
    let (hour, minute) ← hourMinute? [a, b, ':', c, d]
    let second ← plain? [e, f]
    if second ≤ 60 then
      match r with
      | '.' :: s =>
        let digits := s.takeWhile Text.isDigit
        if digits.isEmpty then none
        else some (⟨hour, minute, second, fractionOf digits⟩, s.dropWhile Text.isDigit)
      | _ => some (⟨hour, minute, second, []⟩, r)
    else none
  | _ => none

def time? (t : Text) : Option Time := do
  match ← timeThen? t with
  | (time, []) => some time
  | _ => none

/-- A time that may have an offset. -/
def zonedTime? (t : Text) : Option (Time × Option Offset) := do
  let (time, r) ← timeThen? t
  if r.isEmpty then some (time, none) else some (time, some (← offset? r))

/-- A date and a time, given apart. -/
def dateTime? (date time : Text) : Option Moment := do
  let date ← date? date
  let (time, offset) ← zonedTime? time
  some ⟨some date, some time, offset⟩

/-- A date, a time, or a date and a time with a letter between. -/
def moment? (t : Text) : Option Moment :=
  match date? t, time? t with
  | some date, _ => some ⟨some date, none, none⟩
  | none, some time => some ⟨none, some time, none⟩
  | none, none =>
    if t[10]? = some 'T' ∨ t[10]? = some 't' then dateTime? (t.take 10) (t.drop 11) else none

/-- A number in decimal with zeros in front up to a width. -/
def padded (width n : Nat) : Text :=
  let digits := Text.ofNat n
  List.replicate (width - digits.length) '0' ++ digits

def Date.text (d : Date) : Text :=
  padded 4 d.year ++ '-' :: padded 2 d.month ++ '-' :: padded 2 d.day

def Time.text (t : Time) : Text :=
  padded 2 t.hour ++ ':' :: padded 2 t.minute ++ ':' :: padded 2 t.second ++
    if t.fraction.isEmpty then [] else '.' :: t.fraction

/-- No offset at all is written with a plus sign. -/
def Offset.text : Offset → Text
  | .universal => ['Z']
  | .local_ isWest hours minutes =>
    (if isWest && (hours != 0 || minutes != 0) then '-' else '+') ::
      padded 2 hours ++ ':' :: padded 2 minutes

/-- The written form has a capital letter between date and time. -/
def Moment.text (m : Moment) : Text :=
  let date := (m.date.map Date.text).getD []
  let time := (m.time.map Time.text).getD []
  date ++ (if m.date.isSome && m.time.isSome then ['T'] else []) ++ time ++
    (m.offset.map Offset.text).getD []

end ParameterManual.Toml
