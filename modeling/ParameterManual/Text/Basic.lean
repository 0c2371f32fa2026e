/-!
# Text

Text is a list of characters, so that every scanner is a recursion on its
input. This module holds the operations that know nothing of what the text
means: blanks, trimming, lines, words and spelling of numbers. A blank is a
character with the Unicode property White_Space.
-/

set_option autoImplicit false

namespace ParameterManual

abbrev Text := List Char

namespace Text

def isBlank (c : Char) : Bool :=
  let n := c.toNat
  (9 ≤ n && n ≤ 13) || n == 0x20 || n == 0x85 || n == 0xA0 || n == 0x1680 ||
    (0x2000 ≤ n && n ≤ 0x200A) || n == 0x2028 || n == 0x2029 || n == 0x202F ||
    n == 0x205F || n == 0x3000

def isAsciiUpper (c : Char) : Bool := 'A' ≤ c && c ≤ 'Z'

def isAsciiLower (c : Char) : Bool := 'a' ≤ c && c ≤ 'z'

def isDigit (c : Char) : Bool := '0' ≤ c && c ≤ '9'

/-- Letters and digits of ASCII, and the underscore. -/
def isNameChar (c : Char) : Bool :=
  isAsciiUpper c || isAsciiLower c || isDigit c || c == '_'

def asciiLowerChar (c : Char) : Char :=
  if isAsciiUpper c then Char.ofNat (c.toNat + 32) else c

def asciiLower (t : Text) : Text := t.map asciiLowerChar

def dropEndWhile (p : Char → Bool) (t : Text) : Text := (t.reverse.dropWhile p).reverse

def trimStart (t : Text) : Text := t.dropWhile isBlank

def trimEnd (t : Text) : Text := dropEndWhile isBlank t

def trim (t : Text) : Text := trimEnd (trimStart t)

def isAllBlank (t : Text) : Bool := t.all isBlank

/-- What follows `lead` in a text that starts with it. -/
def afterLead? : (lead : Text) → Text → Option Text
  | [], t => some t
  | _ :: _, [] => none
  | c :: lead, d :: t => if c = d then afterLead? lead t else none

/-- What stands before `tail` in a text that ends with it. -/
def beforeTail? (tail t : Text) : Option Text :=
  (afterLead? tail.reverse t.reverse).map List.reverse

def startsWith (lead t : Text) : Bool := (afterLead? lead t).isSome

def endsWithChar (t : Text) (c : Char) : Bool := t.getLast? == some c

/-- Whether `part` occurs in the text. -/
def occursIn (part : Text) : Text → Bool
  | [] => part.isEmpty
  | c :: t => startsWith part (c :: t) || occursIn part t

/-- The lines of a text. A newline ends a line, and one carriage return
directly before it is not part of the line. -/
def lines : Text → List Text
  | [] => []
  | '\n' :: t => [] :: lines t
  | '\r' :: '\n' :: t => [] :: lines t
  | c :: t =>
    match lines t with
    | [] => [[c]]
    | l :: ls => (c :: l) :: ls

/-- The maximal runs of characters that are not blank. -/
def words (t : Text) : List Text := (t.splitOnP isBlank).filter (fun w => !w.isEmpty)

def joined (separator : Text) (pieces : List Text) : Text :=
  List.intercalate separator pieces

def ofNat (n : Nat) : Text := Nat.toDigits 10 n

def utf8Length : Text → Nat
  | [] => 0
  | c :: t => c.utf8Size + utf8Length t

/-- Replaces every occurrence of `a :: part`, the leftmost first. -/
def replaceFrom (a : Char) (part new : Text) : (skip : Nat) → Text → Text
  | _, [] => []
  | skip + 1, _ :: t => replaceFrom a part new skip t
  | 0, c :: t =>
    if startsWith (a :: part) (c :: t) then new ++ replaceFrom a part new part.length t
    else c :: replaceFrom a part new 0 t

/-- Replaces every occurrence of `old`. The empty text occurs before every
character and at the end. -/
def replaceAll (old new t : Text) : Text :=
  match old with
  | [] => new ++ t.flatMap (fun c => c :: new)
  | a :: part => replaceFrom a part new 0 t

end Text

end ParameterManual
