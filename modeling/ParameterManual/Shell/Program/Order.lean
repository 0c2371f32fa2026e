import ParameterManual.Shell.Program.Contents

/-!
# Order of lines

Sorting by keys, runs of equal lines, and what two sorted files have in common.
-/

set_option autoImplicit false

namespace ParameterManual.Shell.Program

/-- A key: fields and characters from one on up to another, with letters of
options of its own. -/
structure SortKey where
  firstField : Nat
  firstChar : Nat
  lastField : Option Nat
  lastChar : Nat
  options : List Char

def keyPart (t : Bytes) : Option (Nat × Nat × List Char) :=
  let field := t.takeWhile Text.isDigit
  let rest := t.drop field.length
  let (char, rest) := match rest with
    | '.' :: r => (r.takeWhile Text.isDigit, r.dropWhile Text.isDigit)
    | _ => ([], rest)
  (natural? field).map (fun n => (n, (natural? char).getD 0, rest))

def sortKey? (t : Bytes) : Option SortKey := do
  let front := t.takeWhile (· != ',')
  let (firstField, firstChar, options) ← keyPart front
  match t.drop front.length with
  | [] => some ⟨firstField, max firstChar 1, none, 0, options⟩
  | _ :: r =>
    let (lastField, lastChar, more) ← keyPart r
    some ⟨firstField, max firstChar 1, some lastField, lastChar, options ++ more⟩

/-- Fields with the blanks in front of them, or those between separators. -/
def blankFields : (fuel : Nat) → Bytes → List Bytes
  | 0, _ => []
  | fuel + 1, t =>
    if t.isEmpty then []
    else
      let blanks := t.takeWhile (fun c => c == ' ' || c == '\t')
      let rest := t.drop blanks.length
      let word := rest.takeWhile (fun c => c != ' ' && c != '\t')
      (blanks ++ word) :: blankFields fuel (rest.drop word.length)

def keyText (separator : Option Char) (k : SortKey) (skipsBlanks : Bool) (line : Bytes) : Bytes :=
  let fields := match separator with
    | some c => line.splitOn c
    | none => blankFields (line.length + 1) line
  let joint := separator.toList
  let fields := match k.lastField with
    | some n => fields.take n
    | none => fields
  let dropLead (t : Bytes) : Bytes :=
    if skipsBlanks then t.dropWhile (fun c => c == ' ' || c == '\t') else t
  let cutEnd (t : Bytes) : Bytes := if k.lastChar = 0 then t else t.take k.lastChar
  let fields := match k.lastField with
    | some n => if fields.length = n then
        fields.dropLast ++ (fields.getLast?.map cutEnd).toList
      else fields
    | none => fields
  match fields.drop (k.firstField - 1) with
  | [] => []
  | first :: others => Text.joined joint ((dropLead first).drop (k.firstChar - 1) :: others)

/-- The number at the start of a text, as a whole number of some places. -/
def leadingNumber (places : Nat) (t : Bytes) : Int :=
  let t := t.dropWhile (fun c => c == ' ' || c == '\t')
  let isNegative := t.head? == some '-'
  let t := if isNegative then t.drop 1 else t
  let whole := t.takeWhile Text.isDigit
  let part := match t.drop whole.length with
    | '.' :: r => r.takeWhile Text.isDigit
    | _ => []
  let part := part ++ List.replicate (places - part.length) '0'
  let n : Int := (whole ++ part).foldl (fun n c => 10 * n + (c.toNat - '0'.toNat)) 0
  if isNegative then -n else n

def compareNumbers (a b : Bytes) : Ordering :=
  let places := max a.length b.length
  compare (leadingNumber places a) (leadingNumber places b)

def compareBytes (a b : Bytes) : Ordering := if a < b then .lt else if b < a then .gt else .eq

def compareKeys (options : List Char) (a b : Bytes) : Ordering :=
  let fold (t : Bytes) : Bytes := if options.contains 'f' then t.map Char.toUpper else t
  let kept (t : Bytes) : Bytes := if options.contains 'd' then
      t.filter (fun c => c.isAlphanum || c == ' ' || c == '\t')
    else t
  let found := if options.contains 'n' || options.contains 'g' then compareNumbers a b
    else compareBytes (kept (fold a)) (kept (fold b))
  if options.contains 'r' then found.swap else found

structure SortOrder where
  separator : Option Char
  keys : List SortKey
  options : List Char

def SortOrder.byKeys (o : SortOrder) (a b : Bytes) : Ordering :=
  let keys := if o.keys.isEmpty then [⟨1, 1, none, 0, []⟩] else o.keys
  keys.foldl (fun found k =>
    found.then (
      let options := if k.options.isEmpty then o.options else k.options
      let part := keyText o.separator k (options.contains 'b')
      if o.keys.isEmpty && !options.contains 'b' then compareKeys options a b
      else compareKeys options (part a) (part b))) .eq

def SortOrder.compare (o : SortOrder) (a b : Bytes) : Ordering :=
  (o.byKeys a b).then (
    if o.options.contains 's' || o.options.contains 'u' then .eq
    else
      let found := compareBytes a b
      if o.options.contains 'r' then found.swap else found)

def distinct (same : Bytes → Bytes → Bool) : List Bytes → List Bytes
  | a :: b :: rest =>
    if same a b then distinct same (a :: rest) else a :: distinct same (b :: rest)
  | lines => lines
termination_by lines => lines.length

def isSorted (o : SortOrder) : List Bytes → Bool
  | a :: b :: rest =>
    (match o.compare a b with
      | .lt => true
      | .eq => !o.options.contains 'u'
      | .gt => false) && isSorted o (b :: rest)
  | _ => true

def sort : Program := OptionTable.andThen ⟨"sort", "rnufbdscg", "kto", [("reverse", 'r'),
    ("numeric-sort", 'n'), ("unique", 'u'), ("ignore-case", 'f'), ("key", 'k'),
    ("field-separator", 't'), ("output", 'o'), ("stable", 's'), ("check", 'c')], 2, false⟩
    fun o => do
  let order : SortOrder := {
    separator := (o.value? 't').bind List.head?
    keys := (o.given.filter (·.1 == 'k')).filterMap (fun k => sortKey? k.2)
    options := o.given.map Prod.fst }
  let mut lines := []
  for path in if o.operands.isEmpty then [['-']] else o.operands do
    match ← Action.readFile path with
    | .ok b => lines := lines ++ Bytes.lines b
    | .error .isDirectory =>
      Action.complain ("sort: read failed: ".toList ++ path ++ ": Is a directory".toList)
      return 2
    | .error fault =>
      Action.complain ("sort: cannot read: ".toList ++ path ++ ": ".toList ++ reason fault)
      return 2
  if o.has 'c' then return statusOf (isSorted order lines)
  let sorted := lines.mergeSort (fun a b => order.compare a b != .gt)
  let sorted := if o.has 'u' then distinct (fun a b => order.byKeys a b == .eq) sorted else sorted
  match o.value? 'o' with
  | none => Action.put (Bytes.ofLines sorted); return 0
  | some path =>
    match ← Action.inTree (·.writeFile (Bytes.toText path)
        (Bytes.toContent (Bytes.ofLines sorted))) with
    | none => return 0
    | some fault =>
      Action.complain ("sort: open failed: ".toList ++ path ++ ": ".toList ++ reason fault)
      return 2

def runs (same : Bytes → Bytes → Bool) : List Bytes → List (Bytes × Nat)
  | [] => []
  | line :: rest =>
    match runs same rest with
    | [] => [(line, 1)]
    | (other, n) :: more =>
      if same line other then (line, n + 1) :: more else (line, 1) :: (other, n) :: more

def uniq : Program := OptionTable.andThen ⟨"uniq", "cdui", "fsw", [("count", 'c'),
    ("repeated", 'd'), ("unique", 'u'), ("ignore-case", 'i'), ("skip-fields", 'f'),
    ("skip-chars", 's'), ("check-chars", 'w')], 1, false⟩ fun o => do
  let number (c : Char) : Nat := ((o.value? c).bind natural?).getD 0
  let part (line : Bytes) : Bytes :=
    let rest := ((blankFields (line.length + 1) line).drop (number 'f')).flatten
    let rest := rest.drop (number 's')
    let rest := match (o.value? 'w').bind natural? with
      | some n => rest.take n
      | none => rest
    if o.has 'i' then rest.map Char.toLower else rest
  if let some t := o.operands[2]? then
    return ← misused "uniq" ("extra operand '".toList ++ t ++ ['\x27'])
  match ← Action.readFile (o.operands.head?.getD ['-']) with
  | .error fault =>
    fileComplaint "uniq" (o.operands.head?.getD []) fault
    return 1
  | .ok b =>
    let found := runs (fun x y => part x == part y) (Bytes.lines b)
    let found := found.filter (fun r => (!o.has 'd' || 1 < r.2) && (!o.has 'u' || r.2 == 1))
    let written := Bytes.ofLines (found.map (fun r =>
      if o.has 'c' then padLeft 7 (Text.ofNat r.2) ++ ' ' :: r.1 else r.1))
    match o.operands with
    | [_, path] =>
      match ← Action.inTree (·.writeFile (Bytes.toText path) (Bytes.toContent written)) with
      | none => return 0
      | some fault => fileComplaint "uniq" path fault; return 1
    | _ => Action.put written; return 0

/-! ## Two files -/

/-- Lines of two sorted files in columns: the first only, the second only, both. -/
def columnsOf : (fuel : Nat) → List Bytes → List Bytes → List (Nat × Bytes)
  | 0, _, _ => []
  | _ + 1, xs, [] => xs.map (fun x => (1, x))
  | _ + 1, [], ys => ys.map (fun y => (2, y))
  | fuel + 1, x :: xs, y :: ys =>
    if x = y then (3, x) :: columnsOf fuel xs ys
    else if x < y then (1, x) :: columnsOf fuel xs (y :: ys)
    else (2, y) :: columnsOf fuel (x :: xs) ys

def comm : Program := OptionTable.andThen ⟨"comm", "123", "", [], 1, false⟩ fun o => do
  let (texts, ok) ← readOperands "comm" o.operands
  match texts with
  | [(_, a), (_, b)] =>
    let rows := columnsOf (a.length + b.length + 2) (Bytes.lines a) (Bytes.lines b)
    let hidden (column : Nat) : Bool := o.has (Char.ofNat ('0'.toNat + column))
    let lead (column : Nat) : Bytes :=
      ((List.range (column - 1)).filter (fun c => !hidden (c + 1))).map (fun _ => '\t')
    Action.put (Bytes.ofLines ((rows.filter (fun r => !hidden r.1)).map (fun r => lead r.1 ++ r.2)))
    return statusOf ok
  | _ => return 1

end ParameterManual.Shell.Program
