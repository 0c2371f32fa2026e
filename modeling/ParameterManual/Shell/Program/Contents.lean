import ParameterManual.Shell.Program.Options

/-!
# Contents of files

Programs that write whole files, their first or last parts, or how much is in
them.
-/

set_option autoImplicit false

namespace ParameterManual.Shell.Program

def padLeft (width : Nat) (t : Bytes) : Bytes := List.replicate (width - t.length) ' ' ++ t

/-- The lines of a text with numbers in front. Empty ones may go without. -/
def numbered (skipsEmpty : Bool) (n : Nat) : List Bytes → List Bytes
  | [] => []
  | line :: rest =>
    if skipsEmpty && line.isEmpty then line :: numbered skipsEmpty n rest
    else (padLeft 6 (Text.ofNat n) ++ '\t' :: line) :: numbered skipsEmpty (n + 1) rest

def squeezed : List Bytes → List Bytes
  | [] :: [] :: rest => squeezed ([] :: rest)
  | line :: rest => line :: squeezed rest
  | [] => []

def cat : Program := OptionTable.andThen ⟨"cat", "nbsETAuvet", "", [("number", 'n'),
    ("number-nonblank", 'b'), ("squeeze-blank", 's'), ("show-ends", 'E'), ("show-tabs", 'T'),
    ("show-all", 'A')], 1, false⟩ fun o => do
  if o.given.isEmpty then
    let mut isRead := true
    for path in if o.operands.isEmpty then [['-']] else o.operands do
      match ← Action.readFile path with
      | .ok b =>
        if !b.isEmpty && (← get).isOutput path then
          Action.complain ("cat: ".toList ++ path ++ ": input file is output file".toList)
          isRead := false
        else Action.put b
      | .error fault => fileComplaint "cat" path fault; isRead := false
    return statusOf isRead
  let (texts, ok) ← readOperands "cat" o.operands
  let b := (texts.map Prod.snd).flatten
  let lines := Bytes.lines b
  let lines := if o.has 's' then squeezed lines else lines
  let lines := if o.has 'T' || o.has 'A' || o.has 't' then
      lines.map (·.flatMap (fun c => if c = '\t' then ['^', 'I'] else [c]))
    else lines
  let lines := if o.has 'b' then numbered true 1 lines
    else if o.has 'n' then numbered false 1 lines
    else lines
  let marks := o.has 'E' || o.has 'A' || o.has 'e'
  let lines := if !marks then lines
    else if Bytes.isEnded b then lines.map (· ++ ['$'])
    else lines.dropLast.map (· ++ ['$']) ++ lines.getLast?.toList
  Action.put (Bytes.ofLinesEnded lines (Bytes.isEnded b))
  return statusOf ok

def fullLines (b : Bytes) : List Bytes :=
  let lines := (Bytes.lines b).map (· ++ ['\n'])
  if Bytes.isEnded b then lines
  else lines.dropLast ++ (lines.getLast?.map List.dropLast).toList

def headOf (inBytes lessLast : Bool) (n : Nat) (b : Bytes) : Bytes :=
  if inBytes then b.take (if lessLast then b.length - n else n)
  else
    let lines := fullLines b
    (lines.take (if lessLast then lines.length - n else n)).flatten

def tailOf (inBytes fromStart : Bool) (n : Nat) (b : Bytes) : Bytes :=
  if inBytes then b.drop (if fromStart then n - 1 else b.length - n)
  else
    let lines := fullLines b
    (lines.drop (if fromStart then n - 1 else lines.length - n)).flatten

def partsOfFiles (program : String) (o : Options) (part : Bytes → Bytes) : Action Nat := do
  let mut ok := true
  let mut isFirst := true
  let headed := (1 < o.operands.length || o.has 'v') && !o.has 'q'
  for path in if o.operands.isEmpty then [['-']] else o.operands do
    match ← Action.readFile path with
    | .ok b =>
      if headed then
        let name := if path = ['-'] then "standard input".toList else path
        Action.put ((if isFirst then [] else ['\n']) ++ "==> ".toList ++ name ++ " <==\n".toList)
      isFirst := false
      Action.put (part b)
    | .error .isDirectory =>
      ok := false
      Action.complain ((program ++ ": error reading '").toList ++ path ++
        "': Is a directory".toList)
    | .error fault =>
      ok := false
      Action.complain ((program ++ ": cannot open '").toList ++ path ++
        "' for reading: ".toList ++ reason fault)
  return statusOf ok

def withoutOldForm (arguments : List Bytes) : List Bytes :=
  match arguments with
  | ('-' :: c :: t) :: rest => if Text.isDigit c then ['-', 'n'] :: (c :: t) :: rest else arguments
  | _ => arguments

def signedCount (sign : Char) (t : Bytes) : Option (Bool × Nat) :=
  match t with
  | c :: r =>
    if c = sign then (natural? r).map (fun n => (true, n))
    else if sign = '+' ∧ c = '-' then (natural? r).map (fun n => (false, n))
    else (natural? t).map (fun n => (false, n))
  | [] => none

def countOption (program : String) (sign : Char) (o : Options) :
    Action (Option (Bool × Bool × Nat)) := do
  let inBytes := o.lastOf? "nc" == some 'c'
  match o.value? (if inBytes then 'c' else 'n') with
  | none => return some (false, false, 10)
  | some t =>
    match signedCount sign t with
    | some (flag, n) => return some (inBytes, flag, n)
    | none =>
      Action.complain ((program ++ ": invalid number of " ++
        (if inBytes then "bytes" else "lines") ++ ": '").toList ++ t ++ ['\x27'])
      return none

def head : Program := fun arguments =>
  OptionTable.andThen ⟨"head", "qvz", "nc", [("lines", 'n'), ("bytes", 'c'), ("quiet", 'q'),
      ("silent", 'q'), ("verbose", 'v')], 1, false⟩ (fun o => do
    match ← countOption "head" '-' o with
    | none => return 1
    | some (inBytes, lessLast, n) => partsOfFiles "head" o (headOf inBytes lessLast n))
    (withoutOldForm arguments)

def tail : Program := fun arguments =>
  OptionTable.andThen ⟨"tail", "qvz", "nc", [("lines", 'n'), ("bytes", 'c'), ("quiet", 'q'),
      ("silent", 'q'), ("verbose", 'v')], 1, false⟩ (fun o => do
    match ← countOption "tail" '+' o with
    | none => return 1
    | some (inBytes, fromStart, n) => partsOfFiles "tail" o (tailOf inBytes fromStart n))
    (match arguments with
      | ('+' :: t) :: rest => ['-', 'n'] :: ('+' :: t) :: rest
      | _ => withoutOldForm arguments)

def reversedLines : Program := fun operands => do
  let (texts, ok) ← readOperands "tac" operands
  for (_, b) in texts do Action.put (fullLines b).reverse.flatten
  return statusOf ok

def reversedCharacters : Program := fun operands => do
  let (texts, ok) ← readOperands "rev" operands
  for (_, b) in texts do
    let lines := (Bytes.lines b).map (fun l => Bytes.ofText (Bytes.toText l).reverse)
    Action.put (Bytes.ofLinesEnded lines (Bytes.isEnded b))
  return statusOf ok

def tee : Program := OptionTable.andThen ⟨"tee", "aip", "", [("append", 'a')], 1, false⟩ fun o => do
  let b ← Action.readAll
  Action.put b
  let mut ok := true
  for path in o.operands do
    match ← Action.openPath (if o.has 'a' then .append else .replace) path with
    | .ok i =>
      modify (fun s => ((s.connect 10 i).write 10 b).close 10)
    | .error fault => fileComplaint "tee" path fault; ok := false
  return statusOf ok

/-! ## Counts -/

def wordCount (b : Bytes) : Nat := ((b.splitOnP Sum.isSpace).filter (!·.isEmpty)).length

/-- Counts in the order in which they are written: lines, words, characters,
bytes, and the longest line. -/
def countsOf (b : Bytes) : List (Char × Nat) := [
  ('l', b.count '\n'), ('w', wordCount b), ('m', b.length), ('c', b.length),
  ('L', ((Bytes.lines b).map List.length).foldl max 0)]

def countWidth (single : Bool) (sizes : List Nat) (hasPipe : Bool) : Nat :=
  if single then 1
  else max (Text.ofNat (sizes.foldl (· + ·) 0)).length (if hasPipe then 7 else 1)

def isRegularInput : Action Bool := do
  match (← get).openFile? 0 with
  | some (_, f) => return match f.stream with
    | .file _ => true
    | _ => false
  | none => return false

def wc : Program := OptionTable.andThen ⟨"wc", "lwmcL", "", [("lines", 'l'), ("words", 'w'),
    ("chars", 'm'), ("bytes", 'c'), ("max-line-length", 'L')], 1, false⟩ fun o => do
  let letters := (o.given.map Prod.fst).eraseDups
  let letters := if letters.isEmpty then ['l', 'w', 'c'] else letters
  let chosen (b : Bytes) : List Nat :=
    ((countsOf b).filter (fun c => letters.contains c.1)).map Prod.snd
  let s ← get
  let isFolder (path : Bytes) : Bool := Shell.isFolder s.tree path
  let single := o.operands.length ≤ 1 && letters.length = 1
  let fromInput := o.operands.isEmpty || o.operands.contains ['-']
  let hasPipe := o.operands.any isFolder || (fromInput && !(← isRegularInput))
  let sizes := (o.operands.filter (· != ['-'])).map (fun path =>
    match s.tree.read (Bytes.toText path) with
    | .ok t => t.utf8Length
    | .error _ => 0)
  let width := countWidth single (sizes ++ if fromInput then [(s.waiting 0).length] else []) hasPipe
  let row (counts : List Nat) (name : Bytes) : Bytes :=
    Text.joined [' '] (counts.map (fun n => padLeft width (Text.ofNat n))) ++
      (if name.isEmpty then [] else ' ' :: name) ++ ['\n']
  let mut ok := true
  let mut total := letters.map (fun _ => 0)
  for path in if o.operands.isEmpty then [[]] else o.operands do
    match ← Action.readFile (if path.isEmpty then ['-'] else path) with
    | .ok b =>
      Action.put (row (chosen b) path)
      total := List.zipWith (· + ·) total (chosen b)
    | .error fault =>
      ok := false
      fileComplaint "wc" path fault
      if fault = .isDirectory then Action.put (row (letters.map (fun _ => 0)) path)
  if 1 < o.operands.length then Action.put (row total "total".toList)
  return statusOf ok

end ParameterManual.Shell.Program
