import ParameterManual.Shell.Program.Contents

/-!
# Columns

Parts of lines, lines side by side, lines of a given width, and numbered
lines.
-/

set_option autoImplicit false

namespace ParameterManual.Shell.Program

def ranges? (t : Bytes) : Option (List (Nat × Option Nat)) :=
  (t.splitOnP (fun c => c == ',' || c == ' ')).mapM (fun part =>
    match part.splitOn '-' with
    | [a] => (natural? a).map (fun n => (n, some n))
    | [a, b] =>
      let first := if a.isEmpty then some 1 else natural? a
      let last := if b.isEmpty then some none else (natural? b).map some
      if a.isEmpty && b.isEmpty then none
      else first.bind (fun f => last.map (fun l => (f, l)))
    | _ => none)

def inRanges (ranges : List (Nat × Option Nat)) (n : Nat) : Bool :=
  ranges.any (fun r => r.1 ≤ n && r.2.all (n ≤ ·))

def selected {α : Type} (ranges : List (Nat × Option Nat)) (complement : Bool) (items : List α) :
    List α :=
  (items.zipIdx.filter (fun e => inRanges ranges (e.2 + 1) != complement)).map Prod.fst

def cut : Program := OptionTable.andThen ⟨"cut", "snC", "dfcbO", [("delimiter", 'd'),
    ("fields", 'f'), ("characters", 'c'), ("bytes", 'b'), ("only-delimited", 's'),
    ("complement", 'C'), ("output-delimiter", 'O')], 1, false⟩ fun o => do
  let some (letter, list) := o.given.find? (fun g => "fcb".toList.contains g.1) | do
    misused "cut" "you must specify a list of bytes, characters, or fields".toList
  let some ranges := ranges? list | do
    misused "cut" "invalid field range".toList
  let delimiter := ((o.value? 'd').bind List.head?).getD '\t'
  let (texts, ok) ← readOperands "cut" o.operands
  for (_, b) in texts do
    let lines := (Bytes.lines b).filterMap (fun line =>
      if letter = 'f' then
        if line.contains delimiter then
          some (Text.joined ((o.value? 'O').getD [delimiter])
            (selected ranges (o.has 'C') (line.splitOn delimiter)))
        else if o.has 's' then none
        else some line
      else some (selected ranges (o.has 'C') line))
    Action.put (Bytes.ofLines lines)
  return statusOf ok

def pasted (delimiters : Bytes) (columns : List (List Bytes)) : (fuel : Nat) → List Bytes
  | 0 => []
  | fuel + 1 =>
    if columns.all List.isEmpty then []
    else
      let cells := columns.map (fun c => c.head?.getD [])
      let joints := cells.zipIdx.map (fun c =>
        if c.2 = 0 then [] else (delimiters[(c.2 - 1) % max delimiters.length 1]?).toList)
      (List.zipWith (· ++ ·) joints cells).flatten :: pasted delimiters (columns.map List.tail) fuel

/-- The lines with a number that is some more than a multiple of a step. -/
def everyNth (lines : List Bytes) (first step : Nat) : List Bytes :=
  (lines.zipIdx.filter (fun l => l.2 % max step 1 == first)).map Prod.fst

/-- The columns of some operands. Standard input that is named several times
gives its lines to them in turn. -/
def columnsOfTexts (texts : List (Bytes × Bytes)) : List (List Bytes) :=
  let isInput (t : Bytes × Bytes) : Bool := t.1 == ['-']
  let shared := Bytes.lines ((texts.filter isInput).flatMap Prod.snd)
  let count := (texts.filter isInput).length
  texts.zipIdx.map (fun (t, i) =>
    if isInput t then everyNth shared ((texts.take i).filter isInput).length count
    else Bytes.lines t.2)

def paste : Program := OptionTable.andThen ⟨"paste", "s", "d", [("serial", 's'),
    ("delimiters", 'd')], 1, false⟩ fun o => do
  let delimiters := ((o.value? 'd').getD ['\t'])
  let delimiters := (Text.replaceAll "\\n".toList ['\n'] (Text.replaceAll "\\t".toList ['\t']
    delimiters))
  let (texts, ok) ← readOperands "paste" o.operands
  let columns := columnsOfTexts texts
  let lines := if o.has 's' then
      columns.flatMap (fun c => pasted delimiters (c.map ([·])) 1)
    else pasted delimiters columns ((columns.map List.length).foldl max 0)
  Action.put (Bytes.ofLines lines)
  return statusOf ok

def foldedFrom (width : Nat) : (fuel : Nat) → Bytes → List Bytes
  | 0, _ => []
  | fuel + 1, t =>
    if t.length ≤ width then [t] else t.take width :: foldedFrom width fuel (t.drop width)

def fold : Program := OptionTable.andThen ⟨"fold", "b", "w", [("width", 'w')], 1, false⟩ fun o => do
  let width := max (((o.value? 'w').bind natural?).getD 80) 1
  let (texts, ok) ← readOperands "fold" o.operands
  for (_, b) in texts do
    let lines := (Bytes.lines b).flatMap (fun l => foldedFrom width (l.length + 1) l)
    Action.put (Bytes.ofLinesEnded lines (Bytes.isEnded b))
  return statusOf ok

def nl : Program := OptionTable.andThen ⟨"nl", "", "bwsv", [], 1, false⟩ fun o => do
  let all := o.value? 'b' == some ['a']
  let width := ((o.value? 'w').bind natural?).getD 6
  let joint := (o.value? 's').getD ['\t']
  let first := ((o.value? 'v').bind natural?).getD 1
  let (texts, ok) ← readOperands "nl" o.operands
  let lines := Bytes.lines (texts.map Prod.snd).flatten
  let rows := lines.foldl (fun (acc : List Bytes × Nat) line =>
    if line.isEmpty && !all then
      ((List.replicate (width + joint.length) ' ' ++ line) :: acc.1, acc.2)
    else ((padLeft width (Text.ofNat acc.2) ++ joint ++ line) :: acc.1, acc.2 + 1)) ([], first)
  Action.put (Bytes.ofLines rows.1.reverse)
  return statusOf ok

end ParameterManual.Shell.Program
