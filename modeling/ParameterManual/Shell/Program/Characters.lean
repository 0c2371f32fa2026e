import ParameterManual.Shell.Program.Options

/-!
# Sets of characters

Characters that are replaced by those at the same place of another set,
dropped, or written once for a run.
-/

set_option autoImplicit false

namespace ParameterManual.Shell.Program

/-- A character of a set at the start of a text: an escape or itself. -/
def setChar (t : Bytes) : Char × Bytes :=
  match t with
  | '\\' :: r =>
    let octal := (r.take 3).takeWhile (fun c => '0' ≤ c && c ≤ '7')
    if !octal.isEmpty then
      (Char.ofNat ((octal.foldl (fun n c => 8 * n + (c.toNat - '0'.toNat)) 0) % 256),
        r.drop octal.length)
    else
      match r with
      | [] => ('\\', [])
      | c :: r =>
        (if c = 'n' then '\n' else if c = 't' then '\t' else if c = 'r' then '\r'
          else if c = 'a' then '\x07' else if c = 'b' then '\x08' else if c = 'f' then '\x0c'
          else if c = 'v' then '\x0b' else c, r)
  | c :: r => (c, r)
  | [] => ('\x00', [])

def byteRange (first last : Char) : List Char :=
  (List.range (last.toNat + 1 - first.toNat)).map (fun i => Char.ofNat (first.toNat + i))

def allBytes : List Char := (List.range 256).map Char.ofNat

/-- The characters that the text of a set stands for, in order. A star fills
a set up to the length of the other. -/
def setChars (other : Nat) : (fuel : Nat) → Bytes → List Char
  | 0, _ => []
  | fuel + 1, t =>
    match t with
    | [] => []
    | '[' :: ':' :: r =>
      match className? r with
      | some (name, n) => allBytes.filter (isInClass name) ++ setChars other fuel (r.drop n)
      | none => '[' :: setChars other fuel (':' :: r)
    | '[' :: '=' :: c :: '=' :: ']' :: r => c :: setChars other fuel r
    | _ =>
      let (c, r) := setChar t
      match t, r with
      | '[' :: _, _ :: _ =>
        let (d, after) := setChar r
        match after with
        | '*' :: n =>
          match n.drop (n.takeWhile Text.isDigit).length with
          | ']' :: rest =>
            let count := (natural? (n.takeWhile Text.isDigit)).getD 0
            let tail := setChars other fuel rest
            List.replicate (if count = 0 then other - tail.length else count) d ++ tail
          | _ => c :: setChars other fuel r
        | _ => c :: setChars other fuel r
      | _, '-' :: e :: after =>
        let (d, rest) := setChar (e :: after)
        byteRange c d ++ setChars other fuel rest
      | _, _ => c :: setChars other fuel r

def setOf (other : Nat) (t : Bytes) : List Char := setChars other (t.length + 1) t

def squeezedChars (set : List Char) : Bytes → Bytes
  | a :: b :: t =>
    if a = b ∧ set.contains a then squeezedChars set (a :: t) else a :: squeezedChars set (b :: t)
  | t => t
termination_by t => t.length

def tr : Program := OptionTable.andThen ⟨"tr", "dscCt", "", [("delete", 'd'),
    ("squeeze-repeats", 's'), ("complement", 'c')], 1, true⟩ fun o => do
  let some first := o.operands.head? | do
    missing "tr" "operand"
  if o.operands.length < 2 && !o.has 'd' && !o.has 's' then
    return ← misused "tr" ("missing operand after '".toList ++ first ++ ['\x27'])
  let set1 := setOf 0 first
  let set1 := if o.has 'c' || o.has 'C' then allBytes.filter (fun c => !set1.contains c) else set1
  let set2 := (o.operands[1]?).map (setOf set1.length)
  let b ← Action.readAll
  let b :=
    if o.has 'd' then
      let kept := b.filter (fun c => !set1.contains c)
      if o.has 's' then squeezedChars (set2.getD []) kept else kept
    else
      match set2 with
      | none => squeezedChars set1 b
      | some set2 =>
        let set1 := if o.has 't' then set1.take set2.length else set1
        let last := set2.getLast?
        let pairs := set1.zipIdx.map (fun e => (e.1, (set2[e.2]? <|> last).getD e.1))
        let replaced := b.map (fun c => (pairs.reverse.lookup c).getD c)
        if o.has 's' then squeezedChars set2 replaced else replaced
  Action.put b
  return 0

end ParameterManual.Shell.Program
