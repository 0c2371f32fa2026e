import ParameterManual.Files.Tree

/-!
# Bytes

A shell works on bytes. Inside it a text holds one character below 256 for
each byte, and only names and contents of files are texts of full characters.
-/

set_option autoImplicit false

namespace ParameterManual.Shell

abbrev Bytes := Text

namespace Bytes

def ofList (bytes : List UInt8) : Bytes := bytes.map (fun b => Char.ofNat b.toNat)

def ofText (t : Text) : Bytes := ofList (String.ofList t).toUTF8.toList

def toByteArray (b : Bytes) : ByteArray := ByteArray.mk (b.map (fun c => c.toNat.toUInt8)).toArray

/-- The text that the bytes spell; bytes that spell none stay as they are. -/
def toText (b : Bytes) : Text :=
  if b.all (fun c => c.toNat < 0x80) then b
  else
    match String.fromUTF8? (toByteArray b) with
    | some s => s.toList
    | none => b

def ofContent : Content → Bytes
  | .text t => if t.all (fun c => c.toNat < 0x80) then t else ofText t
  | .binary bytes => ofList bytes

def toContent (b : Bytes) : Content :=
  if b.all (fun c => c.toNat < 0x80) then .text b else Content.ofBytes (toByteArray b)

def linesFrom : (line : Bytes) → Bytes → List Bytes × Bool
  | line, [] => if line.isEmpty then ([], true) else ([line.reverse], false)
  | line, c :: t =>
    if c = '\n' then
      let rest := linesFrom [] t
      (line.reverse :: rest.1, rest.2)
    else linesFrom (c :: line) t

def lines (b : Bytes) : List Bytes := (linesFrom [] b).1

def isEnded (b : Bytes) : Bool := (linesFrom [] b).2

def ofLines (lines : List Bytes) : Bytes := lines.flatMap (· ++ ['\n'])

def ofLinesEnded (lines : List Bytes) (ended : Bool) : Bytes :=
  if ended then ofLines lines else (ofLines lines).dropLast

end Bytes

end ParameterManual.Shell
