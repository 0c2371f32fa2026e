import ParameterManual.Source.Comment

/-!
# Comments over successive lines

All that one line tells the next is whether a block comment is open. So the
code lines of a file are those of its parts, each read with what the part
before it leaves open.
-/

set_option autoImplicit false

namespace ParameterManual.Source

def openComment : Bool → List Text → Bool
  | inBlock, [] => inBlock
  | inBlock, line :: rest => openComment (stripComments inBlock line).2 rest

def codeLine (inBlock : Bool) (line : Text) : Text := (stripComments inBlock line).1.trim

def codeOf (inBlock : Bool) (lines : List Text) : List Text :=
  (stripLines inBlock lines).map Text.trim

theorem codeOf_cons (inBlock : Bool) (line : Text) (rest : List Text) :
    codeOf inBlock (line :: rest) =
      codeLine inBlock line :: codeOf (stripComments inBlock line).2 rest := rfl

theorem codeOf_append (inBlock : Bool) (lines others : List Text) :
    codeOf inBlock (lines ++ others) =
      codeOf inBlock lines ++ codeOf (openComment inBlock lines) others := by
  induction lines generalizing inBlock with
  | nil => rfl
  | cons line rest ih => simp [codeOf_cons, openComment, ih]

theorem codeOf_length (inBlock : Bool) (lines : List Text) :
    (codeOf inBlock lines).length = lines.length := by
  induction lines generalizing inBlock with
  | nil => rfl
  | cons line rest ih => rw [codeOf_cons, List.length_cons, List.length_cons, ih]

theorem openComment_append (inBlock : Bool) (lines others : List Text) :
    openComment inBlock (lines ++ others) = openComment (openComment inBlock lines) others := by
  induction lines generalizing inBlock with
  | nil => rfl
  | cons line rest ih => exact ih _

end ParameterManual.Source
