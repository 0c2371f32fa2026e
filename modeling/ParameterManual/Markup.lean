import ParameterManual.Text.Basic

/-!
# Markup

Running text of the manual is LaTeX. A special character needs a backslash
in front of it, except between a pair of dollar signs, which is inline math.
A dollar sign after a backslash is text and pairs with nothing, and the last
of an odd number of dollar signs is text as well.
-/

set_option autoImplicit false

namespace ParameterManual.Markup

def isSpecial (c : Char) : Bool :=
  c == '_' || c == '%' || c == '&' || c == '#' || c == '$'

/-- Whether a dollar sign without a backslash follows. The flag says that a
backslash has just been read. -/
def hasDelimiter : Bool → Text → Bool
  | _, [] => false
  | escaped, c :: t => (c == '$' && !escaped) || hasDelimiter (c == '\\') t

mutual

def escapeText : Bool → Text → Text
  | _, [] => []
  | escaped, c :: t =>
    if escaped then c :: escapeText (c == '\\') t
    else if c = '$' ∧ hasDelimiter false t = true then c :: escapeMath false t
    else if isSpecial c then '\\' :: c :: escapeText false t
    else c :: escapeText (c == '\\') t

def escapeMath : Bool → Text → Text
  | _, [] => []
  | escaped, c :: t =>
    if c = '$' ∧ escaped = false then c :: escapeText false t
    else c :: escapeMath (c == '\\') t

end

def escape (t : Text) : Text := escapeText false t

end ParameterManual.Markup
