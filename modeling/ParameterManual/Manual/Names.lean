import ParameterManual.Text.LowerCase

/-!
# Command names and labels

A type name is split before each inner capital. Its command is in lower case
with escaped underscores, its label has spaces. Literal replacements then
put acronyms together again.
-/

set_option autoImplicit false

namespace ParameterManual.Manual

structure NameRule where
  source : Text
  target : Text
  deriving DecidableEq, Repr

namespace NameRule

def defaults : List NameRule := [
  ⟨"m\\_c\\_m\\_c".toList, "mcmc".toList⟩,
  ⟨"M C M C".toList, "MCMC".toList⟩,
  ⟨"m\\_p\\_d".toList, "mpd".toList⟩,
  ⟨"M P D".toList, "MPD".toList⟩]

def applyAll (rules : List NameRule) (t : Text) : Text :=
  rules.foldl (fun t rule => Text.replaceAll rule.source rule.target t) t

end NameRule

/-- Puts the separator before each capital that follows a word character. -/
def splitCapitals (separator : Text) : Option Char → Text → Text
  | _, [] => []
  | last, c :: t =>
    if Text.isAsciiUpper c && last.any Text.isWordChar then
      separator ++ c :: splitCapitals separator (some c) t
    else c :: splitCapitals separator (some c) t

def command (rules : List NameRule) (typeName : Text) : Text :=
  NameRule.applyAll rules (Text.lower (splitCapitals "\\_".toList none typeName))

def label (rules : List NameRule) (typeName : Text) : Text :=
  NameRule.applyAll rules (splitCapitals " ".toList none typeName)

end ParameterManual.Manual
