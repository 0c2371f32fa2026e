import ParameterManual.Text.Basic

/-!
# Statistics

Counts of a build. The statistics of several categories are added up.
-/

set_option autoImplicit false

namespace ParameterManual

structure Statistics where
  categories : Nat
  types : Nat
  documentedVariables : Nat
  filesRead : Nat
  typesWithoutParameters : Nat
  deriving DecidableEq, Repr

namespace Statistics

def zero : Statistics := ⟨0, 0, 0, 0, 0⟩

def add (a b : Statistics) : Statistics :=
  ⟨a.categories + b.categories, a.types + b.types,
    a.documentedVariables + b.documentedVariables, a.filesRead + b.filesRead,
    a.typesWithoutParameters + b.typesWithoutParameters⟩

def total (all : List Statistics) : Statistics := all.foldl add zero

/-- The average number of documented variables of a type. -/
def variablesPerType (s : Statistics) : Float :=
  if s.types = 0 then 0 else Float.ofNat s.documentedVariables / Float.ofNat s.types

end Statistics

end ParameterManual
