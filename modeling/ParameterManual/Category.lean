import ParameterManual.Text.Basic

/-!
# Categories

A category is a folder of related types with a common base type. The catalog
lists the categories of the framework in manual order.
-/

set_option autoImplicit false

namespace ParameterManual

structure Category where
  folder : Text
  base : Option Text
  nested : Bool
  suppressed : List Text
  deriving DecidableEq, Repr

namespace Category

def ofFolder (folder : Text) : Category := ⟨folder, none, true, []⟩

def isSuppressed (category : Category) (typeName : Text) : Bool :=
  category.suppressed.contains typeName

def catalog : List Category := [
  ofFolder "AgeingErrors".toList,
  ofFolder "AgeSizes".toList,
  ofFolder "Catchabilities".toList,
  ofFolder "DerivedQuantities".toList,
  ofFolder "Estimates".toList,
  ofFolder "InitialisationPhases".toList,
  ofFolder "Likelihoods".toList,
  { ofFolder "MCMC".toList with
    base := some "MCMC".toList, suppressed := ["IndependenceMetropolis".toList] },
  ofFolder "Minimisers".toList,
  { ofFolder "Model".toList with base := some "Model".toList, nested := false },
  ofFolder "Observations".toList,
  ofFolder "Penalties".toList,
  ofFolder "Processes".toList,
  ofFolder "Profiles".toList,
  { ofFolder "Reports".toList with nested := false },
  ofFolder "Selectivities".toList,
  ofFolder "SizeWeights".toList,
  ofFolder "TimeSteps".toList]

end Category

end ParameterManual
