import ParameterManual.Text.Basic

/-!
# Variables

A variable documents one configuration parameter. Its texts are ready for
the manual: names, descriptions and values are escaped when they are read.
-/

set_option autoImplicit false

namespace ParameterManual

/-- How a variable entered the documentation. -/
inductive BindKind where
  | parameter
  | table
  | placeholder
  | synthetic
  deriving DecidableEq, Repr

structure Bound where
  value : Text
  inclusive : Bool
  deriving DecidableEq, Repr

def Bound.text (b : Bound) : Text :=
  b.value ++ (if b.inclusive then " (inclusive)" else " (exclusive)").toList

structure Variable where
  symbol : Text
  member : Text
  name : Text
  typeName : Text
  description : Text
  value : Text
  default : Option Text
  lowerBound : Option Bound
  upperBound : Option Bound
  allowedValues : Option (List Text)
  isOptional : Bool
  isEstimable : Bool
  isAddressable : Bool
  kind : BindKind
  deriving DecidableEq, Repr

namespace Variable

def plain (kind : BindKind) (symbol member name typeName : Text) : Variable :=
  { symbol, member, name, typeName, description := [], value := [], default := none,
    lowerBound := none, upperBound := none, allowedValues := none, isOptional := false,
    isEstimable := false, isAddressable := false, kind }

/-- A text entry that every object has without a bind. -/
def synthetic (symbol name description : Text) : Variable :=
  { plain .synthetic symbol [] name "string".toList with description }

def labelSymbol : Text := "PARAM_LABEL".toList

def typeSymbol : Text := "PARAM_TYPE".toList

def label : Variable :=
  synthetic labelSymbol "label".toList "The label of the object".toList

def type : Variable :=
  synthetic typeSymbol "type".toList "The type of the object".toList

/-- A variable without a name produces no output. -/
def isRendered (v : Variable) : Bool := !v.name.isEmpty

end Variable

/-- Whether a type holds several values. -/
def isContainer (typeName : Text) : Bool :=
  Text.startsWith "vector<".toList typeName || Text.startsWith "map<".toList typeName ||
    Text.startsWith "OrderedMap<".toList typeName

end ParameterManual
