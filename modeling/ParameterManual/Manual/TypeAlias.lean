import ParameterManual.Markup
import ParameterManual.Text.Map
import ParameterManual.Variable

/-!
# Type aliases

How the manual describes the type of a variable. A variable that can be
estimated or addressed is described as such; any other by the alias of its
declared type, or by that type itself.
-/

set_option autoImplicit false

namespace ParameterManual.Manual

def builtinAliases : TextMap Text := TextMap.ofEntries [
  ("Double".toList, "estimable".toList),
  ("vector<Double>".toList, "estimable vector".toList),
  ("map<unsigned,Double>".toList, "estimable vector".toList),
  ("map<string,Double>".toList, "estimable vector".toList),
  ("double".toList, "real number".toList),
  ("vector<double>".toList, "vector of real numbers".toList),
  ("map<unsigned,double>".toList, "vector of real numbers".toList),
  ("unsigned".toList, "non-negative integer".toList),
  ("vector<unsigned>".toList, "vector of non-negative integers".toList),
  ("int".toList, "integer".toList),
  ("vector<int>".toList, "vector of integers".toList),
  ("bool".toList, "boolean".toList),
  ("vector<bool>".toList, "vector of booleans".toList),
  ("string".toList, "string".toList),
  ("vector<string>".toList, "vector of strings".toList),
  ("vector<vector<string>>".toList, "vector of vectors of strings".toList),
  ("parameters::Table*".toList, "table".toList),
  ("Table*".toList, "table".toList)]

def flagText? (v : Variable) : Option Text :=
  if v.isEstimable then some "estimable".toList
  else if v.isAddressable then some "addressable".toList
  else none

def displayType (aliases : TextMap Text) (v : Variable) : Text :=
  match flagText? v with
  | some flag => if isContainer v.typeName then flag ++ " vector".toList else flag
  | none => (TextMap.find? v.typeName aliases).getD (Markup.escape v.typeName)

end ParameterManual.Manual
