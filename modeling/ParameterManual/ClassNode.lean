import ParameterManual.Text.Map
import ParameterManual.Variable

/-!
# Class trees

A node of a class tree sees the variables of its ancestors and documents its
own. The order of a node lists the symbols that it documents; its variables
are keyed by symbol and its children by name.
-/

set_option autoImplicit false

namespace ParameterManual

structure ClassNode where
  name : Text
  parentName : Text
  documented : TextMap Variable
  order : List Text
  children : List (Text × ClassNode)
  filePath : Option Text
  deriving Inhabited

namespace ClassNode

def empty (name parentName : Text) (documented : TextMap Variable) : ClassNode :=
  ⟨name, parentName, documented, [], [], none⟩

def document (node : ClassNode) (v : Variable) : ClassNode :=
  { node with
    order := if node.order.contains v.symbol then node.order else node.order ++ [v.symbol]
    documented := TextMap.insert v.symbol v node.documented }

/-- Puts own variables over the ones a node sees. -/
def layer (node : ClassNode) (own : List Variable) : ClassNode := own.foldl document node

/-- A root documents two given variables and its own. -/
def root (name : Text) (first second : Variable) (own : List Variable) : ClassNode :=
  layer { empty name [] (TextMap.ofEntries [(first.symbol, first), (second.symbol, second)]) with
    order := [first.symbol, second.symbol] } own

/-- The variables that a subtype sees of its parent. It does not redeclare
label and type, so these lose their names. -/
def inheritedVariables (parent : ClassNode) : TextMap Variable :=
  let unnamed (v : Variable) := { v with name := [] }
  TextMap.mapValue unnamed Variable.typeSymbol
    (TextMap.mapValue unnamed Variable.labelSymbol parent.documented)

def derive (parent : ClassNode) (name : Text) (own : List Variable) : ClassNode :=
  layer (empty name parent.name parent.inheritedVariables) own

def withChild (node child : ClassNode) : ClassNode :=
  { node with children := TextMap.insert child.name child node.children }

/-- The variables documented at a node, in order. -/
def ordered (node : ClassNode) : List Variable :=
  node.order.filterMap (fun symbol => TextMap.find? symbol node.documented)

def rendered (node : ClassNode) : List Variable := node.ordered.filter Variable.isRendered

mutual

def typeCount : ClassNode → Nat
  | ⟨_, _, _, _, children, _⟩ => 1 + typeCounts children
termination_by structural node => node

def typeCounts : List (Text × ClassNode) → Nat
  | [] => 0
  | (_, child) :: rest => child.typeCount + typeCounts rest
termination_by structural children => children

end

mutual

/-- The number of rendered variables in a tree. -/
def documentedCount : ClassNode → Nat
  | node@⟨_, _, _, _, children, _⟩ => node.rendered.length + documentedCounts children
termination_by structural node => node

def documentedCounts : List (Text × ClassNode) → Nat
  | [] => 0
  | (_, child) :: rest => child.documentedCount + documentedCounts rest
termination_by structural children => children

end

end ClassNode

/-- The class tree of one category. -/
structure Hierarchy where
  category : Text
  root : ClassNode

end ParameterManual
