import ParameterManual.ClassNode
import ParameterManual.Json.Basic

/-!
# Class trees as JSON

The fields of a variable and of a node in the order in which they are
written.
-/

set_option autoImplicit false

namespace ParameterManual.Json

def orNull {α : Type} (f : α → Json) : Option α → Json
  | some a => f a
  | none => null

def record (fields : List (String × Json)) : Json :=
  object (fields.map (fun f => (f.1.toList, f.2)))

def ofKind : BindKind → Json
  | .parameter => string "parameter".toList
  | .table => string "table".toList
  | .placeholder => string "placeholder".toList
  | .synthetic => string "synthetic".toList

def ofBound (b : Bound) : Json :=
  record [("value", string b.value), ("inclusive", boolean b.inclusive)]

def ofTexts (ts : List Text) : Json := array (ts.map string)

def ofVariable (v : Variable) : Json := record [
  ("symbol", string v.symbol), ("member", string v.member), ("name", string v.name),
  ("type_name", string v.typeName), ("description", string v.description),
  ("value", string v.value), ("default", orNull string v.default),
  ("lower_bound", orNull ofBound v.lowerBound), ("upper_bound", orNull ofBound v.upperBound),
  ("allowed_values", orNull ofTexts v.allowedValues), ("is_optional", boolean v.isOptional),
  ("is_estimable", boolean v.isEstimable), ("is_addressable", boolean v.isAddressable),
  ("kind", ofKind v.kind)]

mutual

def ofNode : ClassNode → Json
  | ⟨name, parentName, documented, order, children, filePath⟩ => record [
    ("name", string name), ("parent_name", string parentName),
    ("variables", object (documented.map (fun e => (e.1, ofVariable e.2)))),
    ("variable_order", ofTexts order), ("children", object (ofChildren children)),
    ("file_path", orNull string filePath)]
termination_by structural node => node

def ofChildren : List (Text × ClassNode) → List (Text × Json)
  | [] => []
  | (key, child) :: rest => (key, ofNode child) :: ofChildren rest
termination_by structural children => children

end

def ofHierarchy (h : Hierarchy) : Json :=
  record [("category", string h.category), ("root", ofNode h.root)]

def ofHierarchies (hs : List Hierarchy) : Json := array (hs.map ofHierarchy)

end ParameterManual.Json
