import ParameterManual.Category
import ParameterManual.ClassNode
import ParameterManual.Manual.Names
import ParameterManual.Manual.TypeAlias

/-!
# Manual sections

The section of a category defines the command of its root type, lists the
root's variables, and has one subsection for each further type, in the order
of the tree. A suppressed type is left out together with its descendants.
-/

set_option autoImplicit false

namespace ParameterManual.Manual

/-- The tables that decide how names and types are spelled. -/
structure Style where
  aliases : TextMap Text
  rules : List NameRule

def braced (t : Text) : Text := '\x7b' :: t ++ ['\x7d']

def bracketed (t : Text) : Text := '[' :: t ++ [']']

/-- A control sequence with braced arguments. -/
def control (name : Text) (arguments : List Text) : Text :=
  '\\' :: name ++ arguments.flatMap braced

def line (t : Text) : Text := t ++ ['\n']

def optionalLine (name : Text) : Option Text → Text
  | some t => line (control name [t])
  | none => []

def nonempty? (t : Text) : Option Text := if t.isEmpty then none else some t

def entry (style : Style) (v : Variable) : Text :=
  line (control "defSub".toList [v.name] ++ ' ' :: braced v.description) ++
    line (control "defType".toList [displayType style.aliases v]) ++
    optionalLine "defDefault".toList (v.default.bind nonempty?) ++
    optionalLine "defValue".toList (nonempty? v.value) ++
    optionalLine "defLowerBound".toList (v.lowerBound.map Bound.text) ++
    optionalLine "defUpperBound".toList (v.upperBound.map Bound.text) ++
    optionalLine "defAllowedValues".toList (v.allowedValues.map (Text.joined ", ".toList)) ++
    line []

def entries (style : Style) (node : ClassNode) : Text := node.rendered.flatMap (entry style)

def rootHeading (style : Style) (name : Text) : Text :=
  line (control "defComLab".toList [command style.rules name,
    "Define an object of type ".toList ++
      control "emph".toList [label style.rules name]]) ++ line []

def subtypeHeading (style : Style) (rootCommand name : Text) : Text :=
  line ("\\subsubsection".toList ++ bracketed (label style.rules name) ++
    braced (control "commandlabsubarg".toList
      [rootCommand, "type".toList, command style.rules name])) ++ line []

mutual

def subtree (style : Style) (category : Category) (rootCommand : Text) : ClassNode → Text
  | node@⟨name, _, _, _, children, _⟩ =>
    if category.isSuppressed name then []
    else
      subtypeHeading style rootCommand name ++ entries style node ++
        subtrees style category rootCommand children
termination_by structural node => node

def subtrees (style : Style) (category : Category) (rootCommand : Text) :
    List (Text × ClassNode) → Text
  | [] => []
  | (_, child) :: rest =>
    subtree style category rootCommand child ++ subtrees style category rootCommand rest
termination_by structural children => children

end

def render (style : Style) (category : Category) (hierarchy : Hierarchy) : Text :=
  rootHeading style hierarchy.root.name ++ entries style hierarchy.root ++
    subtrees style category (command style.rules hierarchy.root.name) hierarchy.root.children

/-- The name of the file that holds the section of a hierarchy. -/
def fileName (hierarchy : Hierarchy) : Text := hierarchy.root.name ++ ".tex".toList

end ParameterManual.Manual
