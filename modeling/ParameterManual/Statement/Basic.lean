import ParameterManual.Source.Call
import ParameterManual.Error

/-!
# Statements

The constructor statements that declare parameters: a bind with a type and a
chain of modifiers, a table bind, and a registration.
-/

set_option autoImplicit false

namespace ParameterManual

structure Modifier where
  name : Text
  arguments : List Text
  deriving DecidableEq, Repr

inductive Statement where
  | bind (template : Text) (arguments : List Text) (modifiers : List Modifier)
  | bindTable (arguments : List Text)
  | register (arguments : List Text)
  deriving DecidableEq, Repr

namespace Statement

def bindLead : Text := "parameters_.Bind<".toList

def bindTableLead : Text := "parameters_.BindTable(".toList

def addressableLead : Text := "RegisterAsAddressable(".toList

def estimableLead : Text := "RegisterAsEstimable(".toList

def startsRegistration (line : Text) : Bool :=
  Text.startsWith addressableLead line || Text.startsWith estimableLead line

/-- Whether a line begins a statement. -/
def isStart (line : Text) : Bool :=
  Text.startsWith bindLead line || Text.startsWith bindTableLead line || startsRegistration line

end Statement

end ParameterManual
