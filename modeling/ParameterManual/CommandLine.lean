import ParameterManual.CommandLine.Arguments
import ParameterManual.Shell.Execution

/-!
# The command line

The program with the shell that stands in for the one of the system. Nothing
but the program itself is built on this shell.
-/

set_option autoImplicit false

namespace ParameterManual

def Run.commandTypesetter (command : Text) : Run.Typesetter :=
  Run.shellTypesetter Shell.execute command

def CommandLine.execute (arguments : List Text) (tree : FileTree) : CommandLine.Outcome :=
  CommandLine.executeWith Shell.execute arguments tree

end ParameterManual
