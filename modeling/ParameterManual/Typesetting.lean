import ParameterManual.Run

/-!
# Typesetting with a command

The finished document is made by a command that a shell runs in the output
folder. The shell is not part of the program: it may do anything to the files.
-/

set_option autoImplicit false

namespace ParameterManual.Run

/-- Runs a command in the working folder of the files. -/
abbrev Shell := (command : Text) → FileTree → Ending × FileTree

/-- The command finds the written files in its folder and is not told of them. -/
def shellTypesetter (shell : Shell) (command : Text) : Typesetter := fun folder _ tree =>
  match tree.place folder with
  | .error fault => (.error (.notStarted command fault), tree)
  | .ok place =>
    if tree.isFolder folder then
      let (ending, after) := shell command { tree with here := place }
      let after := { after with here := tree.here }
      if ending.succeeded then (.ok (), after) else (.error (.ended command ending), after)
    else (.error (.notStarted command .notDirectory), tree)

end ParameterManual.Run
