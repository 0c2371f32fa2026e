import ParameterManual.Text.Basic

/-!
# Ends of commands

A command exits with a code or is ended by a signal.
-/

set_option autoImplicit false

namespace ParameterManual.Run

inductive Ending where
  | exit (code : Nat)
  | signal (number : Nat)
  deriving DecidableEq, Repr

def signalNames : List (Nat × String) := [
  (1, "HUP"), (2, "INT"), (3, "QUIT"), (4, "ILL"), (5, "TRAP"), (6, "ABRT"), (7, "BUS"),
  (8, "FPE"), (9, "KILL"), (10, "USR1"), (11, "SEGV"), (12, "USR2"), (13, "PIPE"),
  (14, "ALRM"), (15, "TERM"), (16, "STKFLT"), (17, "CHLD"), (18, "CONT"), (19, "STOP"),
  (20, "TSTP"), (21, "TTIN"), (22, "TTOU"), (23, "URG"), (24, "XCPU"), (25, "XFSZ"),
  (26, "VTALRM"), (27, "PROF"), (28, "WINCH"), (29, "IO"), (30, "PWR"), (31, "SYS")]

def signalName? (number : Nat) : Option Text := (signalNames.lookup number).map String.toList

def Ending.succeeded : Ending → Bool
  | .exit code => code == 0
  | .signal _ => false

def Ending.text : Ending → Text
  | .exit code => "exit status: ".toList ++ Text.ofNat code
  | .signal number =>
    "signal: ".toList ++ Text.ofNat number ++
      match signalName? number with
      | some name => " (SIG".toList ++ name ++ [')']
      | none => []

end ParameterManual.Run
