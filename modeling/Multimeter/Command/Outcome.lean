/-!
# Outcomes of the command

* `Command.Failure`: why the command fails, perhaps with a hint.
* `Command.Outcome`: what the command leaves behind besides files.
-/

namespace Multimeter.Command

structure Failure where
  message : String
  hint : Option String := none
deriving DecidableEq, Repr

def Failure.text (failure : Failure) : String :=
  "error: " ++ failure.message ++ "\n" ++
    (failure.hint.map fun hint => "hint: " ++ hint ++ "\n").getD ""

/-- The exit code and the texts on standard output and standard error. -/
structure Outcome where
  exitCode : UInt8 := 0
  output : String := ""
  messages : String := ""
deriving DecidableEq, Repr

def failureCode : UInt8 := 2

def Outcome.failed (outcome : Outcome) (failure : Failure) : Outcome :=
  { outcome with exitCode := failureCode, messages := outcome.messages ++ failure.text }

end Multimeter.Command
