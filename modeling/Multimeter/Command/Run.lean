import Multimeter.Command.Decode
import Multimeter.Command.Listing

/-!
# Running the command

* `Command.run`: the outcome of the command for its arguments, if they make a request.
-/

namespace Multimeter.Command

/-- The outcome of the command for its arguments; nothing when they make no request. -/
def run {m : Type → Type} [Monad m] [FileAccess m] (arguments : List String) :
    m (Option Outcome) := do
  match Request.ofArguments? arguments with
  | none => return none
  | some .listProtocols => return some listing
  | some (.decode options) => return some (← decode options)

end Multimeter.Command
