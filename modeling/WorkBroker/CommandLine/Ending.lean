import WorkBroker.Log
import WorkBroker.Text.Lower
/-!
What a program leaves behind: its exit code, its log, and the failure that it reports.
-/

set_option autoImplicit false
set_option relaxedAutoImplicit false

namespace WorkBroker.CommandLine

structure Ending where
  code : Nat
  log : List LogLine
  failure : Option String
  deriving DecidableEq, Repr, Inhabited

namespace Ending

def silent (code : Nat) : Ending := ⟨code, [], none⟩

/-- The ending with only those lines of the log that are grave enough. -/
def keep (e : Ending) (level : LogLevel) : Ending :=
  { e with log := e.log.filter fun l => level.includes l.level }

end Ending

def logLevelOf (word : Option String) : LogLevel :=
  match word with
  | some word => LogLevel.ofWord (Text.lower word)
  | none => .info

end WorkBroker.CommandLine
