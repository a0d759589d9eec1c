import WorkBroker.Text.Terminal
/-!
Lines of a log: how grave a line is, which part of the program speaks, and what it says.
-/

set_option autoImplicit false
set_option relaxedAutoImplicit false

namespace WorkBroker

inductive LogLevel
  | error
  | warn
  | info
  | debug
  | trace
  deriving DecidableEq, Repr, Inhabited

namespace LogLevel

def name : LogLevel → String
  | .error => "ERROR"
  | .warn => "WARN"
  | .info => "INFO"
  | .debug => "DEBUG"
  | .trace => "TRACE"

def rank : LogLevel → Nat
  | .error => 0
  | .warn => 1
  | .info => 2
  | .debug => 3
  | .trace => 4

def ofWord (word : String) : LogLevel :=
  match word with
  | "error" => .error
  | "warn" => .warn
  | "debug" => .debug
  | "trace" => .trace
  | _ => .info

def includes (kept line : LogLevel) : Bool := line.rank ≤ kept.rank

end LogLevel

/-- One line of a log, without the time at which it was written. -/
structure LogLine where
  level : LogLevel
  speaker : String
  text : String
  deriving DecidableEq, Repr, Inhabited

def LogLine.render (l : LogLine) : String :=
  s!"{l.level.name} {l.speaker}: {Text.firstLine (Text.forTerminal l.text)}"

end WorkBroker
