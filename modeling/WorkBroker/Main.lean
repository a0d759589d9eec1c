import WorkBroker.CommandLine.Client
import WorkBroker.CommandLine.Server
/-!
The command line: the first word chooses between the broker and the client.  There is no transport
here but the one in memory, so the broker serves nobody and the client reaches nobody.
-/

set_option autoImplicit false
set_option relaxedAutoImplicit false

namespace WorkBroker

def readVariables : IO (List (String × String)) := do
  let names := (Settings.hostName :: Settings.Field.all.map Settings.Field.name).map fun name =>
    (Settings.programWord ++ name).toUpper
  let mut found := []
  for name in names do
    if let some value ← IO.getEnv name then
      found := (name, value) :: found
  return found.reverse

def report (ending : CommandLine.Ending) : IO UInt32 := do
  for l in ending.log do
    IO.println l.render
  if let some failure := ending.failure then
    IO.eprintln failure
  return UInt32.ofNat ending.code

end WorkBroker

def main (arguments : List String) : IO UInt32 := do
  match arguments with
  | "server" :: rest =>
    WorkBroker.report (WorkBroker.CommandLine.Server.run rest (← WorkBroker.readVariables) "0" .terminate)
  | "client" :: rest =>
    WorkBroker.report
      (WorkBroker.CommandLine.Client.run rest "1" (WorkBroker.Net.World.ofServer .nobody))
  | _ => do
    IO.eprintln "usage: workbroker (server | client) OPTIONS"
    return 2
