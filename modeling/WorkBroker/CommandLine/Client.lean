import WorkBroker.Client.RoundTrip
import WorkBroker.CommandLine.Ending
import WorkBroker.CommandLine.Options
import WorkBroker.Net.World
/-!
The program that plays a script against a broker.
-/

set_option autoImplicit false
set_option relaxedAutoImplicit false

namespace WorkBroker.CommandLine.Client

open WorkBroker.Net

def known : List OptionSpec :=
  [⟨"broker", none, .text⟩, ⟨"messages", some 'n', .word 64⟩, ⟨"size", some 's', .word 64⟩,
    ⟨"priority", none, .word 8⟩, ⟨"retries", some 'r', .word 32⟩,
    ⟨"connect-timeout-ms", none, .word 64⟩, ⟨"request-timeout-ms", none, .word 64⟩,
    ⟨"max-message-size", none, .word 64⟩, ⟨"log-level", some 'l', .text⟩]

def brokerOf (found : Options) : String := (textOf found "broker").getD "127.0.0.1:9092"

def configOf (found : Options) : ClientConfig :=
  { brokers := [brokerOf found]
    connectionTimeout := Duration.ofMillis ((numberOf found "connect-timeout-ms").getD 5000)
    requestTimeout := Duration.ofMillis ((numberOf found "request-timeout-ms").getD 30000)
    retry := { maxRetries := (numberOf found "retries").getD 3 }
    maxMessageSize := (numberOf found "max-message-size").getD 1048576 }

def scriptOf (found : Options) : Script :=
  { messages := (numberOf found "messages").getD 1
    size := (numberOf found "size").getD 100
    priority := UInt8.ofNat ((numberOf found "priority").getD 0) }

def openingLine (found : Options) (s : Script) : LogLine :=
  ⟨.info, "mqclient",
    s!"Running {s.messages} message(s) of {s.size} bytes against {brokerOf found}"⟩

def run (arguments : List String) (process : String) (world : World) : Ending :=
  match read known arguments with
  | .error .help => Ending.silent 0
  | .error .misuse => Ending.silent ExitStatus.usage.code
  | .ok found =>
    let script := scriptOf found
    let (report, world) := world.perform (script.run (configOf found) process)
    let code := match report with
      | some report => report.status.code
      | none => ExitStatus.deliveryFailed.code
    let ending : Ending := ⟨code, openingLine found script :: world.log.reverse, none⟩
    ending.keep (logLevelOf (textOf found "log-level"))

end WorkBroker.CommandLine.Client
