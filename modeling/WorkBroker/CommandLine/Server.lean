import WorkBroker.Broker.Settings.Environment
import WorkBroker.CommandLine.Ending
import WorkBroker.CommandLine.Options
import WorkBroker.Net.Ipv6
/-!
The program that runs a broker: environment variables change the usual set-up, options change it
further, and a signal ends the run.
-/

set_option autoImplicit false
set_option relaxedAutoImplicit false

namespace WorkBroker.CommandLine.Server

open WorkBroker.Settings (Field)

inductive Signal
  | terminate
  | interrupt
  deriving DecidableEq, Repr, Inhabited

def Signal.describe : Signal → String
  | .terminate => "SIGTERM"
  | .interrupt => "Ctrl+C"

/-- The options that set a number, and the fields that they set. -/
def fieldOptions : List (String × Option Char × Field) :=
  [("port", some 'p', .port), ("max-connections", some 'a', .maxConnections),
    ("max-retries", some 'r', .maxRetries), ("max-message-size", some 'm', .maxMessageSize),
    ("capacity", none, .queueCapacity), ("priorities", none, .priorityLevels),
    ("ack-timeout-ms", none, .ackTimeout), ("boost-timeout-ms", none, .boostTimeout),
    ("handshake-timeout-ms", none, .handshakeTimeout), ("idle-timeout-ms", none, .idleTimeout)]

def known : List OptionSpec :=
  ⟨"host", none, .text⟩ :: ⟨"log-level", some 'l', .text⟩ ::
    fieldOptions.map fun (long, letter, field) => ⟨long, letter, .word field.width⟩

def applyOptions (found : Options) (s : Settings) : Settings :=
  let s := match textOf found "host" with
    | some host => { s with host }
    | none => s
  fieldOptions.foldl
    (fun s (long, _, field) =>
      match numberOf found long with
      | some n => field.set n s
      | none => s)
    s

def line (text : String) : LogLine := ⟨.info, "mqserver", text⟩

def announcement (s : Settings) : List LogLine :=
  [line s!"Starting MQueue broker on {s.bindAddress}",
    line s!"Max connections: {s.maxConnections.toNat}",
    line s!"Max retries: {s.maxRetries.toNat}",
    line s!"Max message size: {s.maxMessageSize.toNat} bytes",
    line s!"Queue capacity: {s.queueCapacity.toNat} ({s.priorityLevels.toNat} priority levels)"]

/-- Where a broker listens.  A host in brackets is an address of its own kind and is told in its
shortest form, with the port that was asked for; else the system may have chosen the port. -/
def listeningAddress (s : Settings) (port : String) : String :=
  match Net.Ipv6.ofHost? s.host with
  | some address => s!"{address.render}:{s.port.toNat}"
  | none => s!"{s.host}:{port}"

def listeningLine (s : Settings) (port : String) : LogLine :=
  let address := listeningAddress s port
  ⟨.info, "mqueue::broker::server",
    s!"MQueue broker listening on {address} (max connections {s.maxConnections.toNat}, " ++
      s!"max retries {s.maxRetries.toNat}, max message size {s.maxMessageSize.toNat})"⟩

def farewell (signal : Signal) : List LogLine :=
  [line s!"Received {signal.describe}, shutting down gracefully...",
    line "MQueue shut down successfully"]

def configFailure (text : String) : String := s!"Error: Config({Text.quoted text})"

def run (arguments : List String) (environment : List (String × String)) (port : String)
    (signal : Signal) : Ending :=
  match read known arguments with
  | .error .help => Ending.silent 0
  | .error .misuse => Ending.silent 2
  | .ok found =>
    let ending : Ending := match Settings.ofEnvironment environment with
      | .error (.config text) => ⟨1, [], some (configFailure text)⟩
      | .error e => ⟨1, [], some e.message⟩
      | .ok s =>
        let s := applyOptions found s
        match s.fault? with
        | some fault => ⟨1, announcement s, some (configFailure fault)⟩
        | none => ⟨0, announcement s ++ listeningLine s port :: farewell signal, none⟩
    ending.keep (logLevelOf (textOf found "log-level"))

end WorkBroker.CommandLine.Server
