import WorkBroker.Main
import WorkBroker.Broker.Settings.Document
import WorkBroker.Net.Pair
import WorkBroker.Net.Scenario
import WorkBroker.Wire.Buffer
import WorkBroker.Wire.PacketEntries
import WorkBroker.Wire.Stretch
import WorkBroker.Proofs.Queue.Coherence
import WorkBroker.Proofs.Hub.Fairness
import WorkBroker.Proofs.Queue.Accounting
import WorkBroker.Proofs.Queue.Agreement
import WorkBroker.Proofs.Queue.Loans
import WorkBroker.Proofs.Queue.Fifo
import WorkBroker.Proofs.Hub.Fates
import WorkBroker.Proofs.Wire.RoundTrip
import WorkBroker.Proofs.Wire.Grammar
import WorkBroker.Proofs.Wire.Stream
import WorkBroker.Proofs.Wire.Appending
import WorkBroker.Proofs.Wire.Framing
import WorkBroker.Proofs.Wire.Headers
import WorkBroker.Proofs.Wire.ErrorText
import WorkBroker.Proofs.Broker.Replies
import WorkBroker.Proofs.Hub.Parting
import WorkBroker.Proofs.Broker.Concourse
import WorkBroker.Proofs.Broker.Mirror
import WorkBroker.Proofs.Broker.Isolation
import WorkBroker.Proofs.Broker.Encodable
import WorkBroker.Proofs.Client.Courses
import WorkBroker.Proofs.Client.Delivery
import WorkBroker.Proofs.Queue.Sweep
import WorkBroker.Proofs.Queue.DueOrder
import WorkBroker.Proofs.Queue.PutBack
import WorkBroker.Proofs.Hub.SettleAndTake
import WorkBroker.Proofs.Hub.Interludes
import WorkBroker.Proofs.Connection.Life
import WorkBroker.Proofs.Net.Attendance
import WorkBroker.Proofs.Client.Sizes
import WorkBroker.Proofs.Client.Retries
import WorkBroker.Proofs.Client.RoundTrip
import WorkBroker.Proofs.Client.Cleanup
import WorkBroker.Proofs.Queue.Refused
import WorkBroker.Proofs.Client.Names
import WorkBroker.Proofs.Broker.Tally
import WorkBroker.Proofs.Client.Rounds
