import MiniOcs.Concurrent.Program
import MiniOcs.Concurrent.Triple
import MiniOcs.Concurrent.System
import MiniOcs.Concurrent.Stream
import MiniOcs.Types
import MiniOcs.Device.Simulated
import MiniOcs.Device.Matrix
import MiniOcs.Device.Apply
import MiniOcs.Device.Fences
import MiniOcs.Fifo
import MiniOcs.Device.Replay
import MiniOcs.BigEndian
import MiniOcs.Json.Value
import MiniOcs.Json.Text
import MiniOcs.Json.Access
import MiniOcs.Uds.Codec
import MiniOcs.Uds.Json
import MiniOcs.Uds.Backend
import MiniOcs.Uds.Typed
import MiniOcs.Uds.Equivalence
import MiniOcs.Dict
import MiniOcs.Gnmi.Candidate
import MiniOcs.Gnmi.CandidateMatching
import MiniOcs.Gnmi.Commit
import MiniOcs.Gnmi.Serializable
import MiniOcs.Gnmi.Linearizable
import MiniOcs.Gnmi.Log
import MiniOcs.StateMachine
import MiniOcs.Records
import MiniOcs.World
import MiniOcs.Orch.Service
import MiniOcs.Orch.Actions
import MiniOcs.Orch.Contract
import MiniOcs.Orch.Streams
import MiniOcs.Orch.Copies
import MiniOcs.Orch.Agreement
import MiniOcs.Orch.TimeoutAlarms
import MiniOcs.Orch.Alone
import MiniOcs.Orch.Backoff
import MiniOcs.Orch.Connections
import MiniOcs.Orch.VersionGap
import MiniOcs.Orch.Retries
import MiniOcs.Orch.Behind
import MiniOcs.Orch.BoundedRetries
import MiniOcs.Reconciler
import MiniOcs.Convergence
import MiniOcs.Syncd.Service
import MiniOcs.Syncd.Poll
import MiniOcs.Syncd.Actions
import MiniOcs.Syncd.Contract
import MiniOcs.Syncd.PollContract
import MiniOcs.Syncd.Footprint
import MiniOcs.Syncd.PortLoops
import MiniOcs.Syncd.Ports
import MiniOcs.Syncd.PortAlarms
import MiniOcs.Syncd.Reconciliations
import MiniOcs.Syncd.Drifts
import MiniOcs.Syncd.Faults
import MiniOcs.Syncd.OneShots
import MiniOcs.Redis.Events
import MiniOcs.Redis.Groups
import MiniOcs.Redis.Transactions
import MiniOcs.Redis.Once
import MiniOcs.Gnmi.Subscribe
import MiniOcs.Gnmi.Notifications
import MiniOcs.Concurrent.Provenance
import MiniOcs.Concurrent.Chronicle
import MiniOcs.Provenance
import MiniOcs.Orch.Provenance
import MiniOcs.Syncd.Provenance
import MiniOcs.Syncd.Witnesses
import MiniOcs.Syncd.TrueSuccess
import MiniOcs.Syncd.Account
import MiniOcs.Syncd.Booked
import MiniOcs.Syncd.ExactlyOnce
import MiniOcs.Syncd.Recovery
import MiniOcs.Cli
import MiniOcs.Narrowing
import MiniOcs.Redis.Payloads
import MiniOcs.Uds.AnyLink
import MiniOcs.Uds.Discipline
import MiniOcs.Gnmi.PathParser
import MiniOcs.Gnmi.PathGrammar
import MiniOcs.Gnmi.GetRepository
import MiniOcs.Gnmi.SetThenGet
import MiniOcs.KeyedFold
import MiniOcs.WordLoop
import MiniOcs.Gnmi.CandidateSemantics
import MiniOcs.Gnmi.SetRequest
import MiniOcs.Concurrent.Journal
import MiniOcs.Syncd.Announcements
import MiniOcs.Orch.Announcements
import MiniOcs.ControlPlane
import MiniOcs.Syncd.Durable
import MiniOcs.Redis.Scan
import MiniOcs.Gnmi.PathText
import MiniOcs.FaultExchange
import MiniOcs.ConnectionRoute
