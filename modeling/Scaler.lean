import Scaler.Coroutine.Basic
import Scaler.Coroutine.Machine
import Scaler.Coroutine.Logic
import Scaler.Coroutine.Soundness
import Scaler.Collections.Dict
import Scaler.Utility.Containers
import Scaler.Utility.ManyToMany
import Scaler.Utility.TwoWayDicts
import Scaler.Protocol
import Scaler.Policy.EvenLoad
import Scaler.Policy.EvenLoadInvariant
import Scaler.Policy.Capability
import Scaler.Policy.CapabilityInvariant
import Scaler.Policy.AllocateInvariant
import Scaler.Graph.TopologicalSorter
import Scaler.Graph.Acyclic
import Scaler.Graph.Graphlib
import Scaler.Graph.StaticOrder
import Scaler.Graph.Agreement
import Scaler.Graph.Issuing
import Scaler.Collections.PythonText
import Scaler.Collections.Shell
import Scaler.Config.WorkerCapabilities
import Scaler.Adapter.WorkerCommand
import Scaler.Config.ConfigClass
import Scaler.Config.Reconstruction
import Scaler.Config.TomlAgreement
import Scaler.Policy.Allocate
import Scaler.Scheduler.State
import Scaler.Scheduler.Services
import Scaler.Scheduler.ObjectTracker
import Scaler.Scheduler.ObjectLifetime
import Scaler.Scheduler.ClientObjects
import Scaler.Scheduler.GraphController
import Scaler.Scheduler.TaskController
import Scaler.Scheduler.Loop
import Scaler.Scheduler.Steps
import Scaler.Scheduler.Frames
import Scaler.Scheduler.Sane
import Scaler.Scheduler.GraphNodes
import Scaler.Coroutine.Alone
import Scaler.Scheduler.Registration
import Scaler.Scheduler.IntermediateResults
import Scaler.Refinement.Protocol
import Scaler.Refinement.Graph
import Scaler.Refinement.Task
import Scaler.Refinement.Scheduler
import Scaler.Invariant.Basic
import Scaler.Invariant.Locks
import Scaler.Invariant.Place
import Scaler.Invariant.Locality
import Scaler.ObjectStorage.ObjectManager
import Scaler.ObjectStorage.Accounting
import Scaler.ObjectStorage.Contents
import Scaler.ObjectStorage.Server
import Scaler.ObjectStorage.Pending
import Scaler.ObjectStorage.Framing
import Scaler.ObjectStorage.DecodeSafety
import Scaler.ObjectStorage.Link
import Scaler.ObjectStorage.Headers
import Scaler.ObjectStorage.SyncConnector
import Scaler.ObjectStorage.SyncPairing
import Scaler.ObjectStorage.AsyncConnector
import Scaler.ObjectStorage.AsyncFetches
import Scaler.Collections.Word
import Scaler.Collections.Worklist
import Scaler.Collections.Numeral
import Scaler.Ymq.Address
import Scaler.Ymq.MessageConnection
import Scaler.Ymq.RoundTrip
import Scaler.Ymq.ConnectorSocket
import Scaler.Ymq.Reconnect
import Scaler.Ymq.WebSocketStream
import Scaler.Ymq.WebSocketRoundTrip
import Scaler.Ymq.WebSocketUpgrade
import Scaler.Ymq.UpgradeRoundTrip
import Scaler.Ymq.Base64Encode
import Scaler.Ymq.FrameSafety
import Scaler.Ymq.BinderSocket
import Scaler.Ymq.IdentityTable
import Scaler.Ymq.SendCallbacks
import Scaler.Ymq.ConnectClient
import Scaler.Ymq.ConnectCallbacks
import Scaler.Ymq.BrowserSocket
import Scaler.Ymq.BrowserAgreement
import Scaler.Ymq.OverWebSocket
import Scaler.Collections.Backlog
import Scaler.Openssl.SecureSocket
import Scaler.Openssl.SendOrder
import Scaler.Policy.Workers
import Scaler.Policy.Calls
import Scaler.Policy.EvenLoads
import Scaler.Policy.EvenLoadBalance
import Scaler.Policy.CapabilityIndex
import Scaler.Policy.Reassignment
import Scaler.Collections.SortedKeyList
import Scaler.Policy.CapabilityBalance
import Scaler.Policy.BalanceMoves
import Scaler.Policy.BalanceRounds
import Scaler.Policy.BalanceAdvice
import Scaler.Policy.BalanceLevels
import Scaler.Policy.BalanceLevels
import Scaler.Policy.BalanceRoom
import Scaler.Scheduler.Submission
import Scaler.Invariant.Bookkeeping
import Scaler.Invariant.Registry
import Scaler.Collections.Outcome
import Scaler.Worker.Agent
import Scaler.Worker.ObjectCache
import Scaler.Worker.CacheFaithful
import Scaler.Worker.Holders
import Scaler.Worker.Queued
import Scaler.Worker.QueueOrder
import Scaler.Worker.Canceled
import Scaler.Worker.Suspended
import Scaler.Worker.DispatchLock
import Scaler.Client.Keywords
import Scaler.Client.Future
import Scaler.Client.FutureOnce
import Scaler.Client.Agent
import Scaler.Client.Tracking
import Scaler.Collections.Stateful
import Scaler.Client.ObjectBuffer
import Scaler.Client.BufferCalls
import Scaler.Client.GraphGet
import Scaler.Client.GraphPasses
import Scaler.Client.GraphMeaning
import Scaler.Client.Deduplication
import Scaler.Client.Uploads
import Scaler.Scaling.Policies
import Scaler.Scaling.Commands
import Scaler.Scaling.Waterfall
import Scaler.Scaling.WaterfallBound
import Scaler.Scaling.Agreement
import Scaler.Scaling.Units
import Scaler.Adapter.TaskManager
import Scaler.Adapter.Slots
import Scaler.Adapter.Answers
import Scaler.Collections.Base64
import Scaler.Adapter.Payloads
import Scaler.Adapter.PayloadTrips
import Scaler.Adapter.CapacityCoordinator
import Scaler.Adapter.Reconciliation
import Scaler.Collections.Ledger
import Scaler.Adapter.Provisioners
import Scaler.Adapter.Machines
import Scaler.Adapter.BatchBackend
import Scaler.Adapter.BatchCancel
import Scaler.Adapter.ContainerCancel
import Scaler.Adapter.JobMonitors
import Scaler.Adapter.MonitorOnce
import Scaler.Adapter.NativeWorkers
import Scaler.Collections.GreedyFill
import Scaler.Capnp.Schema
import Scaler.Capnp.PyObject
import Scaler.Capnp.Values
import Scaler.Capnp.Denotes
import Scaler.Capnp.Reading
import Scaler.Capnp.Serializing
import Scaler.Capnp.RoundTrip
import Scaler.Invariant.Whereabouts
import Scaler.Invariant.SingleHolder
import Scaler.Graph.Serving
import Scaler.Invariant.GraphRuns
import Scaler.Invariant.GraphIds
import Scaler.Invariant.Accounts
import Scaler.Invariant.Replies
import Scaler.Invariant.GraphReplies
