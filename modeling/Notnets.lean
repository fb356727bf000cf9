import Notnets.Foundation.TransitionSystem
import Notnets.Foundation.HelpfulLabel
import Notnets.Foundation.FairSchedule
import Notnets.Foundation.Leading
import Notnets.Foundation.Observation
import Notnets.Foundation.RoundRobin
import Notnets.Foundation.MachineInteger
import Notnets.Foundation.RingBuffer
import Notnets.Foundation.MessageStream
import Notnets.Foundation.MessageChannel
import Notnets.Foundation.Effect
import Notnets.Foundation.Halting
import Notnets.Foundation.IpcTable
import Notnets.Foundation.Renumbering
import Notnets.Foundation.RingMemory
import Notnets.Foundation.BoundedFifo
import Notnets.Foundation.Rotation
import Notnets.Foundation.SampleMoments
import Notnets.Queue.Header
import Notnets.Queue.Poll
import Notnets.Queue.PollInvariant
import Notnets.Queue.PollFifo
import Notnets.Queue.PollSeparation
import Notnets.Queue.PollProgress
import Notnets.Queue.Sem
import Notnets.Queue.SemInvariant
import Notnets.Queue.SemWakeUp
import Notnets.Queue.SemFifo
import Notnets.Queue.SemLock
import Notnets.Queue.Guard
import Notnets.Queue.Call
import Notnets.Queue.PollCall
import Notnets.Queue.SemCall
import Notnets.Queue.SemProgress
import Notnets.Queue.PollChannel
import Notnets.Queue.SemChannel
import Notnets.Queue.RingTransport
import Notnets.Queue.Agreement
import Notnets.Queue.Usable
import Notnets.Queue.Leftover
import Notnets.Queue.PopContract
import Notnets.Queue.Boost
import Notnets.Queue.Peek
import Notnets.Os.Kernel
import Notnets.Os.SemaphoreSets
import Notnets.Os.Alongside
import Notnets.Os.FailingCalls
import Notnets.Coord.Table
import Notnets.Coord.RowField
import Notnets.Coord.Hash
import Notnets.Rpc.ManagePool
import Notnets.Rpc.Client
import Notnets.Rpc.Close
import Notnets.Rpc.Arrival
import Notnets.Rpc.Shutdown
import Notnets.Rpc.ManagerThread
import Notnets.Rpc.StopSimulation
import Notnets.Rpc.Accept
import Notnets.Rpc.Endpoint
import Notnets.Rpc.TypeAgreement
import Notnets.Rpc.Handshake
import Notnets.Rpc.HandshakeInvariant
import Notnets.Rpc.HandshakeSafety
import Notnets.Rpc.HandshakeSteps
import Notnets.Rpc.Allocator
import Notnets.Rpc.Visit
import Notnets.Rpc.Isolation
import Notnets.Rpc.CleanUp
import Notnets.Rpc.Removal
import Notnets.Rpc.Pipeline
import Notnets.Rpc.PipelineFair
import Notnets.Rpc.SemPipeline
import Notnets.Rpc.SemDeadlock
import Notnets.Rpc.BoostPipeline
import Notnets.Rpc.SemService
import Notnets.Rpc.Server
import Notnets.Rpc.Restart
import Notnets.Rpc.Journal
import Notnets.Rpc.Holdings
import Notnets.Rpc.Bookkeeping
import Notnets.Rpc.Leak
import Notnets.Rpc.SideBySide
import Notnets.Rpc.Bystanders
import Notnets.Rpc.Newcomer
import Notnets.Rpc.Harmless
import Notnets.Rpc.Sentinels
import Notnets.Rpc.FailedAllocation
import Notnets.Rpc.Fairness
import Notnets.Rpc.Service
import Notnets.Rpc.ServiceInvariant
import Notnets.Rpc.ServiceRefinement
import Notnets.Rpc.ServiceProgress
import Notnets.Rpc.ServiceFair
import Notnets.Rpc.HostedService
import Notnets.Rpc.HostedCalls
import Notnets.Rpc.HostedRelation
import Notnets.Rpc.HostedRefinement
import Notnets.Util.RunningStat
import Notnets.Os.InitRace
