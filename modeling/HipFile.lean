import HipFile.Lib.Loop
import HipFile.Lib.Bytes
import HipFile.Lib.Machine
import HipFile.Lib.Parties
import HipFile.Lib.Separate
import HipFile.Lib.Prog
import HipFile.Lib.RefCount
import HipFile.Lib.Word
import HipFile.Lib.Table
import HipFile.Lib.Handles
import HipFile.Lib.Interleaving
import HipFile.Lib.FirstMax
import HipFile.Lib.Signed
import HipFile.Lib.Joined
import HipFile.Lib.Strided
import HipFile.Lib.Followed
import HipFile.Lib.Contiguous
import HipFile.Lib.Strtoul
import HipFile.Lib.Links
import HipFile.Lib.Noexcept
import HipFile.Lib.Held
import HipFile.Lib.Waiting
import HipFile.Model.Basic
import HipFile.Model.Io
import HipFile.Model.World
import HipFile.Model.Fallback
import HipFile.Model.ConcurrentIo
import HipFile.Model.Fastpath
import HipFile.Model.Buffer
import HipFile.Model.File
import HipFile.Model.Stream
import HipFile.Model.State
import HipFile.Model.HipFile
import HipFile.Model.Driver
import HipFile.Model.Batch
import HipFile.Model.Region
import HipFile.Model.Registry
import HipFile.Model.Descriptors
import HipFile.Model.AsyncMonitor
import HipFile.Model.Completion
import HipFile.Model.AsyncIo
import HipFile.Model.AsyncStages
import HipFile.Model.Backend
import HipFile.Model.BackendWithFallback
import HipFile.Model.Requests
import HipFile.Model.SignedSums
import HipFile.Model.MountInfo
import HipFile.Model.Refusals
import HipFile.Model.StreamQueue
import HipFile.Model.Cleanup
import HipFile.Model.CallingProcess
import HipFile.Model.Environment
import HipFile.Model.FallbackChain
import HipFile.Model.StatsServer
import HipFile.Model.StatsReport
import HipFile.Model.StatsConnection
import HipFile.Model.Aiscp
import HipFile.Model.Locking
import HipFile.Proof.FallbackCalls
import HipFile.Proof.FallbackRead
import HipFile.Proof.FallbackWrite
import HipFile.Proof.ConcurrentIo
import HipFile.Proof.ConcurrentAlone
import HipFile.Proof.ConcurrentRuns
import HipFile.Proof.Acceptance
import HipFile.Proof.Registration
import HipFile.Proof.ReturnValue
import HipFile.Proof.DriverCount
import HipFile.Proof.Batch
import HipFile.Proof.Region
import HipFile.Proof.Registry
import HipFile.Proof.Descriptors
import HipFile.Proof.DriverClose
import HipFile.Proof.AsyncMonitor
import HipFile.Proof.Completion
import HipFile.Proof.AsyncSubmit
import HipFile.Proof.AsyncBounds
import HipFile.Proof.AsyncExact
import HipFile.Proof.AsyncTransfer
import HipFile.Proof.AsyncPipeline
import HipFile.Proof.AsyncRun
import HipFile.Proof.AsyncStages
import HipFile.Proof.BackendActions
import HipFile.Proof.AsyncActions
import HipFile.Proof.Settings
import HipFile.Proof.Accounting
import HipFile.Proof.Selection
import HipFile.Proof.Failover
import HipFile.Proof.FastpathAlignment
import HipFile.Proof.AddressSums
import HipFile.Proof.FileOffsets
import HipFile.Proof.MountInfo
import HipFile.Proof.Kernel
import HipFile.Proof.PublicIo
import HipFile.Proof.Refusals
import HipFile.Proof.StableStorage
import HipFile.Proof.StreamQueue
import HipFile.Proof.StreamCalls
import HipFile.Proof.StreamStages
import HipFile.Proof.Cleanup
import HipFile.Proof.CallingProcess
import HipFile.Proof.StatsServer
import HipFile.Proof.StatsConnection
import HipFile.Proof.StatsReport
import HipFile.Proof.AiscpCalls
import HipFile.Proof.AiscpCopy
import HipFile.Proof.AiscpSucceeds
import HipFile.Proof.Locking
import HipFile.Proof.LockingRuns
import HipFile.Model.StreamExecution
import HipFile.Proof.StreamExecution
import HipFile.Proof.StreamOrder
import HipFile.Model.ConcurrentStreams
import HipFile.Proof.ConcurrentStages
import HipFile.Proof.ConcurrentStreams
import HipFile.Proof.StreamsAlone
import HipFile.Proof.StreamsSerial
import HipFile.Proof.Environment
import HipFile.Proof.FallbackChain
