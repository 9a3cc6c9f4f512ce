import RdmaManager.Memory.Handles
import RdmaManager.Rpc.VoidHandler
import RdmaManager.Rpc.VoidHandlerOld
import RdmaManager.Rpc.Restart
import RdmaManager.Proto.ProtoClient
import RdmaManager.Rdma.RequestRead
import RdmaManager.Rdma.LocalMemory
import RdmaManager.Rdma.FailedPosts
import RdmaManager.Rdma.Creation
import RdmaManager.Node.Registry
import RdmaManager.Node.Simultaneous
import RdmaManager.Node.Serving
import RdmaManager.Node.Connected
import RdmaManager.Node.NodeIDs
import RdmaManager.Node.FailedSetUp
import RdmaManager.Rdma.SharedRuns
import RdmaManager.Perf.Leftover
import RdmaManager.Perf.BarrierSafety
import RdmaManager.Rdma.Atomics
import RdmaManager.Rdma.Membership
import RdmaManager.Memory.CudaContext
import RdmaManager.Memory.Copies
import RdmaManager.Perf.LatencyTests
import RdmaManager.Perf.LatencyBuffers
import RdmaManager.Perf.EndBarrierAcks
import RdmaManager.Perf.Pairing
import RdmaManager.Perf.RepeatedBarriersProgress
import RdmaManager.Perf.MainTests
import RdmaManager.Perf.PingPong
import RdmaManager.Perf.InitialSync
import RdmaManager.Perf.LocalBarrierProgress
import RdmaManager.Perf.AtomicsTests
import RdmaManager.Perf.BusyWaitTurns
import RdmaManager.Utils.ByteSize
import RdmaManager.Utils.Config
import RdmaManager.Utils.CpuNuma
import RdmaManager.Utils.Network
import RdmaManager.Perf.BurstBounds
import RdmaManager.Node.PrivateBlocks
