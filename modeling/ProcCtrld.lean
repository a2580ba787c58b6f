import ProcCtrld.Lts
import ProcCtrld.Chunks
import ProcCtrld.Ledger
import ProcCtrld.SortedMap
import ProcCtrld.ProcessManager
import ProcCtrld.TableRun
import ProcCtrld.FullScan
import ProcCtrld.Network
import ProcCtrld.Serialize
import ProcCtrld.ArgVectors
import ProcCtrld.Messages
import ProcCtrld.Child
import ProcCtrld.Daemon
import ProcCtrld.StepCases
import ProcCtrld.Effects
import ProcCtrld.Termination
import ProcCtrld.Launch
import ProcCtrld.ExecveReport
import ProcCtrld.LaunchFailures
import ProcCtrld.Order
import ProcCtrld.Records
import ProcCtrld.Sends
import ProcCtrld.Drain
import ProcCtrld.LaunchPipes
import ProcCtrld.ErrorFiles
import ProcCtrld.Replies
import ProcCtrld.Requests
import ProcCtrld.SockMessage
import ProcCtrld.Connection
import ProcCtrld.EventLoop
import ProcCtrld.SameRuns
import ProcCtrld.SocketWatch
import ProcCtrld.SocketScan
import ProcCtrld.FlatBuffers
import ProcCtrld.Schema
import ProcCtrld.CommandCodec
import ProcCtrld.ClientLine
import ProcCtrld.UserCodec
import ProcCtrld.RustDaemon
import ProcCtrld.ClientCodec
import ProcCtrld.RustWatch
import ProcCtrld.RustRequests
import ProcCtrld.RustPorts
import ProcCtrld.Invocation
import ProcCtrld.RustStream
import ProcCtrld.RustServer
import ProcCtrld.ProtoClient
import ProcCtrld.Interchange
import ProcCtrld.RustSurveillance
import ProcCtrld.PythonCodec
import ProcCtrld.PythonTests
import ProcCtrld.InTurn
import ProcCtrld.PythonOverhead
import ProcCtrld.RegressionTest
import ProcCtrld.InotifyRecords
import ProcCtrld.InotifyWalk
import ProcCtrld.InotifyWatches
import ProcCtrld.KillRequests
import ProcCtrld.Descriptors
import ProcCtrld.Blocks
import ProcCtrld.Memory
import ProcCtrld.MemoryTriples
import ProcCtrld.MemorySafety
