import WasmiPlugin.Foundation.Run
import WasmiPlugin.Foundation.Path
import WasmiPlugin.Foundation.Utf8
import WasmiPlugin.Foundation.Lines
import WasmiPlugin.Foundation.LinearMemory
import WasmiPlugin.Foundation.Program
import WasmiPlugin.Foundation.Metered
import WasmiPlugin.Foundation.Minimum
import WasmiPlugin.Foundation.SortedMap
import WasmiPlugin.Pipe.WakeUp
import WasmiPlugin.Pipe.Handles
import WasmiPlugin.Pipe.Readiness
import WasmiPlugin.Pipe.BufReader
import WasmiPlugin.Rpc.Message
import WasmiPlugin.Rpc.Text
import WasmiPlugin.Rpc.NextLine
import WasmiPlugin.Rpc.WriteMessage
import WasmiPlugin.Rpc.Transport
import WasmiPlugin.Rpc.Grammar
import WasmiPlugin.Rpc.WholeLines
import WasmiPlugin.Rpc.Correlation
import WasmiPlugin.Rpc.ErrorReplies
import WasmiPlugin.Rpc.LostResponse
import WasmiPlugin.Rpc.PendingMap
import WasmiPlugin.Rpc.RequestReplies
import WasmiPlugin.Rpc.Server
import WasmiPlugin.Rpc.Conversation
import WasmiPlugin.Rpc.Stages
import WasmiPlugin.Rpc.Agreement
import WasmiPlugin.Rpc.ReaderLock
import WasmiPlugin.Rpc.Evaluation
import WasmiPlugin.Rpc.Liveness
import WasmiPlugin.Rpc.LoneCall
import WasmiPlugin.Rpc.Toil
import WasmiPlugin.Rpc.ServerRun
import WasmiPlugin.Rpc.ServedRun
import WasmiPlugin.Wasi.Context
import WasmiPlugin.Wasi.HostFunctions
import WasmiPlugin.Wasi.Records
import WasmiPlugin.Wasi.Frames
import WasmiPlugin.Wasi.Insulation
import WasmiPlugin.Wasi.Timers
import WasmiPlugin.Wasi.WriteReport
import WasmiPlugin.Wasi.Survival
import WasmiPlugin.Wasi.Strings
import WasmiPlugin.Wasi.Addresses
import WasmiPlugin.Wasi.StdinStream
import WasmiPlugin.Wasi.EndOfFile
import WasmiPlugin.Wasi.Descriptors
import WasmiPlugin.Wasi.Outputs
import WasmiPlugin.Wasi.Inputs
import WasmiPlugin.Host.RunWasm
import WasmiPlugin.Host.PluginCall
import WasmiPlugin.Host.Logging
import WasmiPlugin.Host.Stopping
import WasmiPlugin.Host.Killing
import WasmiPlugin.Host.FuelSlicing
import WasmiPlugin.Host.Sleeping
import WasmiPlugin.Host.MonotonicClock
import WasmiPlugin.Host.JoinedCall
import WasmiPlugin.Host.SettledCall
import WasmiPlugin.Host.EndedCall
import WasmiPlugin.Host.HeardCall
import WasmiPlugin.Host.PipedCall
import WasmiPlugin.TestPlugin.ManyEcho
import WasmiPlugin.TestPlugin.PrimeSieve
