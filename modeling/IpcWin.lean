import IpcWin.Lib.LittleEndian
import IpcWin.Lib.Segments
import IpcWin.Lib.Varint
import IpcWin.Lib.Transition
import IpcWin.Lib.Outcome
import IpcWin.Lib.Tables
import IpcWin.Wire.Format
import IpcWin.Native.Memory
import IpcWin.Native.Codec
import IpcWin.Native.RoundTrip
import IpcWin.Native.Stream
import IpcWin.Native.Bounds
import IpcWin.Native.Collisions
import IpcWin.Protobuf.CodedStream
import IpcWin.Protobuf.Messages
import IpcWin.Protobuf.Merging
import IpcWin.Native.Modes
import IpcWin.Native.Startup
import IpcWin.Managed.Codec
import IpcWin.Managed.RoundTrip
import IpcWin.Interop.Decoders
import IpcWin.Interop.Grammar
import IpcWin.Interop.Encoders
import IpcWin.Interop.Histories
import IpcWin.Interop.Redecoding
import IpcWin.Lib.Channel
import IpcWin.Pipes.Kernel
import IpcWin.Pipes.Server
import IpcWin.Pipes.Client
import IpcWin.Pipes.Conversation
import IpcWin.Pipes.Accept
import IpcWin.Pipes.FrameReader
import IpcWin.Pipes.Connection
import IpcWin.Pipes.Rounds
import IpcWin.Pipes.Progress
import IpcWin.Pipes.Teardown
import IpcWin.Pipes.Sessions
import IpcWin.Pipes.Requests
import IpcWin.Lib.Blocks
import IpcWin.Pipes.Buffers
import IpcWin.Pipes.Connect
import IpcWin.SharedMem.Kernel
import IpcWin.SharedMem.Client
import IpcWin.SharedMem.Phases
import IpcWin.SharedMem.Conversation
import IpcWin.SharedMem.Exchange
import IpcWin.SharedMem.Delivery
import IpcWin.SharedMem.Handles
import IpcWin.SharedMem.Capacities
import IpcWin.SharedMem.Pace
import IpcWin.SharedMem.Crashes
import IpcWin.SharedMem.Footprint
import IpcWin.SharedMem.Returns
import IpcWin.SharedMem.Resources
import IpcWin.SharedMem.Accumulation
import IpcWin.Messaging.Dispatcher
import IpcWin.Messaging.Losses
import IpcWin.Calls
import IpcWin.Pipes.Refinement
import IpcWin.SharedMem.Refinement
import IpcWin.Transports
import IpcWin.Service
import IpcWin.Pipes.Clients
import IpcWin.Pipes.Serving
import IpcWin.Pipes.Standstill
import IpcWin.Native.Session
import IpcWin.EndToEnd
import IpcWin.Interop.Session
import IpcWin.Pipes.Returns
import IpcWin.Pipes.Prospects
import IpcWin.Lib.Arguments
import IpcWin.Native.CommandLine
import IpcWin.Native.Bytes
import IpcWin.Native.Benchmark
import IpcWin.Programs
import IpcWin.Interop.Programs
import IpcWin.Native.Lengths
import IpcWin.Completion
