import WebsocketTest.Lib.Memory
import WebsocketTest.Lib.Integers
import WebsocketTest.Lib.Framing
import WebsocketTest.Lib.ByteOrder
import WebsocketTest.Lib.Run
import WebsocketTest.Lib.ByteQueue
import WebsocketTest.Lib.Replica
import WebsocketTest.Lib.Pipeline
import WebsocketTest.Lib.Text
import WebsocketTest.Lib.Positions
import WebsocketTest.Lib.SortedMap
import WebsocketTest.Lib.Threads
import WebsocketTest.Lib.Heap
import WebsocketTest.Lib.Ownership
import WebsocketTest.Lib.Turns
import WebsocketTest.Lib.Packing
import WebsocketTest.Lib.Deframing
import WebsocketTest.Lib.Divisors
import WebsocketTest.Lib.Outcome
import WebsocketTest.Lib.Stream
import WebsocketTest.Lib.Resp
import WebsocketTest.Sys
import WebsocketTest.Buffer
import WebsocketTest.Buffer.Content
import WebsocketTest.Buffer.Checks
import WebsocketTest.Buffer.Typed
import WebsocketTest.Buffer.Chain
import WebsocketTest.Buffer.Record
import WebsocketTest.Message
import WebsocketTest.Tcp.Recv
import WebsocketTest.Tcp.Turn
import WebsocketTest.Tcp.Parse
import WebsocketTest.Tcp.Connection
import WebsocketTest.Tcp.Misplaced
import WebsocketTest.Tcp.Reassembly
import WebsocketTest.Tcp.Packets
import WebsocketTest.Tcp.Shapes
import WebsocketTest.Tcp.Decode
import WebsocketTest.Udp
import WebsocketTest.Encoder
import WebsocketTest.Worker
import WebsocketTest.Base.Task
import WebsocketTest.Base.Delivery
import WebsocketTest.Base.Datagrams
import WebsocketTest.Queue.SynQueue
import WebsocketTest.Queue.Concurrent
import WebsocketTest.Queue.Priority
import WebsocketTest.Loop.EventLoop
import WebsocketTest.Loop.Steps
import WebsocketTest.Loop.Registration
import WebsocketTest.Loop.Lifetime
import WebsocketTest.Loop.Descriptors
import WebsocketTest.Worker.Loop
import WebsocketTest.Zoo.HostInfo
import WebsocketTest.Zoo.Address
import WebsocketTest.Zoo.Client
import WebsocketTest.Zoo.Listing
import WebsocketTest.Zoo.Mirror
import WebsocketTest.Config.Load
import WebsocketTest.Config.Lines
import WebsocketTest.Config.Entries
import WebsocketTest.Config.Positions
import WebsocketTest.Config.RoundTrip
import WebsocketTest.Config.Item
import WebsocketTest.Config.Meaning
import WebsocketTest.Config.Failure
import WebsocketTest.Redis.Client
import WebsocketTest.Redis.Pool
import WebsocketTest.Redis.Sharing
import WebsocketTest.Redis.Socket
import WebsocketTest.Redis.Reply
import WebsocketTest.Redis.Net
import WebsocketTest.Redis.Exec
import WebsocketTest.Redis.Store
import WebsocketTest.Redis.Server
import WebsocketTest.Redis.Cluster
import WebsocketTest.Log.Rotation
import WebsocketTest.Http.Client
import WebsocketTest.Http.Dispatch
import WebsocketTest.ThreadCond
import WebsocketTest.TestClient
import WebsocketTest.Lib.Words
import WebsocketTest.Lib.Masking
import WebsocketTest.WebSocket.Frame
import WebsocketTest.Lib.Utf8
import WebsocketTest.WebSocket.Utf8
import WebsocketTest.WebSocket.Hybi13
import WebsocketTest.WebSocket.Reading
import WebsocketTest.WebSocket.Wire
import WebsocketTest.WebSocket.Frames
import WebsocketTest.WebSocket.Soundness
import WebsocketTest.WebSocket.Prepare
import WebsocketTest.WebSocket.Writer
import WebsocketTest.WebSocket.Connection
import WebsocketTest.WebSocket.Session
import WebsocketTest.WebSocket.Network
import WebsocketTest.WebSocket.Closing
import WebsocketTest.WebSocket.Application
import WebsocketTest.Lib.Delimited
import WebsocketTest.WebSocket.Request
import WebsocketTest.WebSocket.Handshake
