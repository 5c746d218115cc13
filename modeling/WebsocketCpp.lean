import WebsocketCpp.Fault
import WebsocketCpp.Misc.Traced
import WebsocketCpp.Misc.Region
import WebsocketCpp.Misc.Cyclic
import WebsocketCpp.Misc.CircularList
import WebsocketCpp.Misc.Decimal
import WebsocketCpp.Misc.Split
import WebsocketCpp.Misc.Reassembly
import WebsocketCpp.Misc.Provenance
import WebsocketCpp.Misc.Interleaving
import WebsocketCpp.Misc.Run
import WebsocketCpp.Misc.OrderedSet
import WebsocketCpp.Misc.Heap
import WebsocketCpp.Misc.Ownership
import WebsocketCpp.Misc.PrefixCode
import WebsocketCpp.Misc.RoundRobin
import WebsocketCpp.Misc.Progress
import WebsocketCpp.Base.Buffer
import WebsocketCpp.Base.Timer
import WebsocketCpp.Base.TimerQueue
import WebsocketCpp.Base.Reactor
import WebsocketCpp.Base.EventHandler
import WebsocketCpp.Base.SelectPoller
import WebsocketCpp.Base.EventLoop
import WebsocketCpp.Base.ReactorThreadPool
import WebsocketCpp.Base.ReactorThread
import WebsocketCpp.Base.ThreadPool
import WebsocketCpp.Base.Proofs.BufferQueue
import WebsocketCpp.Base.Proofs.BufferGrowth
import WebsocketCpp.Base.Proofs.TimerSteps
import WebsocketCpp.Base.Proofs.TimerRuns
import WebsocketCpp.Base.Proofs.TimerFiring
import WebsocketCpp.Base.Proofs.TimerAlarm
import WebsocketCpp.Base.Proofs.TimerCancel
import WebsocketCpp.Base.Proofs.TimerCallbacks
import WebsocketCpp.Base.Proofs.ReactorTasks
import WebsocketCpp.Base.Proofs.PollRegistry
import WebsocketCpp.Base.Proofs.PoolStop
import WebsocketCpp.Base.Proofs.ReactorLife
import WebsocketCpp.Base.Proofs.EventRounds
import WebsocketCpp.Base.Proofs.TimerOwnership
import WebsocketCpp.Base.Proofs.PoolTasks
import WebsocketCpp.Net.NetConnection
import WebsocketCpp.Net.Connection
import WebsocketCpp.Net.NetServer
import WebsocketCpp.Net.Connector
import WebsocketCpp.Net.Sockets
import WebsocketCpp.Net.ClientConnections
import WebsocketCpp.Net.ServerLoops
import WebsocketCpp.Net.SharedConnection
import WebsocketCpp.Net.Proofs.SendPath
import WebsocketCpp.Net.Proofs.ConnectionRefines
import WebsocketCpp.Net.Proofs.Teardown
import WebsocketCpp.Net.Proofs.FlushOutput
import WebsocketCpp.Net.Proofs.HandlerLife
import WebsocketCpp.Net.Proofs.ConnRegistry
import WebsocketCpp.Net.Proofs.RetryConnect
import WebsocketCpp.Net.Proofs.SocketOwnership
import WebsocketCpp.Net.Proofs.SocketReads
import WebsocketCpp.Net.Proofs.ConnectionOutput
import WebsocketCpp.Net.Proofs.SharedSend
import WebsocketCpp.Net.Proofs.ConnectionsDealt
import WebsocketCpp.Net.Proofs.ClientSessions
import WebsocketCpp.Websocket.WSHead
import WebsocketCpp.Websocket.Mask
import WebsocketCpp.Websocket.EncodeFrame
import WebsocketCpp.Websocket.DecodeFrame
import WebsocketCpp.Websocket.Frame
import WebsocketCpp.Websocket.Message
import WebsocketCpp.Websocket.Heartbeat
import WebsocketCpp.Websocket.WSNet
import WebsocketCpp.Websocket.Utility
import WebsocketCpp.Websocket.Url
import WebsocketCpp.Websocket.WebSocketServer
import WebsocketCpp.Websocket.HeartbeatRecv
import WebsocketCpp.Websocket.ServerHeartbeat
import WebsocketCpp.Websocket.HeartbeatSender
import WebsocketCpp.Websocket.ClientHeartbeat
import WebsocketCpp.Websocket.HeartbeatTiming
import WebsocketCpp.Websocket.Proofs.DecodeRefines
import WebsocketCpp.Websocket.Proofs.PartialFrame
import WebsocketCpp.Websocket.Proofs.FrameSemantics
import WebsocketCpp.Websocket.Proofs.FrameBuffBound
import WebsocketCpp.Websocket.Proofs.EncodeFrames
import WebsocketCpp.Websocket.Proofs.FragmentGrammar
import WebsocketCpp.Websocket.Proofs.RoundTrip
import WebsocketCpp.Websocket.Proofs.ReceivePath
import WebsocketCpp.Websocket.Proofs.FreshDecoder
import WebsocketCpp.Websocket.Proofs.ServerClient
import WebsocketCpp.Websocket.Proofs.Segmentation
import WebsocketCpp.Websocket.Proofs.AppMessages
import WebsocketCpp.Websocket.Proofs.NoByteTwice
import WebsocketCpp.Websocket.Proofs.Boundaries
import WebsocketCpp.Websocket.Proofs.CallerBuffer
import WebsocketCpp.Websocket.Proofs.ConcurrentSends
import WebsocketCpp.Websocket.Proofs.LastSeen
import WebsocketCpp.Websocket.Proofs.ClosedTracking
import WebsocketCpp.Websocket.Proofs.ClientSteps
import WebsocketCpp.Websocket.Proofs.ReconnectAssert
import WebsocketCpp.Websocket.Proofs.OneTimer
import WebsocketCpp.Websocket.Proofs.SpuriousReconnect
import WebsocketCpp.Websocket.Proofs.HeartbeatTimer
import WebsocketCpp.Websocket.Proofs.HeartbeatsAgree
import WebsocketCpp.Websocket.Proofs.DecodeFront
import WebsocketCpp.Websocket.Proofs.Termination
import WebsocketCpp.Websocket.Proofs.UninitialisedMemory
import WebsocketCpp.Websocket.Proofs.ReadsInside
import WebsocketCpp.Websocket.Proofs.MaskingKey
import WebsocketCpp.Websocket.Proofs.PeerAssertions
import WebsocketCpp.Websocket.Proofs.ControlFrames
import WebsocketCpp.Websocket.Proofs.EncoderMemory
import WebsocketCpp.Websocket.Proofs.Strsplit
import WebsocketCpp.Websocket.Proofs.UrlHandling
import WebsocketCpp.Websocket.Proofs.MaskPhase
import WebsocketCpp.Websocket.Proofs.Acceptance
import WebsocketCpp.Websocket.Proofs.Channel
import WebsocketCpp.Websocket.Proofs.EndToEnd
