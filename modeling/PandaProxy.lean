import PandaProxy.FtpQueue.SessionQueue
import PandaProxy.FtpQueue.SlotAccounting
import PandaProxy.Async.Coro
import PandaProxy.Async.System
import PandaProxy.Python.Str
import PandaProxy.Python.PosixPath
import PandaProxy.FtpProxy.Replies
import PandaProxy.FtpQueue.DataPortPool
import PandaProxy.FtpProxy.ControlSession
import PandaProxy.FtpProxy.Relay
import PandaProxy.FtpProxy.Surroundings
import PandaProxy.FtpQueue.CallLife
import PandaProxy.FtpProxy.SlotOwnership
import PandaProxy.FtpProxy.Composition
import PandaProxy.FtpProxy.DataPorts
import PandaProxy.FtpProxy.DataPortOwnership
import PandaProxy.FtpProxy.Conversation
import PandaProxy.FtpProxy.Settings
import PandaProxy.FtpProxy.SettingsKept
import PandaProxy.FtpProxy.StatefulCommands
import PandaProxy.FtpProxy.DataChannels
import PandaProxy.FtpProxy.TransferCommands
import PandaProxy.FtpProxy.Effects
import PandaProxy.FtpProxy.Reattachment
import PandaProxy.Mqtt.Packets
import PandaProxy.Reconnect.ReconnectPolicy
import PandaProxy.Reconnect.UpstreamLoops
import PandaProxy.Async.Confined
import PandaProxy.Async.Machine
import PandaProxy.Camera.ChamberStream
import PandaProxy.Certificates.Provisioning
import PandaProxy.FtpProxy.DataConnections
import PandaProxy.FtpProxy.LinkFrames
import PandaProxy.FtpProxy.PrinterAccess
import PandaProxy.FtpProxy.PortRuns
import PandaProxy.Mqtt.FullStateRequests
import PandaProxy.FtpProxy.DataPipe
import PandaProxy.FtpProxy.IdleClock
import PandaProxy.FtpProxy.ReplyPairing
import PandaProxy.Json.Overlay
import PandaProxy.Json.Plain
import PandaProxy.Mqtt.Broadcast
import PandaProxy.Mqtt.Priming
import PandaProxy.Mqtt.ReportedAddress
import PandaProxy.Python.Cursor
import PandaProxy.Mqtt.ClientPackets
import PandaProxy.Mqtt.TopicFilter
import PandaProxy.FtpQueue.PortHistory
import PandaProxy.Camera.FanoutClients
import PandaProxy.Camera.Dismissal
import PandaProxy.Mqtt.Shutdown
import PandaProxy.Mqtt.LoopRuns
import PandaProxy.Mqtt.RequestRuns
import PandaProxy.Mqtt.PrinterPayloads
import PandaProxy.Python.Utf8
import PandaProxy.FtpProxy.ReplyFraming
import PandaProxy.FtpProxy.ControlLines
import PandaProxy.FtpProxy.QueuedClients
import PandaProxy.FtpProxy.SlotTurns
import PandaProxy.Mqtt.LateSubscribers
import PandaProxy.Camera.AuthPayload
import PandaProxy.FtpProxy.PassiveReplies
import PandaProxy.FtpProxy.WorkingDirectory
import PandaProxy.Mqtt.AddressRewriting
import PandaProxy.Async.Narration
import PandaProxy.Mqtt.ClientConversations
import PandaProxy.Mqtt.ClientTraffic
import PandaProxy.Mqtt.ClientWires
import PandaProxy.Mqtt.ClientStreams
import PandaProxy.Mqtt.ServerRefinement
import PandaProxy.Mqtt.HandlerCleanup
import PandaProxy.Camera.ChamberClients
import PandaProxy.FtpProxy.PrinterDialogue
import PandaProxy.FtpProxy.DataBytes
import PandaProxy.Mqtt.ServerMasking
import PandaProxy.Rtsp.SupervisionRuns
import PandaProxy.Python.Pieces
import PandaProxy.Ssdp.Announcement
import PandaProxy.Ssdp.Announcer
