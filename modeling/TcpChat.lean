import TcpChat.Lib.Machine
import TcpChat.Lib.Room
import TcpChat.Lib.Framing
import TcpChat.Lib.Cells
import TcpChat.Lib.Slots
import TcpChat.Lib.Memory
import TcpChat.Net.Io
import TcpChat.Net.Descriptor
import TcpChat.Net.Owner
import TcpChat.Net.WriteFull
import TcpChat.Net.ReadFull
import TcpChat.Protocol.Buffer
import TcpChat.Server.Model
import TcpChat.Server.Step
import TcpChat.Server.History
import TcpChat.Server.Run
import TcpChat.Server.Reassembly
import TcpChat.Server.Removal
import TcpChat.Server.Agreement
import TcpChat.Server.Failures
import TcpChat.Server.Departure
import TcpChat.Client.Model
import TcpChat.Client.Step
import TcpChat.Client.Session
import TcpChat.Client.Progress
import TcpChat.System.Width
import TcpChat.System.Wire
import TcpChat.System.Network
import TcpChat.System.Chat
import TcpChat.Protocol.Checked
import TcpChat.Protocol.Objects
import TcpChat.Protocol.Range
import TcpChat.Protocol.Queue
import TcpChat.Protocol.Delivery
import TcpChat.Protocol.Outflow
import TcpChat.Client.Lifecycle
import TcpChat.Server.Attribution
import TcpChat.System.Handshake
import TcpChat.Lib.Ledger
import TcpChat.Server.Lifecycle
import TcpChat.Server.Round
import TcpChat.Lib.Rules
import TcpChat.Client.Address
import TcpChat.Client.Spelling
import TcpChat.Client.Twins
import TcpChat.Client.Independence
import TcpChat.Client.Atomic
import TcpChat.Server.Farewell
import TcpChat.Server.Parallel
import TcpChat.Server.Admission
import TcpChat.Server.Lines
import TcpChat.Server.Sessions
import TcpChat.Server.Shutdown
import TcpChat.Server.Endpoint
import TcpChat.Client.Descriptors
import TcpChat.System.Screen
import TcpChat.System.Main
import TcpChat.Server.Rest
import TcpChat.System.Settle
