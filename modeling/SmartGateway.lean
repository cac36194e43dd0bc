import SmartGateway.Lib.ObjectScan
import SmartGateway.Lib.ObjectLockstep
import SmartGateway.Lib.Lists
import SmartGateway.Lib.Machine
import SmartGateway.Lib.Stepwise
import SmartGateway.Lib.Ring
import SmartGateway.Lib.FirstMatch
import SmartGateway.Lib.WriteLog
import SmartGateway.Lib.Monitor
import SmartGateway.Lib.Wakeup
import SmartGateway.Lib.Passing
import SmartGateway.Lib.KeyedList
import SmartGateway.Lib.ShiftRegister
import SmartGateway.Lib.Burst
import SmartGateway.Lib.TextArray
import SmartGateway.Lib.Cursor
import SmartGateway.Lib.ObjectCursor
import SmartGateway.Common.Crc16
import SmartGateway.Common.LineParser
import SmartGateway.Common.FrameParser
import SmartGateway.Common.FrameStream
import SmartGateway.Common.FrameAccounting
import SmartGateway.Common.FrameRoundTrip
import SmartGateway.Common.FrameReading
import SmartGateway.Common.FrameMemory
import SmartGateway.Common.FrameCanonical
import SmartGateway.Common.FrameBursts
import SmartGateway.Common.FrameLog
import SmartGateway.Common.FramePieces
import SmartGateway.Common.MessageJson
import SmartGateway.Common.JsonReading
import SmartGateway.Common.JsonRoundTrip
import SmartGateway.Common.JsonStable
import SmartGateway.Common.JsonAgreement
import SmartGateway.Common.JsonCursor
import SmartGateway.Common.JsonRefinement
import SmartGateway.Common.JsonSafety
import SmartGateway.Common.JsonLeftovers
import SmartGateway.Lib.ObjectText
import SmartGateway.Common.JsonText
import SmartGateway.Common.JsonLines
import SmartGateway.Common.JsonMembers
import SmartGateway.Common.JsonNumbers
import SmartGateway.Common.UplinkMessage
import SmartGateway.Common.TextOrigin
import SmartGateway.Common.Scanning
import SmartGateway.Server.CommandManager
import SmartGateway.Server.CommandRuns
import SmartGateway.Server.RetrySchedule
import SmartGateway.Server.NodeStore
import SmartGateway.Server.NodeStoreRuns
import SmartGateway.Server.Eviction
import SmartGateway.Server.Dispatch
import SmartGateway.Server.TypedCommand
import SmartGateway.Server.ServerLoop
import SmartGateway.Server.ServerLines
import SmartGateway.Server.ServerCommands
import SmartGateway.Server.Southbound
import SmartGateway.Gateway.DeviceManager
import SmartGateway.Gateway.DeviceRuns
import SmartGateway.Gateway.DeviceRefusals
import SmartGateway.Gateway.OnlineFlag
import SmartGateway.Gateway.DeviceMap
import SmartGateway.Gateway.RecordEffects
import SmartGateway.Gateway.ConnectionEnd
import SmartGateway.Gateway.MessageQueue
import SmartGateway.Gateway.Upstream
import SmartGateway.Gateway.OneNode
import SmartGateway.Gateway.Forwarding
import SmartGateway.Gateway.Translation
import SmartGateway.Gateway.Pairing
import SmartGateway.Gateway.ServerLink
import SmartGateway.Gateway.LinkInvariant
import SmartGateway.Gateway.Delivery
import SmartGateway.Gateway.NorthboundFraming
import SmartGateway.Gateway.LinkMoves
import SmartGateway.Gateway.Receiving
import SmartGateway.Gateway.Workers
import SmartGateway.Gateway.CommandFate
import SmartGateway.Gateway.UplinkFrames
import SmartGateway.Gateway.ConnectionLoops
import SmartGateway.Gateway.ThreadFate
import SmartGateway.Gateway.ConnectionIntake
import SmartGateway.Gateway.PassedOn
import SmartGateway.Gateway.QueuedLines
import SmartGateway.Gateway.GatewayLoop
import SmartGateway.Gateway.Shutdown
import SmartGateway.Gateway.Release
import SmartGateway.Gateway.Leaving
import SmartGateway.Gateway.Ending
import SmartGateway.Tools.MockNode
import SmartGateway.Tools.NodeAnswers
import SmartGateway.Tools.NodeReports
import SmartGateway.Tools.SerialLink
import SmartGateway.Server.Northbound
