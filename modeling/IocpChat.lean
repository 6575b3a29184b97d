import IocpChat.Buffer.RingBufferFifo
import IocpChat.Buffer.RingBufferSpans
import IocpChat.Buffer.SendBufferHistory
import IocpChat.ChatClient.ClientAgreement
import IocpChat.ChatServer.AbuseReports
import IocpChat.ChatServer.BeforeLogin
import IocpChat.ChatServer.BroadcastOrder
import IocpChat.ChatServer.CondemnedBatch
import IocpChat.ChatServer.HeartbeatWatch
import IocpChat.ChatServer.LastRequest
import IocpChat.ChatServer.Notices
import IocpChat.ChatServer.ReplySizes
import IocpChat.ChatServer.RoomChat
import IocpChat.ChatServer.RoomManager
import IocpChat.ChatServer.ServerStats
import IocpChat.ChatServer.WorkerRefinement
import IocpChat.DummyClient.Percentile
import IocpChat.Job.ClearedQueue
import IocpChat.Job.GlobalQueue
import IocpChat.Job.TimerRounds
import IocpChat.Job.WorkerDrain
import IocpChat.Memory.BlockConservation
import IocpChat.Network.AcceptSlots
import IocpChat.Network.BatchSend
import IocpChat.Network.CallbackOrder
import IocpChat.Network.Delivery
import IocpChat.Network.Established
import IocpChat.Network.FramingLoop
import IocpChat.Network.SendLimit
import IocpChat.Network.SessionRegistry
import IocpChat.Network.WholePacket
import IocpChat.PacketGenerator.GeneratedHandlers
import IocpChat.PacketGenerator.GeneratedRoundTrip
import IocpChat.Thread.TaskExecution
import IocpChat.Utility.RateLimit
import IocpChat.ChatServer.RoomScript
