import FProto.Foundation.Program
import FProto.Foundation.Run
import FProto.Foundation.SerialTable
import FProto.Protocol.AppMessage
import FProto.Kafka.Topics
import FProto.Kafka.Consumer
import FProto.Dispatcher.Router
import FProto.Sync.Concurrency
import FProto.Sessions.Terminal
import FProto.Commands.Order
import FProto.SenderKeys.ForwardSecrecy
import FProto.Outbox.Pipeline
import FProto.Dispatcher.Dispatch
import FProto.Outbox.Relay
import FProto.Gateway.Connection
import FProto.Outbox.NoLoss
import FProto.SenderKeys.Channel
import FProto.Sessions.Ghosts
import FProto.Sessions.Fallback
import FProto.Sessions.UserIndex
import FProto.Sessions.SessionMap
import FProto.Sessions.Handshake
import FProto.Sessions.ConnectionLimit
import FProto.Outbox.KeyOrder
import FProto.Outbox.Finality
import FProto.Crypto.Channel
import FProto.Crypto.Service
import FProto.Crypto.Rekey
import FProto.Transport.Quic
import FProto.Sessions.Service
import FProto.Media.Service
import FProto.Commands.Redelivery
import FProto.Sync.Discovery
import FProto.Outbox.Accounting
import FProto.Outbox.Drain
import FProto.Transport.Pool
import FProto.Outbox.Retransmission
import FProto.Sessions.ConnectionCount
import FProto.Sessions.Lifecycle
import FProto.Inbox.History
import FProto.Sync.CatchUp
import FProto.Crypto.Rekeying
import FProto.Media.Completion
import FProto.Commands.Membership
import FProto.Sdk.GoClient
import FProto.Sdk.TypeScriptTransport
import FProto.Starters.NodeTransport
import FProto.Sdk.SwiftClient
import FProto.Sync.HexDecoding
import FProto.Redis.Keys
import FProto.SenderKeys.KeyChain
import FProto.Sdk.GoReconnect
import FProto.Transport.GrpcStream
import FProto.Deployment.EndToEnd
import FProto.Gateway.SecureConnection
import FProto.Starters.Aead
import FProto.Deployment.Clients
import FProto.Deployment.Ordering
import FProto.SenderKeys.Forgetting
import FProto.Deployment.Membership
