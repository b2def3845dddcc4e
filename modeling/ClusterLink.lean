import ClusterLink.Bytes
import ClusterLink.Client.Allocation
import ClusterLink.Client.Calls
import ClusterLink.Client.Config
import ClusterLink.Client.Dial
import ClusterLink.Client.Error
import ClusterLink.Client.Pool
import ClusterLink.Command.Grammar
import ClusterLink.Command.Ping
import ClusterLink.Command.Serve
import ClusterLink.Command.Usage
import ClusterLink.Connection.Basic
import ClusterLink.Connection.Calls
import ClusterLink.Connection.Error
import ClusterLink.Connection.Opening
import ClusterLink.Connection.Options
import ClusterLink.Connection.ReadLoop
import ClusterLink.Connection.Reading
import ClusterLink.Connection.Step
import ClusterLink.Conversation
import ClusterLink.Frame.Error
import ClusterLink.Frame.Parse
import ClusterLink.Frame.Reader
import ClusterLink.Frame.Socket
import ClusterLink.Frame.Writer
import ClusterLink.Handover
import ClusterLink.Handshake
import ClusterLink.Hash.Mac
import ClusterLink.Hash.Sha256
import ClusterLink.IoError
import ClusterLink.Join.Request
import ClusterLink.Join.Signature
import ClusterLink.Loopback.Client
import ClusterLink.Loopback.Link
import ClusterLink.Loopback.Server
import ClusterLink.Loopback.Stream
import ClusterLink.Machine
import ClusterLink.Main
import ClusterLink.Message.Basic
import ClusterLink.Message.Header
import ClusterLink.Message.Id
import ClusterLink.Message.Kind
import ClusterLink.Net.Address
import ClusterLink.Net.Host
import ClusterLink.Payload.Basic
import ClusterLink.Payload.Decoder
import ClusterLink.Proofs.Client.Accounting
import ClusterLink.Proofs.Client.Capacity
import ClusterLink.Proofs.Client.Eviction
import ClusterLink.Proofs.Client.Growth
import ClusterLink.Proofs.Client.Lending
import ClusterLink.Proofs.Client.Pruning
import ClusterLink.Proofs.Client.Rotation
import ClusterLink.Proofs.Client.Shutdown
import ClusterLink.Proofs.Client.Steps
import ClusterLink.Proofs.Client.Tidiness
import ClusterLink.Proofs.Connection.Balance
import ClusterLink.Proofs.Connection.Bookkeeping
import ClusterLink.Proofs.Connection.Books
import ClusterLink.Proofs.Connection.Closing
import ClusterLink.Proofs.Connection.Correlation
import ClusterLink.Proofs.Connection.Course
import ClusterLink.Proofs.Connection.Deprivation
import ClusterLink.Proofs.Connection.Exactness
import ClusterLink.Proofs.Connection.Lateness
import ClusterLink.Proofs.Connection.Ledger
import ClusterLink.Proofs.Connection.Open
import ClusterLink.Proofs.Connection.Outgoing
import ClusterLink.Proofs.Connection.Outliving
import ClusterLink.Proofs.Connection.Ownership
import ClusterLink.Proofs.Connection.Progress
import ClusterLink.Proofs.Connection.Quiet
import ClusterLink.Proofs.Connection.Reading
import ClusterLink.Proofs.Connection.Refusals
import ClusterLink.Proofs.Connection.Replies
import ClusterLink.Proofs.Connection.Sending
import ClusterLink.Proofs.Connection.Serving
import ClusterLink.Proofs.Connection.Slots
import ClusterLink.Proofs.Connection.Stalling
import ClusterLink.Proofs.Connection.Teardown
import ClusterLink.Proofs.Connection.Unread
import ClusterLink.Proofs.Connection.Wire
import ClusterLink.Proofs.Conversation.Delivery
import ClusterLink.Proofs.Conversation.EndToEnd
import ClusterLink.Proofs.Conversation.Exchange
import ClusterLink.Proofs.Conversation.Limits
import ClusterLink.Proofs.Frame.Arrival
import ClusterLink.Proofs.Frame.Consumption
import ClusterLink.Proofs.Frame.Faults
import ClusterLink.Proofs.Frame.PartialWrites
import ClusterLink.Proofs.Frame.Reading
import ClusterLink.Proofs.Frame.RoundTrip
import ClusterLink.Proofs.Frame.Writing
import ClusterLink.Proofs.Join.Agreement
import ClusterLink.Proofs.Join.DigestText
import ClusterLink.Proofs.Join.Handover
import ClusterLink.Proofs.Join.Opening
import ClusterLink.Proofs.Join.Replay
import ClusterLink.Proofs.Join.SigningInput
import ClusterLink.Proofs.Machine.Inevitable
import ClusterLink.Proofs.Message.HeaderCodec
import ClusterLink.Proofs.Payload.Canonical
import ClusterLink.Proofs.Payload.Codec
import ClusterLink.Proofs.Payload.Delimiting
import ClusterLink.Proofs.Payload.Overrun
import ClusterLink.Proofs.Registry.Effects
import ClusterLink.Proofs.Registry.Indexes
import ClusterLink.Proofs.Registry.Interleaving
import ClusterLink.Proofs.Registry.Refusals
import ClusterLink.Proofs.Server.Admission
import ClusterLink.Proofs.Server.Answering
import ClusterLink.Proofs.Server.Broadcasting
import ClusterLink.Proofs.Server.Dispatch
import ClusterLink.Proofs.Server.Membership
import ClusterLink.Proofs.Server.Polling
import ClusterLink.Proofs.Server.SessionSteps
import ClusterLink.Proofs.Server.Shutdown
import ClusterLink.Proofs.Workers.Completion
import ClusterLink.Proofs.Workers.Jobs
import ClusterLink.Registry.Basic
import ClusterLink.Registry.Calls
import ClusterLink.Registry.Node
import ClusterLink.Server.Broadcast
import ClusterLink.Server.Config
import ClusterLink.Server.Error
import ClusterLink.Server.Handshake
import ClusterLink.Server.Service
import ClusterLink.Server.Sessions
import ClusterLink.Text.Duration
import ClusterLink.Text.Hex
import ClusterLink.Text.Quoted
import ClusterLink.Text.Utf8
import ClusterLink.Tls.Base64
import ClusterLink.Tls.Certificate
import ClusterLink.Tls.Files
import ClusterLink.Tls.Pem
import ClusterLink.Tls.ServerName
import ClusterLink.Workers.Panic
import ClusterLink.Workers.Pool
