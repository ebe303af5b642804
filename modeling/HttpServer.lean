import HttpServer.Connection
import HttpServer.Connection.Upgraded
import HttpServer.Date
import HttpServer.Deflate.BitSource
import HttpServer.Deflate.Block
import HttpServer.Deflate.Code
import HttpServer.Deflate.Codec
import HttpServer.Deflate.Decoding
import HttpServer.Deflate.Inflate
import HttpServer.Deflate.Output
import HttpServer.Deflate.Stored
import HttpServer.Error
import HttpServer.Headers
import HttpServer.Headers.Block
import HttpServer.Headers.Cookie
import HttpServer.Headers.Error
import HttpServer.Headers.MediaType
import HttpServer.Headers.Name
import HttpServer.Headers.Value
import HttpServer.Main
import HttpServer.Method
import HttpServer.Proofs.AbsoluteTargets
import HttpServer.Proofs.BlockReaders
import HttpServer.Proofs.ByteReader
import HttpServer.Proofs.ClosingHandshake
import HttpServer.Proofs.ControlAnswers
import HttpServer.Proofs.CookieRoundTrip
import HttpServer.Proofs.DateText
import HttpServer.Proofs.Delivery
import HttpServer.Proofs.ErrorAnswers
import HttpServer.Proofs.EscapeScans
import HttpServer.Proofs.Farewell
import HttpServer.Proofs.FieldStore
import HttpServer.Proofs.FoldedFields
import HttpServer.Proofs.FormEncoding
import HttpServer.Proofs.FrameCodec
import HttpServer.Proofs.FrameForms
import HttpServer.Proofs.FrameReader
import HttpServer.Proofs.FrameStream
import HttpServer.Proofs.Framing
import HttpServer.Proofs.FramingFields
import HttpServer.Proofs.GracefulShutdown
import HttpServer.Proofs.HeadRoundTrip
import HttpServer.Proofs.HeaderLines
import HttpServer.Proofs.HeadlineForm
import HttpServer.Proofs.HostField
import HttpServer.Proofs.Lines
import HttpServer.Proofs.MediaTypeForm
import HttpServer.Proofs.MessageSize
import HttpServer.Proofs.PathEscapes
import HttpServer.Proofs.ReadCalls
import HttpServer.Proofs.ReadFailures
import HttpServer.Proofs.Reassembly
import HttpServer.Proofs.Receiving
import HttpServer.Proofs.RelayHistories
import HttpServer.Proofs.RequestSequence
import HttpServer.Proofs.ResponseFraming
import HttpServer.Proofs.ResponseHead
import HttpServer.Proofs.SentCookies
import HttpServer.Proofs.SessionAccount
import HttpServer.Proofs.SessionRounds
import HttpServer.Proofs.ShutdownSignal
import HttpServer.Proofs.StoreHistories
import HttpServer.Proofs.StoreInvariant
import HttpServer.Proofs.Takeover
import HttpServer.Proofs.TargetForm
import HttpServer.Proofs.TargetRoundTrip
import HttpServer.Proofs.Trimming
import HttpServer.Proofs.TunnelDestination
import HttpServer.Proofs.Utf8
import HttpServer.Proofs.Utf8Pieces
import HttpServer.Proofs.Wakings
import HttpServer.Proofs.WireForm
import HttpServer.Proofs.WritableHeads
import HttpServer.Query
import HttpServer.Reply
import HttpServer.Request
import HttpServer.Request.Amendment
import HttpServer.Request.Headline
import HttpServer.Request.Reader
import HttpServer.Response
import HttpServer.Response.Head
import HttpServer.Server.BufferPool
import HttpServer.Server.Config
import HttpServer.Server.Lifecycle
import HttpServer.Server.Live
import HttpServer.Server.Tracker
import HttpServer.Service.Address
import HttpServer.Service.CommandLine
import HttpServer.Service.Conversation
import HttpServer.Service.Routes
import HttpServer.Session
import HttpServer.Session.Delivery
import HttpServer.Status
import HttpServer.Text.Base64
import HttpServer.Text.BigEndian
import HttpServer.Text.Blank
import HttpServer.Text.Chunks
import HttpServer.Text.Line
import HttpServer.Text.Number
import HttpServer.Text.Quoted
import HttpServer.Text.Split
import HttpServer.Text.Unprintable
import HttpServer.Text.Utf8
import HttpServer.Tls.Der
import HttpServer.Tls.Identity
import HttpServer.Tls.Listener
import HttpServer.Tls.Opening
import HttpServer.Tls.Pem
import HttpServer.Transport.Error
import HttpServer.Transport.Inbound
import HttpServer.Transport.Outbound
import HttpServer.Tunnel
import HttpServer.Tunnel.Connect
import HttpServer.Tunnel.Pipe
import HttpServer.Tunnel.Relay
import HttpServer.Url
import HttpServer.Url.Host
import HttpServer.Url.Percent
import HttpServer.WebSocket
import HttpServer.WebSocket.Dialog
import HttpServer.WebSocket.Echo
import HttpServer.WebSocket.Frame
import HttpServer.WebSocket.Frame.Decode
import HttpServer.WebSocket.Handshake
import HttpServer.WebSocket.Message
import HttpServer.WebSocket.Sha1
