import TlsClient.ByteChannel
import TlsClient.ClientProcess
import TlsClient.CloseSocket
import TlsClient.Connect
import TlsClient.ConnectionDescriptors
import TlsClient.ContextSetup
import TlsClient.DynamicLocks
import TlsClient.ErrorQueue
import TlsClient.HandshakeFragments
import TlsClient.Interruptions
import TlsClient.LinkProgress
import TlsClient.ListenerSteps
import TlsClient.LockCallbacks
import TlsClient.ReceiveDelivery
import TlsClient.SendRanges
import TlsClient.ServerCapacity
import TlsClient.ServerDescriptors
import TlsClient.ServerSurvival
import TlsClient.ServerTermination
import TlsClient.SessionObjects
import TlsClient.SocketAddress
import TlsClient.Startup
import TlsClient.Termination
import TlsClient.TrustAnchorRuns
