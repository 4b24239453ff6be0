import Tomas.Framing
import Tomas.Msgpack
import Tomas.Pipeline
import Tomas.Protocol
import Tomas.Jackson
import Tomas.Codec
import Tomas.Runs
import Tomas.Delivery
import Tomas.ServerPipeline
import Tomas.ClientPipeline
import Tomas.ChannelCache
import Tomas.AgentBoot
import Tomas.WireAgreement
import Tomas.BadPayloads
import Tomas.Conversation
import Tomas.AuthProvenance
import Tomas.RequestReply
import Tomas.HeartbeatExchange
import Tomas.ServerLifecycle
import Tomas.SessionBookkeeping
import Tomas.FailedClose
import Tomas.AttachRequests
import Tomas.HeartbeatTimer
import Tomas.ComponentTeardown
import Tomas.BrowserConnections
import Tomas.ConnectionLimit
import Tomas.ClassLoading
import Tomas.FileLookup
import Tomas.StompFrames
import Tomas.StompStreams
import Tomas.Locking
import Tomas.CacheThreads
import Tomas.Singletons
import Tomas.Cutting
import Tomas.AnyBytes
import Tomas.ReplyAccounts
import Tomas.ReplySize
import Tomas.Settling
import Tomas.Persistence
import Tomas.StompPage
import Tomas.PageChanges
import Tomas.PageInvariants
import Tomas.PageRefinement
import Tomas.PageStreams
import Tomas.PageMessages
import Tomas.PageHeartbeats
