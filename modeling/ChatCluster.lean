import ChatCluster.Library.CommandProgram
import ChatCluster.Library.Interleaving
import ChatCluster.Library.KeyedTable
import ChatCluster.Library.Replay
import ChatCluster.Library.LineFraming
import ChatCluster.Library.LineReading
import ChatCluster.Library.SqlText
import ChatCluster.Library.Loop
import ChatCluster.Library.Output
import ChatCluster.Json
import ChatCluster.JsonLexer
import ChatCluster.JsonParse
import ChatCluster.JsonRoundTrip
import ChatCluster.Request
import ChatCluster.IntegerFields
import ChatCluster.Database
import ChatCluster.Statement
import ChatCluster.StatusUpdates
import ChatCluster.RepeatedUpdates
import ChatCluster.Node
import ChatCluster.World
import ChatCluster.ChatService
import ChatCluster.ChatServer
import ChatCluster.Client
import ChatCluster.Framing
import ChatCluster.PartialSends
import ChatCluster.MainMenu
import ChatCluster.SqlInserts
import ChatCluster.Cluster
import ChatCluster.Dispatch
import ChatCluster.Footprint
import ChatCluster.HandlerRuns
import ChatCluster.SqlFailures
import ChatCluster.Groups
import ChatCluster.GroupCreators
import ChatCluster.GroupFanOut
import ChatCluster.Authentication
import ChatCluster.SessionFailures
import ChatCluster.Sessions
import ChatCluster.Teardown
import ChatCluster.SessionPhase
import ChatCluster.SessionContract
import ChatCluster.SessionOutlines
import ChatCluster.SessionExclusion
import ChatCluster.Handover
import ChatCluster.OfflineSync
import ChatCluster.MessageContract
import ChatCluster.Registration
import ChatCluster.Durability
import ChatCluster.WakeUpContract
import ChatCluster.WakeUp
import ChatCluster.Consumption
import ChatCluster.MessageIds
import ChatCluster.Licence
import ChatCluster.Authority
import ChatCluster.Confidentiality
import ChatCluster.DeliveryRoutes
import ChatCluster.Contacts
import ChatCluster.SendingOrder
import ChatCluster.Backlog
import ChatCluster.Custody
import ChatCluster.LoginWindow
import ChatCluster.Listing
import ChatCluster.StatusOrder
import ChatCluster.Copies
import ChatCluster.Answers
import ChatCluster.Lookups
import ChatCluster.Duplicates
import ChatCluster.FrameTexts
import ChatCluster.RequestAnswers
import ChatCluster.ClientThreads
import ChatCluster.Conversation
import ChatCluster.LoginVerdict
import ChatCluster.ClientProgress
import ChatCluster.Library.Nesting
import ChatCluster.TornFrames
import ChatCluster.ClientAcks
import ChatCluster.DecimalTexts
import ChatCluster.Library.Handles
import ChatCluster.RedisClient
import ChatCluster.RedisSafety
import ChatCluster.RedisDelivery
import ChatCluster.Retention
import ChatCluster.Library.EventLoops
import ChatCluster.WriteOrder
