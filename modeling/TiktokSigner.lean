import TiktokSigner.Lib.Base128
import TiktokSigner.Lib.Zigzag
import TiktokSigner.Lib.ProtoWire
import TiktokSigner.Lib.Lts
import TiktokSigner.Lib.Trace
import TiktokSigner.Lib.LeaseTable
import TiktokSigner.Lib.Metering
import TiktokSigner.SignCore.Wire
import TiktokSigner.SignCore.Frames
import TiktokSigner.SignCore.FrameGrammar
import TiktokSigner.SignCore.EventBatch
import TiktokSigner.LiveWs.Connection
import TiktokSigner.LiveWs.Acks
import TiktokSigner.LiveWs.BatchScan
import TiktokSigner.LiveWs.Reconnect
import TiktokSigner.LiveWs.RetryProtocol
import TiktokSigner.LiveWs.RetryLaws
import TiktokSigner.LiveCore.Run
import TiktokSigner.LiveCore.TraceLaw
import TiktokSigner.LiveApi.RoomCache
import TiktokSigner.LiveApi.CacheRuns
import TiktokSigner.LiveApi.Resolve
import TiktokSigner.LiveApi.Flights
import TiktokSigner.LiveApi.Freshness
import TiktokSigner.LiveApi.SingleFlight
import TiktokSigner.LiveNative.Delivery
import TiktokSigner.LiveNative.Accounts
import TiktokSigner.LiveNative.ReconnectCounter
import TiktokSigner.LiveProto.Registry
import TiktokSigner.LiveEvents.Dynamic
import TiktokSigner.LiveEvents.Preflight
import TiktokSigner.LiveEvents.Walks
import TiktokSigner.LiveEvents.DynamicResult
import TiktokSigner.LiveEvents.Records
import TiktokSigner.LiveEvents.Batch
import TiktokSigner.LiveEvents.Modes
import TiktokSigner.LiveEvents.MessageCap
import TiktokSigner.LiveEvents.SchemaBudget
import TiktokSigner.Lib.Json
import TiktokSigner.Lib.Text
import TiktokSigner.LiveProto.Messages
import TiktokSigner.LiveEvents.Event
import TiktokSigner.LiveEvents.Normalize
import TiktokSigner.LiveEvents.ScanDemand
import TiktokSigner.LiveEvents.Envelope
import TiktokSigner.LiveEvents.Export
import TiktokSigner.LiveNative.EventDecode
import TiktokSigner.SignCore.Uri
import TiktokSigner.LiveWs.OpenUri
import TiktokSigner.LiveApi.SocketUrl
import TiktokSigner.Parity.Compression
import TiktokSigner.Parity.SocketUrl
import TiktokSigner.Parity.EventBridge
import TiktokSigner.Lib.Reports
import TiktokSigner.LiveEvents.Social
import TiktokSigner.LiveEvents.Diagnostics
import TiktokSigner.LiveEvents.AuditLaws
import TiktokSigner.SignCore.GiftStreak
import TiktokSigner.Parity.Decoders
import TiktokSigner.Parity.GiftStreaks
import TiktokSigner.Lib.JsonSchema
import TiktokSigner.Lib.Ranking
import TiktokSigner.LiveDiscovery.RoomLookup
import TiktokSigner.LiveDiscovery.LiveSearch
import TiktokSigner.Parity.RoomLookup
import TiktokSigner.Parity.RoomVerdicts
import TiktokSigner.Parity.LiveSearch
import TiktokSigner.Parity.SearchPicks
import TiktokSigner.Parity.SearchLists
import TiktokSigner.Lib.Record
import TiktokSigner.Lib.Promises
import TiktokSigner.Lib.Backlog
import TiktokSigner.Lib.Ring
import TiktokSigner.Lib.Streak
import TiktokSigner.Lib.Tally
import TiktokSigner.Lib.CappedTally
import TiktokSigner.Lib.Crowd
import TiktokSigner.Lib.BoundedMap
import TiktokSigner.SignCore.DirectSocket
import TiktokSigner.Parity.SignedQuery
import TiktokSigner.JvmSigner.GraalJsSigner
import TiktokSigner.JvmSigner.SignerClose
import TiktokSigner.JvmSigner.ConnectionProvider
import TiktokSigner.JvmSigner.ProviderMoves
import TiktokSigner.JvmSigner.ProviderFutures
import TiktokSigner.JvmSigner.ProviderCalls
import TiktokSigner.JvmSigner.ProviderClose
import TiktokSigner.Android.LiveSessionManager
import TiktokSigner.Android.SessionOwnership
import TiktokSigner.Android.MainEventHandoff
import TiktokSigner.Android.HandoffLaws
import TiktokSigner.Android.LiveClient
import TiktokSigner.Android.HandleRelease
import TiktokSigner.Android.EventsRepository
import TiktokSigner.Android.PublicationLaws
import TiktokSigner.Android.SupertonicModels
import TiktokSigner.Android.ModelFileLaws
import TiktokSigner.Android.SupertonicSpeaker
import TiktokSigner.Android.SpeakerLaws
import TiktokSigner.Android.KotlinText
import TiktokSigner.Android.PointsConfig
import TiktokSigner.Android.PointsRepository
import TiktokSigner.Android.PointsLedger
import TiktokSigner.Android.SupertonicLatent
import TiktokSigner.Android.SupertonicText
import TiktokSigner.Android.ChunkLaws
import TiktokSigner.Android.PlanLaws
import TiktokSigner.Android.SpeechSanitizer
import TiktokSigner.Android.EmojiSweep
import TiktokSigner.Android.EmojiLaws
import TiktokSigner.NodeClient.Heartbeat
import TiktokSigner.NodeClient.Connection
import TiktokSigner.NodeClient.ConnectionMoves
import TiktokSigner.NodeClient.Generations
import TiktokSigner.LiveCore.Buffered
import TiktokSigner.LiveCore.BufferedLaws
import TiktokSigner.NodeClient.EventDelivery
import TiktokSigner.NodeClient.DeliveryLaws
import TiktokSigner.LivePresence.Confirmation
import TiktokSigner.LivePresence.Monitor
import TiktokSigner.LivePresence.WatchLaws
import TiktokSigner.JavaClient.TikTokLive
import TiktokSigner.JavaClient.CallbackLaws
import TiktokSigner.JavaClient.Conservation
import TiktokSigner.LiveApi.RelayLimits
import TiktokSigner.LiveApi.Signing
import TiktokSigner.LiveApi.RateLimiter
import TiktokSigner.LiveApi.QuotaLaws
import TiktokSigner.SignLab.TraceLaws
import TiktokSigner.SignLab.CaptureLaws
import TiktokSigner.SignCore.PercentCode
import TiktokSigner.SignCore.QueryCodec
import TiktokSigner.SignCore.WsParams
import TiktokSigner.Parity.SanitizedUri
import TiktokSigner.SignHeadless.Ticket
import TiktokSigner.SignCore.OpenStreaks
import TiktokSigner.JavaClient.GiftStreaks
import TiktokSigner.Parity.Backoff
import TiktokSigner.Parity.UniqueIds
import TiktokSigner.NodeClient.JsonValidation
import TiktokSigner.NodeClient.ValidationLaws
import TiktokSigner.Lib.FloatingPoint
import TiktokSigner.Lib.WireGrammar
import TiktokSigner.NodeClient.BatchPreflight
import TiktokSigner.LiveDiscovery.SearchPages
import TiktokSigner.Lib.BreadthFirst
import TiktokSigner.SignLab.Frontier
import TiktokSigner.SignLab.RecordOrder
import TiktokSigner.Lib.KeyedSort
import TiktokSigner.SignLab.EnvironmentSurface
import TiktokSigner.SignLab.SurfaceLaws
import TiktokSigner.Lib.Occurrences
import TiktokSigner.Lib.Tables
import TiktokSigner.Lib.Replace
import TiktokSigner.Lib.Cuts
import TiktokSigner.SignLab.Differential
import TiktokSigner.SignLab.DifferentialLaws
import TiktokSigner.SignCore.CookieHeader
import TiktokSigner.SignEmbedded.Profile
import TiktokSigner.SignEmbedded.Reply
import TiktokSigner.FixtureHygiene.Secrecy
import TiktokSigner.Lib.LineMatches
import TiktokSigner.FixtureHygiene.Layout
import TiktokSigner.FixtureHygiene.Literals
import TiktokSigner.FixtureHygiene.Rows
import TiktokSigner.FixtureHygiene.KeyedRules
import TiktokSigner.FixtureHygiene.CookieReading
import TiktokSigner.FixtureHygiene.CookieWalk
import TiktokSigner.FixtureHygiene.CookieExits
import TiktokSigner.FixtureHygiene.CookieChains
import TiktokSigner.FixtureHygiene.LayoutLaws
import TiktokSigner.Lib.Mutex
import TiktokSigner.JvmSigner.SigningBundle
import TiktokSigner.LiveApi.Relay
import TiktokSigner.Android.EventActions
import TiktokSigner.SignLab.Experiment
import TiktokSigner.SignLab.SigningUrls
import TiktokSigner.SignLab.SigningTrace
