import WebSyncPlay.Library.Record
import WebSyncPlay.Library.Lists
import WebSyncPlay.Library.Segments
import WebSyncPlay.Library.TaskPool
import WebSyncPlay.Library.Text
import WebSyncPlay.Library.TransitionSystem
import WebSyncPlay.Library.LatestWins
import WebSyncPlay.Library.WatchedStore
import WebSyncPlay.Library.RefCount
import WebSyncPlay.Library.Descent
import WebSyncPlay.RoomState
import WebSyncPlay.Timeline
import WebSyncPlay.ActionLog
import WebSyncPlay.RoomSecurity
import WebSyncPlay.Repair
import WebSyncPlay.Ownership
import WebSyncPlay.PlaylistOps
import WebSyncPlay.Disconnect
import WebSyncPlay.LocalPlayback
import WebSyncPlay.MutateRoom
import WebSyncPlay.RoomMessages
import WebSyncPlay.MessageEffects
import WebSyncPlay.Join
import WebSyncPlay.RoomSystem
import WebSyncPlay.RoomFrames
import WebSyncPlay.PlaylistInvariant
import WebSyncPlay.OwnershipInvariant
import WebSyncPlay.OwnershipGrace
import WebSyncPlay.LocalMediaBlocking
import WebSyncPlay.Playhead
import WebSyncPlay.Authorization
import WebSyncPlay.ClientMerge
import WebSyncPlay.ClientConvergence
import WebSyncPlay.ClientCurrentItem
import WebSyncPlay.UpdateRoom
import WebSyncPlay.PresenceAccounting
import WebSyncPlay.PresenceReconcile
import WebSyncPlay.Capacity
import WebSyncPlay.ParticipantPrune
import WebSyncPlay.Cluster
import WebSyncPlay.EmptyRoom
import WebSyncPlay.IdentityBinding
import WebSyncPlay.AdmissionEviction
import WebSyncPlay.PresenceDelivery
import WebSyncPlay.RoomSocketConnection
import WebSyncPlay.ProxyTokens
import WebSyncPlay.ViewerCapability
import WebSyncPlay.RedisKeys
import WebSyncPlay.SocketDispatch
import WebSyncPlay.LocalMediaStore
import WebSyncPlay.LocalMediaOwnership
import WebSyncPlay.LocalMediaLadders
import WebSyncPlay.TokenBucket
import WebSyncPlay.CatchUp
import WebSyncPlay.JoinPassword
import WebSyncPlay.CompositeMembers
import WebSyncPlay.Library.Lease
import WebSyncPlay.ExtractLock
import WebSyncPlay.BlockProtocol
import WebSyncPlay.SfuBlocks
import WebSyncPlay.P2pBlocks
import WebSyncPlay.BlockCache
import WebSyncPlay.SfuRouters
import WebSyncPlay.PlaybackReports
import WebSyncPlay.ServerClock
import WebSyncPlay.NativeProviderSync
import WebSyncPlay.LocalMediaStream
import WebSyncPlay.ResolveCommit
import WebSyncPlay.FixedWindow
import WebSyncPlay.HotEventLimit
import WebSyncPlay.LocalMediaBinary
import WebSyncPlay.UrlSafety
import WebSyncPlay.HlsProxyRewrite
import WebSyncPlay.YtDlpRunner
import WebSyncPlay.RequestDedupe
import WebSyncPlay.BlockCacheAccounting
import WebSyncPlay.Library.ScriptValue
import WebSyncPlay.RepairDecoded
import WebSyncPlay.RepairCurrentItem
import WebSyncPlay.RepairFixpoint
import WebSyncPlay.AudioSkew
import WebSyncPlay.Library.Double
import WebSyncPlay.PresenceCodec
import WebSyncPlay.YtDlpDump
import WebSyncPlay.SelectableStreams
import WebSyncPlay.Library.WhiteSpaceRuns
import WebSyncPlay.Library.CodeUnits
import WebSyncPlay.SanitizeDisplay
import WebSyncPlay.PlaybackSyncEngine
import WebSyncPlay.Library.Linearization
import WebSyncPlay.LocalMediaCalls
import WebSyncPlay.PendingResolves
import WebSyncPlay.Library.RecencyMap
import WebSyncPlay.HlsRewriteCache
import WebSyncPlay.Library.OnceTimer
import WebSyncPlay.RoomBroadcastBus
import WebSyncPlay.Library.Feed
import WebSyncPlay.SocketRegistry
import WebSyncPlay.BroadcastFanOut
import WebSyncPlay.Library.Base64
import WebSyncPlay.RangeRelay
import WebSyncPlay.RangeHttp
import WebSyncPlay.MediaDelivery
import WebSyncPlay.MediaProxy
import WebSyncPlay.NodeLiveness
import WebSyncPlay.Library.UrlEncoded
import WebSyncPlay.SessionIdentity
import WebSyncPlay.WsTransport
