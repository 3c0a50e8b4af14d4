import CollabEditor.Relay.BreakerEvidence
import CollabEditor.Relay.SnapshotLock
import CollabEditor.Relay.ConnectedPeers
import CollabEditor.Relay.Compaction
import CollabEditor.Relay.ColdStart
import CollabEditor.Relay.RoomCreation
import CollabEditor.Frontend.SocketIOProvider
import CollabEditor.Relay.Cluster
import CollabEditor.Relay.RoomLoading
import CollabEditor.Relay.Incarnations
import CollabEditor.Relay.DurableOps
import CollabEditor.Relay.PeerStream
import CollabEditor.Relay.BootstrapText
import CollabEditor.Frontend.NormalEdits
import CollabEditor.Frontend.DraftSecrecy
import CollabEditor.Frontend.ModeConsistency
import CollabEditor.Frontend.LiveBlame
import CollabEditor.Frontend.VersionView
import CollabEditor.Frontend.CommentActivity
import CollabEditor.Frontend.Decisions
import CollabEditor.Frontend.PersistedThreads
import CollabEditor.Frontend.SharedPersistence
import CollabEditor.Spi.StoredText
import CollabEditor.ProviderSdk.StoredText
import CollabEditor.ProviderSdk.ConcurrentStores
import CollabEditor.Relay.SidecarDocs
import CollabEditor.Relay.SidecarCalls
import CollabEditor.Relay.CommentsProxy
import CollabEditor.Frontend.TextBinding
import CollabEditor.StorageDemo.DiskIsolation
import CollabEditor.Frontend.SuggestedText
import CollabEditor.Frontend.OrphanedThreads
import CollabEditor.Frontend.SyncedFlag
import CollabEditor.Frontend.PollPosition
import CollabEditor.Frontend.PersistRetries
import CollabEditor.Frontend.FailedCommit
import CollabEditor.StorageDemo.DeletedComments
import CollabEditor.ProviderSdk.SyncRoundTrip
import CollabEditor.Relay.BufferOrder
import CollabEditor.Relay.LogOffsets
import CollabEditor.Relay.SharedCreation
import CollabEditor.Relay.FlushLease
import CollabEditor.Relay.BreakerCount
import CollabEditor.Relay.Shutdown
import CollabEditor.Relay.IdleRooms
import CollabEditor.Spi.StoreReport
import CollabEditor.Frontend.DiffEngine
import CollabEditor.ProviderSdk.ServedBlame
import CollabEditor.ProviderSdk.CacheRecency
import CollabEditor.Frontend.FormattingCredit
import CollabEditor.Relay.RestartLimit
import CollabEditor.Relay.CutFrames
import CollabEditor.StorageDemo.AutoVersions
import CollabEditor.Frontend.VersionList
import CollabEditor.Frontend.BlameLines
