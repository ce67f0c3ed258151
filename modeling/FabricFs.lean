import FabricFs.Lib.Runs
import FabricFs.Lib.Dict
import FabricFs.Lib.Tree
import FabricFs.Lib.Segments
import FabricFs.Lib.Prog
import FabricFs.Host.Names
import FabricFs.Host.Lossy
import FabricFs.Host.Fs
import FabricFs.Host.Effects
import FabricFs.Server.Locks
import FabricFs.Server.Exclusion
import FabricFs.Server.ByteLocks
import FabricFs.Server.Stop
import FabricFs.Host.World
import FabricFs.Host.Calls
import FabricFs.Server.Permissions
import FabricFs.Server.ByteIo
import FabricFs.Server.Runtime
import FabricFs.Overlay.Visibility
import FabricFs.Overlay.XattrLife
import FabricFs.Overlay.XattrStore
import FabricFs.Overlay.XattrTables
import FabricFs.Overlay.CopyUp
import FabricFs.Overlay.CopyUpSight
import FabricFs.Overlay.RenameOver
import FabricFs.Overlay.NamespaceOps
import FabricFs.Overlay.Requests
import FabricFs.Overlay.Samples
import FabricFs.Overlay.Rules
import FabricFs.Server.CopyRange
import FabricFs.Overlay.SparseCopy
import FabricFs.Overlay.Edits
import FabricFs.Overlay.Reports
import FabricFs.Overlay.ReadOnlyMount
import FabricFs.Overlay.Indifferent
import FabricFs.Overlay.Handles
import FabricFs.Overlay.Grown
import FabricFs.Overlay.Guard
import FabricFs.Overlay.BackingUntouched
import FabricFs.Overlay.Tombstones
import FabricFs.Overlay.Permitted
import FabricFs.Service.InodeMap
import FabricFs.Service.Readdir
import FabricFs.Protocol.Path
import FabricFs.Protocol.Messages
import FabricFs.Protocol.Codec
import FabricFs.Core.Dispatcher
import FabricFs.Client.Cache
import FabricFs.Client.FailClosed
import FabricFs.Client.Handles
import FabricFs.Client.Entries
import FabricFs.Server.Paths
import FabricFs.Client.Tables
import FabricFs.Client.Rename
import FabricFs.Client.References
import FabricFs.Client.Drain
import FabricFs.Client.Coverage
import FabricFs.Client.Agreement
import FabricFs.Session.Snapshot
import FabricFs.Session.Versions
import FabricFs.Session.Store
import FabricFs.Session.Names
import FabricFs.Session.Imports
import FabricFs.Session.Published
import FabricFs.Session.Checkpoints
import FabricFs.Lib.Crash
import FabricFs.Session.Durability
import FabricFs.Session.Recovery
import FabricFs.Session.Settled
import FabricFs.Session.Histories
import FabricFs.Session.LiveBoundary
import FabricFs.Session.Quarantine
import FabricFs.Transport.OwnBroadcasts
import FabricFs.Transport.Server
import FabricFs.Transport.Calls
import FabricFs.Transport.Replay
import FabricFs.Transport.Announced
import FabricFs.Transport.Subjects
