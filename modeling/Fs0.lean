import Fs0.Lib.Transition
import Fs0.Lib.Table
import Fs0.Lib.Extent
import Fs0.Lib.Fallible
import Fs0.Lib.NameTree
import Fs0.Lib.Page
import Fs0.Core.Types
import Fs0.Core.Protocol
import Fs0.Core.Path
import Fs0.Core.PathAgreement
import Fs0.Core.Statement
import Fs0.Client.Download
import Fs0.Client.DownloadCompletion
import Fs0.Client.DownloadSchedule
import Fs0.Client.DownloadLayout
import Fs0.Client.DownloadAssembly
import Fs0.Client.Upload
import Fs0.Client.UploadLayout
import Fs0.Transport.Frame
import Fs0.Central.Tables
import Fs0.Central.Dir
import Fs0.Central.File
import Fs0.Central.Bundle
import Fs0.Central.Lease
import Fs0.Central.RecentDirs
import Fs0.Central.DirTree
import Fs0.Central.Namespace
import Fs0.Central.NamespaceOps
import Fs0.Central.FileOps
import Fs0.Central.Transparency
import Fs0.Central.DirCacheRuns
import Fs0.Central.Control
import Fs0.Central.Requests
import Fs0.Central.Handler
import Fs0.Central.Connections
import Fs0.Central.Effects
import Fs0.Central.TableSteps
import Fs0.Central.Transactions
import Fs0.Central.Runs
import Fs0.Central.LeaseRuns
import Fs0.Central.FileSteps
import Fs0.Central.ChangeLog
import Fs0.Central.ConnectionSteps
import Fs0.Central.FileSizes
import Fs0.Central.Rooted
import Fs0.Central.CommitUpdate
import Fs0.Central.MountSteps
import Fs0.Central.Mounts
import Fs0.Volume.Db
import Fs0.Volume.Volume
import Fs0.Volume.Sections
import Fs0.Volume.Allocation
import Fs0.Volume.Contents
import Fs0.Volume.Bundles
import Fs0.Volume.Integrity
import Fs0.Volume.Linear
import Fs0.Volume.IoPlatform
import Fs0.Storage.Data
import Fs0.Storage.BundleSums
import Fs0.Storage.Server
import Fs0.Storage.Verified
import Fs0.Storage.CentralConnection
import Fs0.Storage.EndpointAgreement
import Fs0.Lib.Feed
import Fs0.Client.StoragePeers
import Fs0.Client.PeerViews
import Fs0.Client.RequestScheduler
import Fs0.Client.SharedResults
import Fs0.Storage.StoredChunks
import Fs0.Storage.LeasedCalls
import Fs0.Client.UploadJobs
import Fs0.Client.SharedUploads
import Fs0.Client.StorageSessions
import Fs0.Client.SessionCoherence
import Fs0.Central.StorageRegistration
import Fs0.Central.RecordedOffsets
import Fs0.Volume.Outbox
import Fs0.Storage.FailedCalls
import Fs0.Central.VolumeChoice
import Fs0.Central.ReadPlans
import Fs0.Central.Replicas
import Fs0.Central.Polling
import Fs0.Central.Scans
import Fs0.Client.EnqueueRuns
import Fs0.Client.Retries
import Fs0.Central.VolumeIsolation
import Fs0.Central.LockOrder
import Fs0.Central.UncommittedUpdates
import Fs0.Client.BundleShortcut
import Fs0.Central.ReplayedLog
import Fs0.Central.PathRequests
import Fs0.Central.RequestLedger
import Fs0.Central.Authorized
import Fs0.Cluster.Vouched
import Fs0.Cluster.VouchedVolumes
import Fs0.Central.FileCatalog
import Fs0.Central.CommittedReads
import Fs0.Cluster.StoredFiles
import Fs0.Central.FittingAnswers
import Fs0.Client.FileUploads
import Fs0.Volume.DurableWrites
import Fs0.Volume.CacheProgress
