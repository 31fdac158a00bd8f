import AkiDB.Coordinator.Backpressure
import AkiDB.Coordinator.Broadcast
import AkiDB.Coordinator.Fanout
import AkiDB.Coordinator.GroupedSearch
import AkiDB.Coordinator.RateLimiter
import AkiDB.Coordinator.Routing
import AkiDB.Ingestion.ChangeReports
import AkiDB.Ingestion.Duplicates
import AkiDB.Ingestion.ProcessedHashes
import AkiDB.Memory.AccessEncoding
import AkiDB.Memory.Authorization
import AkiDB.Memory.ContextPack
import AkiDB.Rebuild.Manager
import AkiDB.Rebuild.Operations
import AkiDB.ServingState.Conflicts
import AkiDB.ServingState.Deliveries
import AkiDB.ServingState.Revisions
import AkiDB.Snapshot.Recovery
import AkiDB.Snapshot.Retries
import AkiDB.Storage.PrefixScan
import AkiDB.Vectors.Collections
import AkiDB.Vectors.Compensation
import AkiDB.Vectors.EdgeIds
import AkiDB.Vectors.Fingerprints
import AkiDB.Vectors.Fusion
import AkiDB.Vectors.GraphPaths
import AkiDB.Vectors.ProjectionRuns
import AkiDB.Vectors.Publication
import AkiDB.Vectors.Tombstones
import AkiDB.Vectors.WorkspaceWrites
import AkiDB.Wal.Runs
