import SyncForge.Conflict.Specification
import SyncForge.Bridge.Mistaken
import SyncForge.Ingestion.Delivery
import SyncForge.Ingestion.Origin
import SyncForge.Ingestion.Status
import SyncForge.Worker.Convergence
import SyncForge.EventBus.Redpanda
import SyncForge.Ordering.Identity
import SyncForge.Worker.Agreement
import SyncForge.Cluster.Serial
import SyncForge.Job.Exclusive
import SyncForge.Job.Resume
import SyncForge.Tenancy.Queues
import SyncForge.Reconcile.Approval
import SyncForge.Retry.Discard
import SyncForge.Conflict.Priority
import SyncForge.Conflict.Decisions
import SyncForge.Auth.Backup
import SyncForge.Auth.Throttle
import SyncForge.Connector.Limiter
import SyncForge.Auth.Totp
import SyncForge.Job.Backfill
import SyncForge.Job.Release
import SyncForge.Auth.Lockout
import SyncForge.Worker.Backoff
import SyncForge.Store.Migrate
import SyncForge.Reconcile.Findings
