import LlmRio.Lib.Runs
import LlmRio.Lib.Tasks
import LlmRio.Lib.Table
import LlmRio.Lib.Transactions
import LlmRio.Lib.Handlers
import LlmRio.Lib.Selection
import LlmRio.Lib.Rotation
import LlmRio.Lib.Utf8
import LlmRio.Lib.Json
import LlmRio.Lib.Lines
import LlmRio.Domain
import LlmRio.Storage.Schema
import LlmRio.Storage.Quota
import LlmRio.Storage.UsageSummary
import LlmRio.Storage.Wellformed
import LlmRio.Storage.Writes
import LlmRio.Storage.Pairing
import LlmRio.Storage.Settlement
import LlmRio.Storage.Reservations
import LlmRio.Storage.SpendingCap
import LlmRio.Storage.Ledger
import LlmRio.Storage.Catalog
import LlmRio.Storage.Keys
import LlmRio.Storage.Access
import LlmRio.Storage.Models
import LlmRio.Storage.ContextLimit
import LlmRio.Storage.Dashboard
import LlmRio.Storage.Totals
import LlmRio.Workers.Placement
import LlmRio.Workers.Supervisor
import LlmRio.Workers.Changes
import LlmRio.Workers.Moves
import LlmRio.Workers.Registered
import LlmRio.Workers.StateMachine
import LlmRio.Workers.Drain
import LlmRio.Workers.Launch
import LlmRio.Workers.Resources
import LlmRio.Planner.Vram
import LlmRio.Planner.WeightCache
import LlmRio.Planner.Residency
import LlmRio.Planner.Searches
import LlmRio.Planner.Conservation
import LlmRio.Planner.PayOff
import LlmRio.Planner.Modes
import LlmRio.Planner.Preemption
import LlmRio.Planner.FairShare
import LlmRio.Planner.Agreement
import LlmRio.Planner.Cheapest
import LlmRio.Planner.Wakes
import LlmRio.Planner.Replicas
import LlmRio.Planner.FitChecks
import LlmRio.Runtime.Maintenance
import LlmRio.Runtime.Validation
import LlmRio.Runtime.Acquisition
import LlmRio.Runtime.Registration
import LlmRio.Runtime.Queueing
import LlmRio.Runtime.QueueRuns
import LlmRio.Runtime.Starvation
import LlmRio.Runtime.Fairness
import LlmRio.Runtime.Scheduler
import LlmRio.Runtime.SchedulerSteps
import LlmRio.Runtime.Launching
import LlmRio.Runtime.Pressures
import LlmRio.Runtime.Gateway
import LlmRio.Runtime.Leases
import LlmRio.Runtime.Cleanup
import LlmRio.Storage.Requests
import LlmRio.Runtime.Submissions
import LlmRio.Runtime.Repeats
import LlmRio.Runtime.Undisturbed
import LlmRio.Planner.Filling
import LlmRio.Api.Limits
import LlmRio.Api.Streams
import LlmRio.Api.Images
import LlmRio.Compat.PackedViews
import LlmRio.Planner.Departures
import LlmRio.Profiles.Inventory
import LlmRio.Profiles.Shapes
import LlmRio.Profiles.Edit
import LlmRio.Compat.Backups
import LlmRio.Compat.Rollback
import LlmRio.Lib.Objects
import LlmRio.Profiles.Yarn
import LlmRio.Lib.JsonText
import LlmRio.Profiles.Stored
import LlmRio.Profiles.Rows
import LlmRio.Lib.Timestamps
import LlmRio.Storage.StoredTimes
import LlmRio.Runtime.Routing
import LlmRio.Runtime.Turns
import LlmRio.Runtime.Places
import LlmRio.Runtime.Grants
import LlmRio.Runtime.Billing
import LlmRio.Runtime.Admissions
import LlmRio.Workers.Gone
import LlmRio.Runtime.Occupancy
import LlmRio.Runtime.Guarantees
import LlmRio.Storage.Credentials
import LlmRio.Storage.Keyring
import LlmRio.Api.Principals
import LlmRio.Storage.ModelGrants
import LlmRio.Api.Visibility
import LlmRio.Api.Authorization
import LlmRio.Runtime.Overtaking
import LlmRio.Runtime.Contract
import LlmRio.Runtime.Probing
import LlmRio.Runtime.Requeue
import LlmRio.Runtime.Candidates
