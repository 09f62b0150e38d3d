import Pulse.Library.Lts
import Pulse.Library.RowLock
import Pulse.Library.Bucket
import Pulse.Library.Passes
import Pulse.Library.UniqueIndex
import Pulse.Library.Timed
import Pulse.Schema
import Pulse.Core.Rbac
import Pulse.Core.RateLimit
import Pulse.Engine.Transitions
import Pulse.Engine.Scheduler
import Pulse.Engine.Promotion
import Pulse.Engine.Dependencies
import Pulse.Engine.Cron
import Pulse.Api.Jobs
import Pulse.Api.Queues
import Pulse.Api.Orgs
import Pulse.Membership.Step
import Pulse.Membership.Invariant
import Pulse.Replicas.Step
import Pulse.System.State
import Pulse.System.Step
import Pulse.System.Sessions
import Pulse.System.Moves
import Pulse.System.Records
import Pulse.System.Statements
import Pulse.System.Invariant
import Pulse.System.Advances
import Pulse.System.Commits
import Pulse.System.Kept
import Pulse.System.Publishes
import Pulse.System.Shape
import Pulse.System.Runs
import Pulse.System.Fenced
import Pulse.System.Accounts
import Pulse.Safety.Fencing
import Pulse.Safety.Finality
import Pulse.Safety.Attempts
import Pulse.Safety.DeadLetters
import Pulse.Safety.Ceiling
import Pulse.Safety.Recovery
import Pulse.Safety.Stranding
import Pulse.Safety.Owners
import Pulse.Safety.Rates
import Pulse.Safety.References
import Pulse.Safety.Dependencies
import Pulse.Safety.Gating
import Pulse.Safety.Consistency
import Pulse.Safety.Deadlocks
import Pulse.Safety.Heartbeats
import Pulse.Safety.Serving
import Pulse.Drain.Process
import Pulse.Safety.Drain
import Pulse.Safety.Cron
import Pulse.Enqueue.Step
import Pulse.Safety.Enqueue
import Pulse.Tenants.Requests
import Pulse.Safety.Tenants
import Pulse.Library.Dict
import Pulse.Library.Paging
import Pulse.Ws.Manager
import Pulse.Ws.Publisher
import Pulse.Safety.Updates
import Pulse.Safety.Replays
import Pulse.Safety.Claims
import Pulse.Engine.Reaper
import Pulse.Safety.Sweeps
import Pulse.Safety.Promotions
import Pulse.Safety.Allowances
import Pulse.Library.Window
import Pulse.Core.FailureLimiter
import Pulse.Safety.Windows
import Pulse.Login.Step
import Pulse.Safety.Guesses
import Pulse.Runtime.Loop
import Pulse.Safety.Idle
import Pulse.Runtime.Wait
import Pulse.Safety.Slots
import Pulse.Safety.Wakeups
import Pulse.Library.Pages
import Pulse.Core.Pagination
import Pulse.Api.Lists
import Pulse.Safety.Listing
import Pulse.Library.Rewriting
import Pulse.Core.DatabaseUrl
import Pulse.Safety.Urls
import Pulse.Safety.Backoff
import Pulse.Safety.Policies
import Pulse.Safety.Conservation
import Pulse.Library.Numbering
import Pulse.History.Clock
import Pulse.Safety.History
import Pulse.Safety.Punctual
import Pulse.System.Notifies
import Pulse.Safety.Listening
import Pulse.Core.UuidText
import Pulse.Tokens.Step
import Pulse.Safety.Tokens
import Pulse.Client.ApiFetch
import Pulse.Safety.Refreshes
import Pulse.System.Lifecycle
import Pulse.Safety.Lifecycle
import Pulse.Engine.Handlers
import Pulse.Safety.Handlers
import Pulse.Names.Step
import Pulse.Names.Tables
import Pulse.Names.Invariant
import Pulse.Safety.Names
import Pulse.Ws.Sockets
import Pulse.Safety.Sockets
import Pulse.Library.Timers
import Pulse.Client.LiveUpdates
import Pulse.Safety.LiveUpdates
import Pulse.History.Logs
import Pulse.Safety.Logs
import Pulse.Safety.Kills
import Pulse.Library.Grouping
import Pulse.Api.Metrics
import Pulse.Safety.Metrics
import Pulse.Api.Batches
import Pulse.Safety.Batches
