import Agamemnon.Orchestrator.Split
import Agamemnon.Orchestrator.Announcements
import Agamemnon.Server.ClientUpdate
import Agamemnon.Reconciler.Converge
import Agamemnon.Reconciler.Rollback
import Agamemnon.Reconciler.Listing
import Agamemnon.Agents.Answers
import Agamemnon.Scheduler.Shutdown
import Agamemnon.Claimer.WakeUp
import Agamemnon.Nats.Accounts
import Agamemnon.Nats.Probes
import Agamemnon.Store.BriefIndex
import Agamemnon.Dag.Background
import Agamemnon.Dag.Single
import Agamemnon.Server.Atomic
import Agamemnon.Orchestrator.Redelivery
import Agamemnon.Orchestrator.Roots
import Agamemnon.Store.Gauges
import Agamemnon.Nats.BreakerTrace
import Agamemnon.Nats.DiscoveryResult
import Agamemnon.Github.Paging
import Agamemnon.Store.Pages
import Agamemnon.Github.Webhook
import Agamemnon.Agents.Fairness
import Agamemnon.Nats.DeadLetters
import Agamemnon.Scheduler.Correlation
import Agamemnon.Server.RetryAfter
import Agamemnon.Agents.Backpressure
import Agamemnon.Agents.Router
import Agamemnon.Agents.HalfStarted
import Agamemnon.Agents.ModuleSum
import Agamemnon.Agents.TaskAgent
import Agamemnon.Agents.Envelope
import Agamemnon.Server.Replies
import Agamemnon.Server.Pagination
import Agamemnon.Plan.Trimmed
import Agamemnon.Plan.Grammar
import Agamemnon.Agents.Latency
import Agamemnon.Nats.TailnetPeers
