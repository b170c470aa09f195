import Orchestratord.Chat.Bridge
import Orchestratord.Chat.Dispatcher
import Orchestratord.Clarifier.Desk
import Orchestratord.Commands.Authorised
import Orchestratord.Control.Drain
import Orchestratord.Control.Durable
import Orchestratord.Daemon.RetryLimit
import Orchestratord.Daemon.RetryPass
import Orchestratord.Daemon.RetryPlan
import Orchestratord.Daemon.Stop
import Orchestratord.Db.Messages
import Orchestratord.Dispatch.Isolation
import Orchestratord.Dispatch.Limit
import Orchestratord.Gateway.Chunks
import Orchestratord.Gateway.IpcServer
import Orchestratord.Gateway.Recovery
import Orchestratord.Gateway.Retention
import Orchestratord.Issues.FeedbackBook
import Orchestratord.Issues.Journal
import Orchestratord.Issues.Relaunch
import Orchestratord.Kernel.NoLoss
import Orchestratord.Peer.Attacker
import Orchestratord.Peer.Bookkeeping
import Orchestratord.Peer.Completion
import Orchestratord.Peer.ExactlyOnce
import Orchestratord.Peer.Groups
import Orchestratord.Peer.Isolation
import Orchestratord.Peer.RateLimit
import Orchestratord.Peer.Relay
import Orchestratord.Peer.Tokens
import Orchestratord.Planner.Execution
import Orchestratord.Planner.Swarm
import Orchestratord.Scheduler.Autopilot
import Orchestratord.Sync.AllowedFiles
import Orchestratord.Sync.Delivered
import Orchestratord.Sync.SharedBranch
import Orchestratord.Sync.WorkBranch
import Orchestratord.Telemetry.Concurrency
import Orchestratord.Workflow.ChainCosts
import Orchestratord.Workflow.ChainDecisions
import Orchestratord.Workflow.CheckpointFile
import Orchestratord.Workflow.DecisionAnswers
import Orchestratord.Workflow.GateBypass
import Orchestratord.Workflow.ProgressCount
import Orchestratord.Workflow.ResumeCorrect
import Orchestratord.Workflow.SnapshotPruning
import Orchestratord.Workspaces.Isolation
import Orchestratord.Workspaces.SequentialLock
import Orchestratord.Workspaces.StartupCleanup
