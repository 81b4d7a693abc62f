import GeniusNew.Workers.Fits
import GeniusNew.Durable.Deployment
import GeniusNew.Anchor.Capacity
import GeniusNew.Anchor.Delivered
import GeniusNew.Anchor.Growth
import GeniusNew.Anchor.Persistence
import GeniusNew.Anchor.Process
import GeniusNew.Anchor.State
import GeniusNew.Anchor.Transport
import GeniusNew.Approvals.Approvers
import GeniusNew.Approvals.Gateway
import GeniusNew.Approvals.Lifecycle
import GeniusNew.Approvals.Provenance
import GeniusNew.Audit.Chain
import GeniusNew.Audit.Continuity
import GeniusNew.Audit.Derived
import GeniusNew.Audit.Event
import GeniusNew.Audit.Incremental
import GeniusNew.Audit.Lockstep
import GeniusNew.Audit.Recorder
import GeniusNew.Audit.Rehydrated
import GeniusNew.Audit.Restart
import GeniusNew.Audit.RoundTrip
import GeniusNew.Audit.Store
import GeniusNew.Audit.Stored
import GeniusNew.Audit.TamperEvidence
import GeniusNew.Audit.Verified
import GeniusNew.Contracts.Basic
import GeniusNew.Contracts.Contained
import GeniusNew.Contracts.Decoded
import GeniusNew.Contracts.Handoff
import GeniusNew.Contracts.Issued
import GeniusNew.Custody.Basic
import GeniusNew.Hash.Sha256
import GeniusNew.HashChain.Tip
import GeniusNew.Json.Ascii
import GeniusNew.Json.Decoded
import GeniusNew.Json.Length
import GeniusNew.Json.Read
import GeniusNew.Json.RoundTrip
import GeniusNew.Json.Value
import GeniusNew.Json.Write
import GeniusNew.Orchestrator.AtMostOnce
import GeniusNew.Orchestrator.Dispatch
import GeniusNew.Orchestrator.Spending
import GeniusNew.Results.Accepted
import GeniusNew.Results.Boundary
import GeniusNew.Results.SingleUse
import GeniusNew.Service.Evidence
import GeniusNew.Service.Progress
import GeniusNew.Service.Queue
import GeniusNew.Service.Recorded
import GeniusNew.Service.Turns
import GeniusNew.Service.Wiring
import GeniusNew.Transition.Run
import GeniusNew.Service.Completion
import GeniusNew.Service.Decisions
import GeniusNew.Raising.Triple
import GeniusNew.WorkerService.Frame
import GeniusNew.WorkerService.Transport
import GeniusNew.WorkerService.Messages
import GeniusNew.WorkerService.Exchange
import GeniusNew.WorkerService.Lease
import GeniusNew.WorkerService.Agreement
import GeniusNew.Anchor.Service
import GeniusNew.Bpf.Classic
import GeniusNew.Isolation.ProcessFilter
import GeniusNew.HttpEntry.Buckets
import GeniusNew.Contracts.Hexadecimal
import GeniusNew.HttpEntry.Registry
import GeniusNew.HttpEntry.Entry
import GeniusNew.HttpEntry.Confined
import GeniusNew.HttpEntry.Payload
import GeniusNew.Contracts.Inverse
import GeniusNew.Anchor.Reserialized
import GeniusNew.Binary64.Rounding
import GeniusNew.Workers.Runner
import GeniusNew.Workers.Escaping
import GeniusNew.Workers.Permit
import GeniusNew.Workers.Outcomes
import GeniusNew.Anchor.Client
import GeniusNew.Anchor.Freshness
import GeniusNew.Contracts.Utf8
import GeniusNew.Service.Startup
import GeniusNew.Portal.Tokens
import GeniusNew.Contracts.Guard
import GeniusNew.WorkerService.Sender
import GeniusNew.WorkerService.RootControl
import GeniusNew.Transition.Once
import GeniusNew.Transition.Simulation
import GeniusNew.Database.Coherence
import GeniusNew.Database.StartChecks
import GeniusNew.Database.Refinement
