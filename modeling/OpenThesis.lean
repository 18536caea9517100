import OpenThesis.SnapshotTree.Evict
import OpenThesis.SnapshotTree.Reload
import OpenThesis.Debugger.Shrink
import OpenThesis.Orchestrator.Recording
import OpenThesis.Orchestrator.Kept
import OpenThesis.Orchestrator.Attribution
import OpenThesis.Orchestrator.WorkerLoop
import OpenThesis.Orchestrator.Choices
import OpenThesis.Orchestrator.History
import OpenThesis.Explorer.Bonus
import OpenThesis.Orchestrator.OutputEffects
import OpenThesis.Explorer.Run
import OpenThesis.Guest.CoverageReports
import OpenThesis.Sdk.Assert
import OpenThesis.Sdk.Random
import OpenThesis.Guest.Wire
import OpenThesis.Guest.FaultOrder
import OpenThesis.Guest.Crashes
import OpenThesis.Guest.SdkRelay
import OpenThesis.Orchestrator.Likelihood
import OpenThesis.Orchestrator.ShrinkResult
import OpenThesis.Debugger.Navigation
import OpenThesis.Explorer.CorpusRun
import OpenThesis.Orchestrator.Multiverse
import OpenThesis.Orchestrator.PoolInject
import OpenThesis.Container.Import
import OpenThesis.Orchestrator.Parse
import OpenThesis.Container.Render
import OpenThesis.Report.Junit
import OpenThesis.Report.Branches
import OpenThesis.Api.Schedule
import OpenThesis.Container.Scalars
import OpenThesis.Api.Started
import OpenThesis.Api.AtomicWrite
import OpenThesis.Api.Auth
import OpenThesis.Api.Replays
import OpenThesis.Hypervisor.Cpus
import OpenThesis.Hypervisor.Ctrl
import OpenThesis.Orchestrator.Residual
import OpenThesis.Orchestrator.Arms
import OpenThesis.Orchestrator.Escalation
import OpenThesis.Debugger.Session
import OpenThesis.Orchestrator.Prng
import OpenThesis.Network.Simulated
import OpenThesis.Hypervisor.Packets
import OpenThesis.Guest.Commands
import OpenThesis.Api.AllFindings
import OpenThesis.Container.Order
