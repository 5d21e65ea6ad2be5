import MetalGraph.Base.Blocks
import MetalGraph.Base.Commutation
import MetalGraph.Base.Decision
import MetalGraph.Base.Effect
import MetalGraph.Base.Layout
import MetalGraph.Base.Lockstep
import MetalGraph.Base.Pairing
import MetalGraph.Base.Precedence
import MetalGraph.Base.References
import MetalGraph.Base.Slots
import MetalGraph.Base.Updates
import MetalGraph.Base.Words
import MetalGraph.Model.Adapter
import MetalGraph.Model.Arena
import MetalGraph.Model.Buffer
import MetalGraph.Model.Errors
import MetalGraph.Model.Graph
import MetalGraph.Model.Instantiate
import MetalGraph.Model.Interop
import MetalGraph.Model.Launch
import MetalGraph.Model.Machine
import MetalGraph.Model.Memory
import MetalGraph.Model.Patch
import MetalGraph.Model.Queues
import MetalGraph.Model.System
import MetalGraph.Model.Topology
import MetalGraph.Model.Types
import MetalGraph.Proofs.AdapterCalls
import MetalGraph.Proofs.AdapterClosing
import MetalGraph.Proofs.AdapterSafety
import MetalGraph.Proofs.Alignment
import MetalGraph.Proofs.ArgumentTable
import MetalGraph.Proofs.CallSteps
import MetalGraph.Proofs.Chronicle
import MetalGraph.Proofs.Completion
import MetalGraph.Proofs.Definedness
import MetalGraph.Proofs.DependencyHistory
import MetalGraph.Proofs.Diagnostics
import MetalGraph.Proofs.DirectLaunch
import MetalGraph.Proofs.DispatchAcceptance
import MetalGraph.Proofs.DispatchChecks
import MetalGraph.Proofs.DispatchInvariant
import MetalGraph.Proofs.EncodeLoop
import MetalGraph.Proofs.Encoding
import MetalGraph.Proofs.ErrorObjects
import MetalGraph.Proofs.ExecChanges
import MetalGraph.Proofs.ExecInvariant
import MetalGraph.Proofs.ExecOwnership
import MetalGraph.Proofs.FailedConstruction
import MetalGraph.Proofs.Frame
import MetalGraph.Proofs.Granting
import MetalGraph.Proofs.GraphChanges
import MetalGraph.Proofs.GraphInvariant
import MetalGraph.Proofs.GraphMeaning
import MetalGraph.Proofs.GraphOwnership
import MetalGraph.Proofs.GraphValidation
import MetalGraph.Proofs.InFlight
import MetalGraph.Proofs.IndirectCommands
import MetalGraph.Proofs.Instantiation
import MetalGraph.Proofs.LaunchEvents
import MetalGraph.Proofs.LaunchFailure
import MetalGraph.Proofs.LaunchOwnership
import MetalGraph.Proofs.LaunchRetention
import MetalGraph.Proofs.Ledger
import MetalGraph.Proofs.Lifetimes
import MetalGraph.Proofs.MachineRules
import MetalGraph.Proofs.Meaning
import MetalGraph.Proofs.MemoryBounds
import MetalGraph.Proofs.NativeHandles
import MetalGraph.Proofs.NodeLookup
import MetalGraph.Proofs.OrderIndependence
import MetalGraph.Proofs.Ownership
import MetalGraph.Proofs.PatchFrame
import MetalGraph.Proofs.PatchRefinement
import MetalGraph.Proofs.PatchSafety
import MetalGraph.Proofs.PatchedGraphs
import MetalGraph.Proofs.Progress
import MetalGraph.Proofs.QueueDraining
import MetalGraph.Proofs.QueueSafety
import MetalGraph.Proofs.Reachability
import MetalGraph.Proofs.Rebuilding
import MetalGraph.Proofs.RecordedEdits
import MetalGraph.Proofs.RecordedPlans
import MetalGraph.Proofs.Replay
import MetalGraph.Proofs.Segmentation
import MetalGraph.Proofs.SingleDevice
import MetalGraph.Proofs.StreamOrder
import MetalGraph.Proofs.Synchronization
import MetalGraph.Proofs.TensorAcceptance
import MetalGraph.Proofs.TopologicalOrder
import MetalGraph.Proofs.Wavefronts
import MetalGraph.Proofs.WorkspaceLayout
import MetalGraph.Proofs.WorkspacePlan
import MetalGraph.Proofs.WrittenBytes
