import ModuleHost.Host.Query
import ModuleHost.Host.Session
import ModuleHost.KernelLog
import ModuleHost.KernelServices
import ModuleHost.Lock
import ModuleHost.Proofs.Registry.Entries
import ModuleHost.Proofs.Registry.Operations
import ModuleHost.Proofs.Registry.Runs
import ModuleHost.Proofs.Registry.Balance
import ModuleHost.Proofs.Registry.Alike
import ModuleHost.Proofs.Program
import ModuleHost.Proofs.Arena.Leases
import ModuleHost.Proofs.Arena.InPlace
import ModuleHost.Proofs.Host.Holdings
import ModuleHost.Proofs.Stepwise
import ModuleHost.Proofs.Host.Staging
import ModuleHost.Proofs.Fixup.Linkage
import ModuleHost.Proofs.Host.Assembling
import ModuleHost.Proofs.Host.Halves
import ModuleHost.Proofs.Session.Run
import ModuleHost.Proofs.Session.Soundness
import ModuleHost.Proofs.Session.References
import ModuleHost.Proofs.Session.FailedLoad
import ModuleHost.Proofs.Session.LifeCycle
import ModuleHost.Proofs.Fixup.Field
import ModuleHost.Proofs.Fixup.Prescription
import ModuleHost.Proofs.Fixup.Kinds
import ModuleHost.Proofs.Fixup.Patching
import ModuleHost.Proofs.Memory
import ModuleHost.Proofs.Fixup.Execution
import ModuleHost.Proofs.Fixup.CallSite
import ModuleHost.Proofs.Fixup.Requests
import ModuleHost.Proofs.Fixup.Calls
import ModuleHost.Proofs.Fixup.Immediate
import ModuleHost.Proofs.Fixup.Outcome
import ModuleHost.Proofs.Fixup.Recomputation
import ModuleHost.Proofs.Fixup.Order
import ModuleHost.Proofs.Fixup.Data
import ModuleHost.Proofs.Host.Contents
import ModuleHost.Proofs.Host.Resolution
import ModuleHost.Proofs.Host.Relocating
import ModuleHost.Proofs.Host.Image
import ModuleHost.Proofs.Session.LoadedImage
import ModuleHost.Proofs.Session.Conservation
import ModuleHost.Proofs.KernelLog.Ring
import ModuleHost.Proofs.KernelLog.Line
import ModuleHost.Proofs.KernelLog.Replay
import ModuleHost.Proofs.Heap.Header
import ModuleHost.Proofs.Heap.PageSource
import ModuleHost.Proofs.Heap.Holes
import ModuleHost.Proofs.Heap.Region
import ModuleHost.Proofs.Heap.Blocks
import ModuleHost.Proofs.Heap.Marks
import ModuleHost.Proofs.Heap.Counts
import ModuleHost.Proofs.Heap.Soundness
import ModuleHost.Proofs.Heap.InPlace
import ModuleHost.Proofs.Heap.Tenancy
import ModuleHost.Proofs.Heap.Accounts
import ModuleHost.Proofs.Heap.RoundTrip
import ModuleHost.Proofs.Heap.DoubleFree
import ModuleHost.Proofs.Object.Format
import ModuleHost.Proofs.Object.Reading
import ModuleHost.Proofs.Object.Validation
import ModuleHost.Proofs.Object.Reads
import ModuleHost.Proofs.Arena.Cursors
import ModuleHost.Proofs.Arena.Runs
import ModuleHost.Proofs.Host.Quiet
import ModuleHost.Proofs.Host.Confinement
import ModuleHost.Proofs.Session.Isolation
import ModuleHost.Proofs.Registry.Layers
import ModuleHost.Proofs.Session.Unloading
import ModuleHost.Proofs.Host.Exports
import ModuleHost.Proofs.Session.Exports
import ModuleHost.Proofs.Arena.Releases
import ModuleHost.Proofs.Session.Closing
import ModuleHost.Proofs.Session.Leaving
import ModuleHost.Proofs.Fixup.Rounding
import ModuleHost.Proofs.Session.Attribution
import ModuleHost.Proofs.Fixup.Detours
import ModuleHost.Proofs.Fixup.StubPage
import ModuleHost.Proofs.Fixup.InPlace
import ModuleHost.Proofs.Fixup.Atomicity
import ModuleHost.Proofs.Session.ExternalCalls
import ModuleHost.Proofs.Settings.Assignment
import ModuleHost.Proofs.Settings.Number
import ModuleHost.Proofs.KernelLog.Nesting
import ModuleHost.Proofs.Settings.Lines
import ModuleHost.Proofs.Arena.Series
import ModuleHost.Proofs.Host.Segregation
import ModuleHost.Proofs.Session.Segregation
