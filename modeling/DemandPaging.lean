import DemandPaging.AddressSpace
import DemandPaging.Block.Device
import DemandPaging.Block.Disk
import DemandPaging.Block.Drive
import DemandPaging.Block.Kind
import DemandPaging.Block.Registry
import DemandPaging.Config
import DemandPaging.Contents
import DemandPaging.Directory.Access
import DemandPaging.Directory.Basic
import DemandPaging.Directory.Entry
import DemandPaging.Error
import DemandPaging.Event
import DemandPaging.Frame.Clock
import DemandPaging.Frame.Memory
import DemandPaging.Frame.Placement
import DemandPaging.Frame.Pool
import DemandPaging.Frame.Table
import DemandPaging.Hex
import DemandPaging.Layout
import DemandPaging.Location
import DemandPaging.Machine.Basic
import DemandPaging.Machine.Eviction
import DemandPaging.Machine.Fault
import DemandPaging.Machine.Mapping
import DemandPaging.Machine.Request
import DemandPaging.Machine.Teardown
import DemandPaging.Machine.UserAccess
import DemandPaging.Outcome
import DemandPaging.Page
import DemandPaging.Page.Address
import DemandPaging.PageMap
import DemandPaging.Panic
import DemandPaging.Stats
import DemandPaging.Swap.Slots
import DemandPaging.Swap.Space
import DemandPaging.System
import DemandPaging.Table.Basic
import DemandPaging.Table.Segment
import DemandPaging.Table.Teardown
import DemandPaging.Word
import DemandPaging.Proofs.Clock
import DemandPaging.Proofs.Directory
import DemandPaging.Proofs.Frames
import DemandPaging.Proofs.Slots
import DemandPaging.Proofs.Swap
import DemandPaging.Proofs.Pages
import DemandPaging.Proofs.Soundness
import DemandPaging.Proofs.Eviction
import DemandPaging.Proofs.Allocation
import DemandPaging.Proofs.Placing
import DemandPaging.Proofs.Fault
import DemandPaging.Proofs.Mapping
import DemandPaging.Proofs.Teardown
import DemandPaging.Proofs.Access
import DemandPaging.Proofs.Run
import DemandPaging.Proofs.Steady
import DemandPaging.Proofs.Transparency
import DemandPaging.Proofs.Counting
import DemandPaging.Proofs.Ownership
import DemandPaging.Proofs.FilePages
import DemandPaging.Proofs.Progress
import DemandPaging.Proofs.NoPanic
import DemandPaging.Proofs.Exhaustion
import DemandPaging.Proofs.FailedFault
import DemandPaging.Proofs.Pinning
import DemandPaging.Proofs.Rotation
import DemandPaging.Proofs.ClockSafety
import DemandPaging.Proofs.Sweep
import DemandPaging.Proofs.SecondChance
import DemandPaging.Proofs.Attempt
import DemandPaging.Proofs.Served
import DemandPaging.Proofs.Resolved
import DemandPaging.Proofs.Settling
import DemandPaging.Proofs.AccessEnds
import DemandPaging.Proofs.Alike
import DemandPaging.Proofs.Lockstep
import DemandPaging.Proofs.Isolation
import DemandPaging.Proofs.OneEviction
import DemandPaging.Proofs.Approach
import DemandPaging.Proofs.Conservation
import DemandPaging.Proofs.Calls
import DemandPaging.Proofs.Lifecycle
import DemandPaging.Proofs.StackGrowth
import DemandPaging.Proofs.Vacated
import DemandPaging.Proofs.Starvation
import DemandPaging.Proofs.NewPage
import DemandPaging.Proofs.Rejection
import DemandPaging.Proofs.Segments
import DemandPaging.Proofs.SegmentLayout
import DemandPaging.Proofs.SwapRun
import DemandPaging.Proofs.SlotOrder
import DemandPaging.Proofs.PoolRun
import DemandPaging.Proofs.NextFit
import DemandPaging.Proofs.Walk
import DemandPaging.Proofs.Copies
import DemandPaging.Proofs.Bytewise
import DemandPaging.Proofs.Handover
import DemandPaging.Proofs.History
import DemandPaging.Proofs.PackedDirectory
import DemandPaging.Proofs.SectorStore
import DemandPaging.Proofs.Registration
