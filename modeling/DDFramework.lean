import DDFramework.Library.Alignment
import DDFramework.Library.CString
import DDFramework.Library.Chain
import DDFramework.Library.CircularBuffer
import DDFramework.Library.Computation
import DDFramework.Library.FifoQueue
import DDFramework.Library.Forest
import DDFramework.Library.LastIndex
import DDFramework.Library.Links
import DDFramework.Library.Machine
import DDFramework.Library.Ownership
import DDFramework.Library.Registry
import DDFramework.Library.Rescale
import DDFramework.Library.RoseTree
import DDFramework.Library.Segment
import DDFramework.Library.SignedWord
import DDFramework.Library.SlotStack
import DDFramework.Library.Subtrees
import DDFramework.Library.Trace
import DDFramework.Library.WordRescale
import DDFramework.Library.WordSteps
import DDFramework.Model.BusyMutex
import DDFramework.Model.CommandBuffer
import DDFramework.Model.Context
import DDFramework.Model.CriticalSection
import DDFramework.Model.DescriptorPool
import DDFramework.Model.DeviceObjects
import DDFramework.Model.Event
import DDFramework.Model.ExpHeap
import DDFramework.Model.Fiber
import DDFramework.Model.FixedObjectAllocator
import DDFramework.Model.FixedString
import DDFramework.Model.HandleTable
import DDFramework.Model.Heap
import DDFramework.Model.HeapObjectAllocator
import DDFramework.Model.HidThread
import DDFramework.Model.IntrusiveList
import DDFramework.Model.IntrusiveTreeNode
import DDFramework.Model.MessageQueue
import DDFramework.Model.Mutex
import DDFramework.Model.PathUtil
import DDFramework.Model.ResourceManager
import DDFramework.Model.Result
import DDFramework.Model.RuntimeTypeInfo
import DDFramework.Model.Scheduler
import DDFramework.Model.SchedulerMain
import DDFramework.Model.SchedulerService
import DDFramework.Model.SchedulerSystem
import DDFramework.Model.ServiceCriticalSection
import DDFramework.Model.ServiceEvent
import DDFramework.Model.SystemFileDevice
import DDFramework.Model.ThreadBase
import DDFramework.Model.TimeSpan
import DDFramework.Model.Vector3
import DDFramework.Model.Vulkan
import DDFramework.Verification.BusyMutex.Handover
import DDFramework.Verification.BusyMutex.MutualExclusion
import DDFramework.Verification.CommandBuffer.Execution
import DDFramework.Verification.CommandBuffer.ImageLayouts
import DDFramework.Verification.CommandBuffer.Immediate
import DDFramework.Verification.CommandBuffer.PushConstants
import DDFramework.Verification.CommandBuffer.Relocation
import DDFramework.Verification.CommandBuffer.RenderTargets
import DDFramework.Verification.CommandBuffer.RenderingScopes
import DDFramework.Verification.CommandBuffer.ShaderResources
import DDFramework.Verification.CriticalSection.Contention
import DDFramework.Verification.CriticalSection.MutualExclusion
import DDFramework.Verification.CriticalSection.WaitRings
import DDFramework.Verification.CriticalSection.WaitersBit
import DDFramework.Verification.DescriptorPool.Contents
import DDFramework.Verification.DescriptorPool.Leaks
import DDFramework.Verification.DescriptorPool.Slots
import DDFramework.Verification.DeviceObjects.Accounts
import DDFramework.Verification.Event.Specification
import DDFramework.Verification.ExpHeap.Allocation
import DDFramework.Verification.ExpHeap.FreeList
import DDFramework.Verification.ExpHeap.Layout
import DDFramework.Verification.ExpHeap.Maximum
import DDFramework.Verification.ExpHeap.Resize
import DDFramework.Verification.ExpHeap.Search
import DDFramework.Verification.ExpHeap.Split
import DDFramework.Verification.FixedString.Branches
import DDFramework.Verification.FixedString.Invariant
import DDFramework.Verification.HandleTable.Encoding
import DDFramework.Verification.HandleTable.Issues
import DDFramework.Verification.HandleTable.Refinement
import DDFramework.Verification.Heap.Ranges
import DDFramework.Verification.Heap.Searches
import DDFramework.Verification.Heap.Tree
import DDFramework.Verification.HidThread.Enumeration
import DDFramework.Verification.IntrusiveList.PushFront
import DDFramework.Verification.IntrusiveList.RangeFor
import DDFramework.Verification.IntrusiveList.Removal
import DDFramework.Verification.IntrusiveList.Rings
import DDFramework.Verification.IntrusiveList.Sequences
import DDFramework.Verification.IntrusiveList.Walk
import DDFramework.Verification.IntrusiveTreeNode.Clearing
import DDFramework.Verification.IntrusiveTreeNode.Refinement
import DDFramework.Verification.MessageQueue.Fifo
import DDFramework.Verification.Mutex.Recursion
import DDFramework.Verification.PathUtil.Bounds
import DDFramework.Verification.PathUtil.Delimiters
import DDFramework.Verification.PathUtil.Parts
import DDFramework.Verification.PathUtil.Replacement
import DDFramework.Verification.PathUtil.Splitting
import DDFramework.Verification.RawInput.Frames
import DDFramework.Verification.RawInput.KeySets
import DDFramework.Verification.RawInput.Keyboard
import DDFramework.Verification.RawInput.MouseButtons
import DDFramework.Verification.RawInput.Movement
import DDFramework.Verification.ResourceManager.Loading
import DDFramework.Verification.ResourceManager.Lookups
import DDFramework.Verification.Result.Encoding
import DDFramework.Verification.RuntimeTypeInfo.Checks
import DDFramework.Verification.Scheduler.Calls
import DDFramework.Verification.Scheduler.Fairness
import DDFramework.Verification.Scheduler.HandleLifetime
import DDFramework.Verification.Scheduler.LockHandover
import DDFramework.Verification.Scheduler.OnePlace
import DDFramework.Verification.Scheduler.PlacedRuns
import DDFramework.Verification.Scheduler.PlacedSteps
import DDFramework.Verification.Scheduler.Places
import DDFramework.Verification.Scheduler.Priority
import DDFramework.Verification.Scheduler.Records
import DDFramework.Verification.Scheduler.Refusals
import DDFramework.Verification.Scheduler.RunnableCount
import DDFramework.Verification.Scheduler.SchedulerLists
import DDFramework.Verification.Scheduler.SchedulerPass
import DDFramework.Verification.Scheduler.SignalKey
import DDFramework.Verification.Scheduler.Sleep
import DDFramework.Verification.Scheduler.ThreadCreation
import DDFramework.Verification.Scheduler.TimeoutScan
import DDFramework.Verification.Scheduler.Transfer
import DDFramework.Verification.Scheduler.UncontendedCalls
import DDFramework.Verification.Scheduler.WaitKey
import DDFramework.Verification.Scheduler.WaitQueues
import DDFramework.Verification.Scheduler.WakeByAddress
import DDFramework.Verification.Scheduler.WakeCalls
import DDFramework.Verification.Scheduler.WokenFibers
import DDFramework.Verification.ServiceCriticalSection.Exclusion
import DDFramework.Verification.ServiceEvent.Quiescence
import DDFramework.Verification.SlotAllocators.Fixed
import DDFramework.Verification.SlotAllocators.Heap
import DDFramework.Verification.SystemFileDevice.Formatting
import DDFramework.Verification.SystemFileDevice.Loading
import DDFramework.Verification.ThreadBase.Run
import DDFramework.Verification.TimeSpan.Conversion
import DDFramework.Verification.TimeSpan.Deadlines
import DDFramework.Verification.TimeSpan.Exactness
import DDFramework.Verification.TimeSpan.RoundTrip
import DDFramework.Verification.UtilCriticalSection.Ownership
import DDFramework.Verification.Vector3.Cross
