import Rtos.Core.LTS
import Rtos.Core.Simulation
import Rtos.Core.Ownership
import Rtos.Core.Chain
import Rtos.Core.Queues
import Rtos.Core.Deadlines
import Rtos.Core.Bytes
import Rtos.Core.Bitmap
import Rtos.Core.Ring
import Rtos.Core.LeastFirst
import Rtos.Core.BitPoly
import Rtos.Core.BitPower
import Rtos.Core.Blocks
import Rtos.Heap.Memory
import Rtos.Heap.Layout
import Rtos.Heap.Walk
import Rtos.Heap.Tiling
import Rtos.Heap.Runs
import Rtos.Heap.Outstanding
import Rtos.Heap.Usage
import Rtos.Heap.Frees
import Rtos.Heap.Exact
import Rtos.Heap.Room
import Rtos.Heap.Stale
import Rtos.Heap.Pool
import Rtos.Heap.PoolRuns
import Rtos.Ipc.MessageQueue
import Rtos.Ipc.QueueRuns
import Rtos.Ipc.Locks
import Rtos.Drivers.Uart
import Rtos.Drivers.UartRuns
import Rtos.Drivers.Instances
import Rtos.Drivers.Spi
import Rtos.Drivers.I2c
import Rtos.Drivers.Buses
import Rtos.Drivers.Framework
import Rtos.Drivers.InitOrder
import Rtos.Drivers.Builtin
import Rtos.Drivers.Startup
import Rtos.Irq.Dispatcher
import Rtos.Irq.Nesting
import Rtos.Irq.History
import Rtos.Boot.Crc32
import Rtos.Boot.Detection
import Rtos.Objects
import Rtos.Sched.Types
import Rtos.Sched.Scheduler
import Rtos.Sched.Task
import Rtos.Sched.Abstract
import Rtos.Sched.Waits
import Rtos.Sched.Refine
import Rtos.Sched.Runs
import Rtos.Sched.Delayed
import Rtos.Sched.Release
import Rtos.Sched.Ready
import Rtos.Sched.Dispatch
import Rtos.Sched.RoundRobin
import Rtos.Sched.Keeps
import Rtos.Sched.Lifetime
import Rtos.Bugs.LoneYield
import Rtos.Bugs.IdleTick
import Rtos.Bugs.LostDelay
import Rtos.Bugs.TickWrap
import Rtos.Bugs.DeletedCurrent
import Rtos.Bugs.UnusedSlot
import Rtos.Bugs.IdWrap
import Rtos.Bugs.FreeCount
import Rtos.Bugs.QueueOverrun
import Rtos.Bugs.TxBuffer
import Rtos.Bugs.PartialWrite
import Rtos.Bugs.SemaphoreBound
import Rtos.Bugs.ScratchBuffer
import Rtos.Bugs.FillBytes
import Rtos.Bugs.SharedHandle
import Rtos.Bugs.RetriedInit
import Rtos.Bugs.LastPriority
import Rtos.Bugs.HandlerCount
import Rtos.Bugs.RoundedSize
import Rtos.Bugs.StaleHeader
import Rtos.Bugs.HostAlignment
import Rtos.Bugs.PoolOverrun
import Rtos.Bugs.DanglingPool
import Rtos.Bugs.DestroyedPool
import Rtos.Bugs.QueueBuffer
import Rtos.Services.Objects
import Rtos.Services.Discipline
import Rtos.Services.Calls
import Rtos.Services.Layout
import Rtos.Services.Memory
import Rtos.Services.Ipc
import Rtos.Services.Pools
import Rtos.Services.Uarts
import Rtos.Services.Refine
import Rtos.Services.History
import Rtos.Services.Local
import Rtos.Services.Guarantees
import Rtos.System.Machine
import Rtos.System.Exclusion
import Rtos.System.Inversion
