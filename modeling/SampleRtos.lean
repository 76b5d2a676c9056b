import SampleRtos.Lib.Ring
import SampleRtos.Lib.Lockstep
import SampleRtos.Lib.Mask
import SampleRtos.Service.List
import SampleRtos.Service.Circle
import SampleRtos.Service.Ffs
import SampleRtos.Service.Strncpy
import SampleRtos.Timer.Queue
import SampleRtos.Timer.Spec
import SampleRtos.Timer.OnTime
import SampleRtos.Timer.Guarded
import SampleRtos.Timer.Ordered
import SampleRtos.Timer.Stopped
import SampleRtos.Timer.SkipList
import SampleRtos.Timer.Drain
import SampleRtos.Timer.AmidTick
import SampleRtos.Object.Registry
import SampleRtos.Port.Switch
import SampleRtos.Port.Contexts
import SampleRtos.Port.Frame
import SampleRtos.Sched.Step
import SampleRtos.Kernel.Dispatch
import SampleRtos.Kernel.Observe
import SampleRtos.Kernel.Waiting
import SampleRtos.Kernel.WakeTimer
import SampleRtos.Kernel.Grants
import SampleRtos.Kernel.ResumeTick
import SampleRtos.Kernel.Reset
import SampleRtos.Kernel.Commute
import SampleRtos.Kernel.Handover
import SampleRtos.Kernel.Reuse
import SampleRtos.Kernel.WakeAll
import SampleRtos.Kernel.Timeout
import SampleRtos.Kernel.Mask
import SampleRtos.Kernel.Nested
import SampleRtos.Kernel.LockNest
import SampleRtos.Kernel.Preempt
import SampleRtos.Kernel.Counter
import SampleRtos.Kernel.Defunct
import SampleRtos.Kernel.DetachTick
import SampleRtos.Kernel.RoundRobin
import SampleRtos.Kernel.Slices
import SampleRtos.Kernel.Owed
import SampleRtos.Kernel.Board
import SampleRtos.Kernel.Progress
import SampleRtos.Kernel.Origin
import SampleRtos.Kernel.Remembered
import SampleRtos.Kernel.InTime
import SampleRtos.Kernel.Elsewhere
import SampleRtos.Kernel.SemLock
import SampleRtos.Kernel.Critical
