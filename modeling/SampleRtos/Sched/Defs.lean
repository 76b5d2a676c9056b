import SampleRtos.Service.Ffs
import SampleRtos.Timer.Defs

/-!
# Threads, the scheduler and the semaphores

scheduler.c, and the functions of thread.c and ipc.c that touch no timer: that
`rt_thread_resume`, and with it every way of waking a waiter, is among them is
how the source has it. The links of all thread nodes and of all list heads they
can hang under are one store, because a thread has a single `tlist` node. What
the source brackets with the interrupt mask runs to completion here. A
dereferenced null pointer, an index past the priority table and a list head
taken for a thread are `none`.
-/

namespace SampleRtos

open Intrusive

/-! ## rtdef.h -/

def RT_THREAD_PRIORITY_MAX : Nat := 32

def RT_IPC_FLAG_FIFO : BitVec 8 := 0x00
def RT_IPC_FLAG_PRIO : BitVec 8 := 0x01

def RT_IPC_CMD_RESET : Int := 0x01

/-- The values of `stat` that are ever stored: `RT_THREAD_INIT`, `_READY`,
`_SUSPEND` and `_CLOSE`. No flag outside `RT_THREAD_STAT_MASK` is ever set. -/
inductive ThreadStat where
  | init
  | ready
  | suspend
  | close
  deriving DecidableEq, Repr

/-- `struct rt_thread` as far as scheduling reads it. `static` is the bit
`RT_Object_Class_Static` of `type`, `cleanup` whether that pointer is set; `tlist`
is kept with the links and `thread_timer` with the timers. -/
structure RtThread where
  static : Bool
  initTick : BitVec 32
  remainingTick : BitVec 32
  cleanup : Bool
  currentPriority : Nat
  initPriority : Nat
  numberMask : BitVec 32
  error : Int
  stat : ThreadStat

/-- `struct rt_semaphore`: its value and the flag of its parent object. -/
structure RtSemaphore where
  value : BitVec 16
  flag : BitVec 8

/-- The heads a thread can be listed under: `rt_thread_priority_table[p]`, the
`suspend_thread` of a semaphore, `rt_thread_defunct`. -/
inductive ThreadHead (σ : Type) where
  | ready (p : Nat)
  | suspend (s : σ)
  | defunct
  deriving DecidableEq, Repr

/-- The address of an `sp` field, as the two port variables hold it: none
stored, the field of the null thread, the field of a thread. -/
inductive SpAddr (τ : Type) where
  | zero
  | nullSp
  | sp (t : τ)
  deriving DecidableEq, Repr

/-- cpuport.c: `rt_thread_switch_interrupt_flag`, `rt_interrupt_from_thread`,
`rt_interrupt_to_thread`, and whether PendSV is pending. -/
structure Port (τ : Type) where
  switchInterruptFlag : Bool
  fromThread : SpAddr τ
  toThread : SpAddr τ
  pendSv : Bool
  deriving DecidableEq, Repr

/-- The scheduling part of the kernel state. -/
structure SchedSys (τ σ L : Type) where
  thread : τ → RtThread
  sem : σ → RtSemaphore
  list : L
  rtCurrentThread : Option τ
  rtThreadReadyPriorityGroup : BitVec 32
  rtSchedulerLockNest : Int
  port : Port τ

abbrev ThreadNode (τ σ : Type) := Node (ThreadHead σ) τ

abbrev ThreadLinks (τ σ : Type) := Links (ThreadNode τ σ)

/-! ## context_rvde.s, the C side -/

namespace Port
variable {τ : Type}

/-- `rt_hw_context_switch_to`: the first switch has no thread to save. -/
def rtHwContextSwitchTo (new : SpAddr τ) : Port τ :=
  { switchInterruptFlag := true, fromThread := .zero, toThread := new, pendSv := true }

/-- `rt_hw_context_switch`: a request made while one is outstanding keeps the
thread to save and replaces the thread to resume. -/
def rtHwContextSwitch (p : Port τ) (old new : SpAddr τ) : Port τ :=
  if p.switchInterruptFlag then
    { p with toThread := new, pendSv := true }
  else
    { switchInterruptFlag := true, fromThread := old, toThread := new, pendSv := true }

end Port

/-- `&thread->sp`. -/
def spOf {τ : Type} : Option τ → SpAddr τ
  | none => .nullSp
  | some t => .sp t

/-! ## State updates -/

section Sched
variable {τ σ L : Type}

namespace SchedSys

def setThread [DecidableEq τ] (k : SchedSys τ σ L) (t : τ) (r : RtThread) : SchedSys τ σ L :=
  { k with thread := Function.update k.thread t r }

def setSem [DecidableEq σ] (k : SchedSys τ σ L) (s : σ) (r : RtSemaphore) : SchedSys τ σ L :=
  { k with sem := Function.update k.sem s r }

def setStat [DecidableEq τ] (k : SchedSys τ σ L) (t : τ) (st : ThreadStat) : SchedSys τ σ L :=
  k.setThread t { k.thread t with stat := st }

def setError [DecidableEq τ] (k : SchedSys τ σ L) (t : τ) (e : Int) : SchedSys τ σ L :=
  k.setThread t { k.thread t with error := e }

/-- `rt_thread_ready_priority_group |= thread->number_mask`. -/
def setGroupBit (k : SchedSys τ σ L) (t : τ) : SchedSys τ σ L :=
  { k with rtThreadReadyPriorityGroup :=
      k.rtThreadReadyPriorityGroup ||| (k.thread t).numberMask }

/-- `rt_thread_ready_priority_group &= ~thread->number_mask`. -/
def clearGroupBit (k : SchedSys τ σ L) (t : τ) : SchedSys τ σ L :=
  { k with rtThreadReadyPriorityGroup :=
      k.rtThreadReadyPriorityGroup &&& ~~~(k.thread t).numberMask }

/-- The index `rt_schedule` looks up: `__rt_ffs(group) - 1` on an unsigned word,
so an empty group gives an index far past the table. -/
def highestReadyPriority (k : SchedSys τ σ L) : Nat :=
  (BitVec.ofNat 32 (rtFfs k.rtThreadReadyPriorityGroup) - 1).toNat

/-- The rest of `rt_schedule` once `to_thread` is known. -/
def switchTo [DecidableEq τ] (k : SchedSys τ σ L) (toThread : τ) : SchedSys τ σ L :=
  if k.rtSchedulerLockNest = 0 ∧ some toThread ≠ k.rtCurrentThread then
    { k with
      rtCurrentThread := some toThread
      port := k.port.rtHwContextSwitch (spOf k.rtCurrentThread) (.sp toThread) }
  else k

/-- The rest of `rt_system_scheduler_start` once `to_thread` is known. -/
def startAt (k : SchedSys τ σ L) (toThread : τ) : SchedSys τ σ L :=
  { k with
    rtCurrentThread := some toThread
    port := .rtHwContextSwitchTo (.sp toThread) }

def rtEnterCritical (k : SchedSys τ σ L) : SchedSys τ σ L :=
  if k.rtSchedulerLockNest < 255 then
    { k with rtSchedulerLockNest := k.rtSchedulerLockNest + 1 }
  else k

end SchedSys

/-- `rt_list_entry` on a node met in a list of threads. -/
def rtThreadEntry (n : ThreadNode τ σ) : Option τ :=
  match n with
  | .head _ => none
  | .item t => some t

/-! ## scheduler.c -/

variable [DecidableEq τ] [DecidableEq σ]

/-- `rt_system_scheduler_init`. -/
def rtSystemSchedulerInit (k : SchedSys τ σ (ThreadLinks τ σ)) :
    SchedSys τ σ (ThreadLinks τ σ) :=
  { k with
    list := (List.range RT_THREAD_PRIORITY_MAX).foldl
      (fun l p => rtListInit l (.head (.ready p))) k.list
    rtCurrentThread := none
    rtThreadReadyPriorityGroup := 0 }

/-- The thread at the head of the list the bitmap points to. -/
def highestReadyThread (k : SchedSys τ σ (ThreadLinks τ σ)) : Option τ := do
  let n ← k.list.next (.head (.ready k.highestReadyPriority))
  rtThreadEntry n

def rtSystemSchedulerStart (k : SchedSys τ σ (ThreadLinks τ σ)) :
    Option (SchedSys τ σ (ThreadLinks τ σ)) := do
  let toThread ← highestReadyThread k
  return k.startAt toThread

def rtScheduleInsertThread (k : SchedSys τ σ (ThreadLinks τ σ)) (t : τ) :
    Option (SchedSys τ σ (ThreadLinks τ σ)) := do
  let k := k.setStat t .ready
  let l ← rtListInsertBefore k.list (.head (.ready (k.thread t).currentPriority)) (.item t)
  return { k with list := l }.setGroupBit t

def rtScheduleRemoveThread (k : SchedSys τ σ (ThreadLinks τ σ)) (t : τ) :
    Option (SchedSys τ σ (ThreadLinks τ σ)) := do
  let l ← rtListRemove k.list (.item t)
  let k := { k with list := l }
  if rtListIsempty k.list (.head (.ready (k.thread t).currentPriority)) then
    return k.clearGroupBit t
  else return k

def rtSchedule (k : SchedSys τ σ (ThreadLinks τ σ)) :
    Option (SchedSys τ σ (ThreadLinks τ σ)) := do
  -- read before the lock is looked at, so a locked scheduler needs a ready thread too
  let toThread ← highestReadyThread k
  return k.switchTo toThread

def rtExitCritical (k : SchedSys τ σ (ThreadLinks τ σ)) :
    Option (SchedSys τ σ (ThreadLinks τ σ)) := do
  let k := { k with rtSchedulerLockNest := k.rtSchedulerLockNest - 1 }
  -- an exit too many goes below zero here and is put back
  if k.rtSchedulerLockNest ≤ 0 then
    let k := { k with rtSchedulerLockNest := 0 }
    if k.rtCurrentThread.isSome then rtSchedule k else return k
  else return k

/-! ## thread.c, without the timer -/

/-- `rt_thread_resume`, with its return code. -/
def rtThreadResume (k : SchedSys τ σ (ThreadLinks τ σ)) (t : τ) :
    Option (Int × SchedSys τ σ (ThreadLinks τ σ)) := do
  if (k.thread t).stat ≠ .suspend then return (-RT_ERROR, k)
  -- the thread's timer keeps running
  let l ← rtListRemove k.list (.item t)
  let k ← rtScheduleInsertThread { k with list := l } t
  return (RT_EOK, k)

/-- `rt_thread_startup`, which always returns `RT_EOK`. -/
def rtThreadStartup (k : SchedSys τ σ (ThreadLinks τ σ)) (t : τ) :
    Option (SchedSys τ σ (ThreadLinks τ σ)) := do
  let r := k.thread t
  let k := k.setThread t
    { r with
      currentPriority := r.initPriority
      numberMask := 1#32 <<< r.initPriority
      stat := .suspend }
  -- suspended only so that resuming accepts it
  let (_, k) ← rtThreadResume k t
  if k.rtCurrentThread.isSome then rtSchedule k else return k

/-- `rt_thread_timeout`, the callback of every thread's timer. -/
def rtThreadTimeout (k : SchedSys τ σ (ThreadLinks τ σ)) (t : τ) :
    Option (SchedSys τ σ (ThreadLinks τ σ)) := do
  let k := k.setError t (-RT_ETIMEOUT)
  -- from whichever list the thread is on: a semaphore's, or none after a sleep
  let l ← rtListRemove k.list (.item t)
  let k ← rtScheduleInsertThread { k with list := l } t
  rtSchedule k

/-- `rt_thread_yield`, which always returns `RT_EOK`. -/
def rtThreadYield (k : SchedSys τ σ (ThreadLinks τ σ)) :
    Option (SchedSys τ σ (ThreadLinks τ σ)) := do
  let t ← k.rtCurrentThread
  -- of two equal links the source concludes that nobody shares the priority
  if (k.thread t).stat = .ready ∧ k.list.next (.item t) ≠ k.list.prev (.item t) then
    let l ← rtListRemove k.list (.item t)
    let l ← rtListInsertBefore l (.head (.ready (k.thread t).currentPriority)) (.item t)
    rtSchedule { k with list := l }
  else return k

/-- The slice accounting of `rt_tick_increase` on the current thread. -/
def rtTickSlice (k : SchedSys τ σ (ThreadLinks τ σ)) :
    Option (SchedSys τ σ (ThreadLinks τ σ)) := do
  let t ← k.rtCurrentThread
  -- decremented before it is tested: a slice of zero ticks wraps round
  let remaining := (k.thread t).remainingTick - 1
  let k := k.setThread t { k.thread t with remainingTick := remaining }
  if remaining = 0 then
    rtThreadYield (k.setThread t { k.thread t with remainingTick := (k.thread t).initTick })
  else return k

/-! ## ipc.c, without the timer -/

/-- The loop of `rt_ipc_list_suspend` under `RT_IPC_FLAG_PRIO`: the node to
insert before, from `n` on. A walk of more steps than there are threads is
going round for ever. -/
def rtIpcListSearch (k : SchedSys τ σ (ThreadLinks τ σ)) (s : σ) (t : τ) :
    Nat → ThreadNode τ σ → Option (ThreadNode τ σ)
  | 0, _ => none
  | fuel + 1, n =>
      if n = .head (.suspend s) then some n
      else do
        let u ← rtThreadEntry n
        if (k.thread t).currentPriority < (k.thread u).currentPriority then return n
        let n ← k.list.next n
        rtIpcListSearch k s t fuel n

/-- `rt_ipc_list_suspend` after its `rt_thread_suspend`. Both exits of the loop
insert before the node it stopped at; any other flag inserts nowhere. -/
def rtIpcListInsert [Fintype τ] (k : SchedSys τ σ (ThreadLinks τ σ)) (s : σ) (t : τ) :
    Option (SchedSys τ σ (ThreadLinks τ σ)) := do
  if (k.sem s).flag = RT_IPC_FLAG_FIFO then
    let l ← rtListInsertBefore k.list (.head (.suspend s)) (.item t)
    return { k with list := l }
  else if (k.sem s).flag = RT_IPC_FLAG_PRIO then
    let n ← k.list.next (.head (.suspend s))
    let n ← rtIpcListSearch k s t (Fintype.card τ + 1) n
    let l ← rtListInsertBefore k.list n (.item t)
    return { k with list := l }
  else return k

def rtIpcListResume (k : SchedSys τ σ (ThreadLinks τ σ)) (s : σ) :
    Option (SchedSys τ σ (ThreadLinks τ σ)) := do
  let n ← k.list.next (.head (.suspend s))
  let t ← rtThreadEntry n
  -- a waiter the resume refuses stays where it is, and so does the value
  let (_, k) ← rtThreadResume k t
  return k

/-- `rt_ipc_list_resume_all`. A waiter that is not suspended is never taken off
the list and the loop never ends. -/
def rtIpcListResumeAll (s : σ) :
    Nat → SchedSys τ σ (ThreadLinks τ σ) → Option (SchedSys τ σ (ThreadLinks τ σ))
  | 0, _ => none
  | fuel + 1, k =>
      if rtListIsempty k.list (.head (.suspend s)) then some k
      else do
        let n ← k.list.next (.head (.suspend s))
        let t ← rtThreadEntry n
        let (_, k) ← rtThreadResume (k.setError t (-RT_ERROR)) t
        rtIpcListResumeAll s fuel k

/-- `rt_sem_init` after its object registration. -/
def rtSemInit (k : SchedSys τ σ (ThreadLinks τ σ)) (s : σ) (value : BitVec 32)
    (flag : BitVec 8) : SchedSys τ σ (ThreadLinks τ σ) :=
  let k := { k with list := rtListInit k.list (.head (.suspend s)) }
  k.setSem s { value := value.setWidth 16, flag := flag }

/-- `rt_sem_detach` before its object is detached. -/
def rtSemDetach [Fintype τ] (k : SchedSys τ σ (ThreadLinks τ σ)) (s : σ) :
    Option (SchedSys τ σ (ThreadLinks τ σ)) :=
  rtIpcListResumeAll s (Fintype.card τ + 1) k

/-- `rt_sem_release`, which always returns `RT_EOK`. -/
def rtSemRelease (k : SchedSys τ σ (ThreadLinks τ σ)) (s : σ) :
    Option (SchedSys τ σ (ThreadLinks τ σ)) := do
  if ¬ rtListIsempty k.list (.head (.suspend s)) then
    let k ← rtIpcListResume k s
    rtSchedule k
  else return k.setSem s { k.sem s with value := (k.sem s).value + 1 }

/-- `rt_sem_control`, with its return code. -/
def rtSemControl [Fintype τ] (k : SchedSys τ σ (ThreadLinks τ σ)) (s : σ) (cmd : Int)
    (arg : BitVec 32) : Option (Int × SchedSys τ σ (ThreadLinks τ σ)) := do
  if cmd = RT_IPC_CMD_RESET then
    let k ← rtIpcListResumeAll s (Fintype.card τ + 1) k
    let k := k.setSem s { k.sem s with value := arg.setWidth 16 }
    let k ← rtSchedule k
    return (RT_EOK, k)
  else return (-RT_ERROR, k)

end Sched

end SampleRtos
