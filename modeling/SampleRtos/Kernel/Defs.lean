import SampleRtos.Sched.Defs
import Mathlib.Data.Fintype.Sum

/-!
# The kernel: threads and semaphores with their timers

The functions of thread.c and ipc.c that arm or disarm a thread's timer, the
tick, and the operations a program performs on the whole state. The timer of
thread `t` is `.inl t`; timers the program declares itself are `.inr u`. The
object lists of object.c are not part of this state.
-/

namespace SampleRtos

open Intrusive

/-- `timeout_func` with its parameter: `rt_thread_timeout` for the timer in a
thread, a function of the program for any other. -/
inductive TimerCallback (τ : Type) where
  | rtThreadTimeout (parameter : τ)
  | user
  deriving DecidableEq, Repr

/-- Threads `τ`, semaphores `σ` and program timers `υ`. -/
abbrev Kernel (τ σ υ LT LS : Type) := Sys (τ ⊕ υ) (TimerCallback τ) LT (SchedSys τ σ LS)

abbrev RtKernel (τ σ υ : Type) := Kernel τ σ υ (TimerLinks (τ ⊕ υ)) (ThreadLinks τ σ)

/-- A call that does not block. Callbacks may make these as well as threads. -/
inductive Call (τ σ υ : Type) where
  | threadInit (t : τ) (priority : Nat) (tick : BitVec 32)
  | threadStartup (t : τ)
  | threadResume (t : τ)
  | threadSuspend (t : τ)
  | threadYield
  | threadDetach (t : τ)
  | semInit (s : σ) (value : BitVec 32) (flag : BitVec 8)
  | semTrytake (s : σ)
  | semRelease (s : σ)
  | semControl (s : σ) (cmd : Int) (arg : BitVec 32)
  | semDetach (s : σ)
  | enterCritical
  | exitCritical
  | schedule
  | timerInit (u : υ) (time : Tick) (flag : BitVec 8)
  | timerStart (u : υ)
  | timerStop (u : υ)
  | timerControl (u : υ) (cmd : TimerCtrl)
  | timerDetach (u : υ)

/-- One operation, run to completion. A tick comes with what the callbacks it
runs do. -/
inductive Op (τ σ υ : Type) where
  | call (c : Call τ σ υ)
  | threadSleep (tick : Tick)
  | semTake (s : σ) (time : BitVec 32)
  | tickIncrease (script : List (List (Call τ σ υ)))
  | schedulerStart

/-- How `rt_sem_take` stands when its `rt_schedule` is over or was not reached:
it has returned a code, or the calling thread waits and will return its `error`
when it executes again. -/
inductive TakeOutcome (τ : Type) where
  | returned (e : Int)
  | waiting (thread : τ)
  deriving DecidableEq, Repr

section Kernel
variable {τ σ υ LT LS : Type}

/-- `&thread->thread_timer`. -/
abbrev threadTimer (t : τ) : τ ⊕ υ := .inl t

namespace Sys

/-- Running an operation of the scheduling part. -/
def onSched (k : Kernel τ σ υ LT LS) (f : SchedSys τ σ LS → Option (SchedSys τ σ LS)) :
    Option (Kernel τ σ υ LT LS) := do
  let e ← f k.env
  return { k with env := e }

/-- Running an operation of the timer part. -/
def onTimers (k : Kernel τ σ υ LT LS)
    (f : TimerSys (τ ⊕ υ) (TimerCallback τ) LT → Option (TimerSys (τ ⊕ υ) (TimerCallback τ) LT)) :
    Option (Kernel τ σ υ LT LS) := do
  let tm ← f k.timers
  return { k with timers := tm }

end Sys

variable [DecidableEq τ] [DecidableEq σ] [DecidableEq υ]

/-! ## thread.c -/

/-- `rt_thread_init` after its object registration; the stack frame it builds
is not part of this state, and `cleanup` it leaves alone. -/
def rtThreadInit (k : RtKernel τ σ υ) (t : τ) (priority : Nat) (tick : BitVec 32) :
    RtKernel τ σ υ :=
  let e := { k.env with list := rtListInit k.env.list (.item t) }
  let e := e.setThread t
    { static := true
      initTick := tick
      remainingTick := tick
      cleanup := (k.env.thread t).cleanup
      currentPriority := priority
      initPriority := priority
      numberMask := 0
      error := RT_EOK
      stat := .init }
  { timers := rtTimerInit k.timers (threadTimer t) (some (.rtThreadTimeout t)) 0
      RT_TIMER_FLAG_ONE_SHOT
    env := e }

/-- `rt_thread_suspend`, with its return code. -/
def rtThreadSuspend (k : RtKernel τ σ υ) (t : τ) : Option (Int × RtKernel τ σ υ) := do
  if (k.env.thread t).stat ≠ .ready then return (-RT_ERROR, k)
  let k ← k.onSched fun e => rtScheduleRemoveThread (e.setStat t .suspend) t
  -- a timer that is not running makes this fail, which nobody asks about
  let (_, tm) ← rtTimerStop k.timers (threadTimer t)
  return (RT_EOK, { k with timers := tm })

/-- `rt_timer_control` with `RT_TIMER_CTRL_SET_TIME`, then `rt_timer_start`, on
a thread's timer. -/
def rtThreadTimerStart [Fintype τ] [Fintype υ] (k : RtKernel τ σ υ) (t : τ) (tick : Tick) :
    Option (RtKernel τ σ υ) :=
  k.onTimers fun tm =>
    rtTimerStart (tm.rtTimerControl (threadTimer t) (.setTime tick)) (threadTimer t)

/-- `rt_thread_sleep`, which always returns `RT_EOK`. -/
def rtThreadSleep [Fintype τ] [Fintype υ] (k : RtKernel τ σ υ) (tick : Tick) :
    Option (RtKernel τ σ υ) := do
  let t ← k.env.rtCurrentThread
  let (_, k) ← rtThreadSuspend k t
  let k ← rtThreadTimerStart k t tick
  k.onSched rtSchedule

/-- `rt_thread_detach`, which always returns `RT_EOK`. -/
def rtThreadDetach (k : RtKernel τ σ υ) (t : τ) : Option (RtKernel τ σ υ) := do
  let k ←
    (if (k.env.thread t).stat ≠ .init then k.onSched fun e => rtScheduleRemoveThread e t
      else some k)
  let k ← k.onTimers fun tm => rtTimerDetach tm (threadTimer t)
  let k := { k with env := k.env.setStat t .close }
  if (k.env.thread t).static ∧ ¬ (k.env.thread t).cleanup then return k
  else
    -- nothing ever initialises this head
    let l ← rtListInsertAfter k.env.list (.head .defunct) (.item t)
    return { k with env := { k.env with list := l } }

/-! ## ipc.c -/

/-- `rt_ipc_list_suspend`. -/
def rtIpcListSuspend [Fintype τ] (k : RtKernel τ σ υ) (s : σ) (t : τ) :
    Option (RtKernel τ σ υ) := do
  let (_, k) ← rtThreadSuspend k t
  k.onSched fun e => rtIpcListInsert e s t

/-- `rt_sem_take` through its `rt_schedule`. -/
def rtSemTake [Fintype τ] [Fintype υ] (k : RtKernel τ σ υ) (s : σ) (time : BitVec 32) :
    Option (TakeOutcome τ × RtKernel τ σ υ) := do
  if 0 < (k.env.sem s).value then
    let r := { k.env.sem s with value := (k.env.sem s).value - 1 }
    return (.returned RT_EOK, { k with env := k.env.setSem s r })
  else if time = 0 then return (.returned (-RT_ETIMEOUT), k)
  else
    let t ← k.env.rtCurrentThread
    let k := { k with env := k.env.setError t RT_EOK }
    -- its return code is dropped: the timer starts whether or not the thread was suspended
    let k ← rtIpcListSuspend k s t
    -- a negative time waits for ever
    let k ← (if 0 < time.toInt then rtThreadTimerStart k t time else some k)
    let k ← k.onSched rtSchedule
    return (.waiting t, k)

/-- What a waiting `rt_sem_take` returns once its thread executes again: the
error, and `RT_EOK` if there is none. -/
def rtSemTakeReturn (k : SchedSys τ σ LS) (t : τ) : Int :=
  if (k.thread t).error ≠ RT_EOK then (k.thread t).error else RT_EOK

/-! ## Operations -/

namespace Call

/-- What initialisation asks for: a thread that is not in use and a priority of
the table, a semaphore nobody waits on, a timer that is not linked. -/
def Allowed (k : RtKernel τ σ υ) : Call τ σ υ → Prop
  | .threadInit t priority _ =>
      ((k.env.thread t).stat = .init ∨ (k.env.thread t).stat = .close) ∧
        priority < RT_THREAD_PRIORITY_MAX
  | .semInit s _ _ =>
      k.env.list.next (.head (.suspend s)) = none ∨
        k.env.list.next (.head (.suspend s)) = some (.head (.suspend s))
  | .timerInit u _ _ =>
      k.timers.timerList.next (.item (.inr u)) = none ∨
        k.timers.timerList.next (.item (.inr u)) = some (.item (.inr u))
  | _ => True

instance (k : RtKernel τ σ υ) (c : Call τ σ υ) : Decidable (c.Allowed k) := by
  rcases c <;> dsimp only [Allowed] <;> infer_instance

def exec [Fintype τ] [Fintype υ] (k : RtKernel τ σ υ) : Call τ σ υ → Option (RtKernel τ σ υ)
  | .threadInit t priority tick => some (rtThreadInit k t priority tick)
  | .threadStartup t => k.onSched fun e => rtThreadStartup e t
  | .threadResume t => k.onSched fun e => (rtThreadResume e t).map Prod.snd
  | .threadSuspend t => (rtThreadSuspend k t).map Prod.snd
  | .threadYield => k.onSched rtThreadYield
  | .threadDetach t => rtThreadDetach k t
  | .semInit s value flag => some { k with env := rtSemInit k.env s value flag }
  | .semTrytake s => (rtSemTake k s 0).map Prod.snd
  | .semRelease s => k.onSched fun e => rtSemRelease e s
  | .semControl s cmd arg => k.onSched fun e => (rtSemControl e s cmd arg).map Prod.snd
  | .semDetach s => k.onSched fun e => rtSemDetach e s
  | .enterCritical => some { k with env := k.env.rtEnterCritical }
  | .exitCritical => k.onSched rtExitCritical
  | .schedule => k.onSched rtSchedule
  | .timerInit u time flag =>
      some { k with timers := rtTimerInit k.timers (.inr u) (some .user) time flag }
  | .timerStart u => k.onTimers fun tm => rtTimerStart tm (.inr u)
  | .timerStop u => k.onTimers fun tm => (rtTimerStop tm (.inr u)).map Prod.snd
  | .timerControl u cmd => some { k with timers := k.timers.rtTimerControl (.inr u) cmd }
  | .timerDetach u => k.onTimers fun tm => rtTimerDetach tm (.inr u)

end Call

/-- The calls of one callback in order. A script that initialises something in
use describes no callback. -/
def runCalls [Fintype τ] [Fintype υ] :
    List (Call τ σ υ) → RtKernel τ σ υ → Option (RtKernel τ σ υ)
  | [], k => some k
  | c :: cs, k => do
      let k ← (if c.Allowed k then c.exec k else none)
      runCalls cs k

/-- Running a timer's callback. -/
def kernelCallback [Fintype τ] [Fintype υ] (_ : τ ⊕ υ) (f : TimerCallback τ)
    (script : List (Call τ σ υ)) (k : RtKernel τ σ υ) : Option (RtKernel τ σ υ) :=
  match f with
  | .rtThreadTimeout t => k.onSched fun e => rtThreadTimeout e t
  | .user => runCalls script k

/-- `rt_tick_increase` of the kernel. -/
def kernelTick [Fintype τ] [Fintype υ] (script : List (List (Call τ σ υ)))
    (k : RtKernel τ σ υ) : Option (RtKernel τ σ υ) :=
  rtTickIncrease (fun k => k.onSched rtTickSlice) kernelCallback script k

namespace Op

def exec [Fintype τ] [Fintype υ] (k : RtKernel τ σ υ) : Op τ σ υ → Option (RtKernel τ σ υ)
  | .call c => c.exec k
  | .threadSleep tick => rtThreadSleep k tick
  | .semTake s time => (rtSemTake k s time).map Prod.snd
  | .tickIncrease script => kernelTick script k
  | .schedulerStart => k.onSched rtSystemSchedulerStart

end Op

/-- The current thread may block: it is ready, or suspended and listed nowhere. -/
def MayBlock (k : RtKernel τ σ υ) : Prop :=
  ∃ t ∈ k.env.rtCurrentThread,
    (k.env.thread t).stat = .ready ∨
      (k.env.thread t).stat = .suspend ∧ rtListIsempty k.env.list (.item t) = true

instance (k : RtKernel τ σ υ) : Decidable (MayBlock k) :=
  inferInstanceAs (Decidable (∃ t ∈ k.env.rtCurrentThread, _ ∨ _))

/-- `rt_sem_take` with these arguments finds no unit and waits. -/
def TakeBlocks (k : Kernel τ σ υ LT LS) (s : σ) (time : BitVec 32) : Prop :=
  (k.env.sem s).value = 0 ∧ time ≠ 0

instance (k : Kernel τ σ υ LT LS) (s : σ) (time : BitVec 32) : Decidable (TakeBlocks k s time) :=
  inferInstanceAs (Decidable (_ ∧ _))

namespace Op

/-- The discipline every run keeps: initialisation only of what is not in use,
blocking only by a current thread that may, starting the scheduler once. -/
def Allowed (k : RtKernel τ σ υ) : Op τ σ υ → Prop
  | .call c => c.Allowed k
  | .threadSleep _ => MayBlock k
  | .semTake s time => TakeBlocks k s time → MayBlock k
  | .tickIncrease _ => True
  | .schedulerStart => k.env.rtCurrentThread = none

instance (k : RtKernel τ σ υ) (op : Op τ σ υ) : Decidable (op.Allowed k) := by
  rcases op <;> dsimp only [Allowed] <;> infer_instance

end Op

/-! ## The state after initialisation -/

/-- Zeroed memory, as C leaves static objects: the timers. -/
def zeroTimers {ι γ L : Type} (l : L) : TimerSys ι γ L where
  rtTick := 0
  randomNr := 0
  timer := fun _ => { flag := 0, timeoutFunc := none, initTick := 0, timeoutTick := 0 }
  timerList := l

/-- Zeroed memory: threads, semaphores and the scheduler. -/
def zeroSched {L : Type} (l : L) : SchedSys τ σ L where
  thread := fun _ =>
    { static := false
      initTick := 0
      remainingTick := 0
      cleanup := false
      currentPriority := 0
      initPriority := 0
      numberMask := 0
      error := 0
      stat := .init }
  sem := fun _ => { value := 0, flag := 0 }
  list := l
  rtCurrentThread := none
  rtThreadReadyPriorityGroup := 0
  rtSchedulerLockNest := 0
  port :=
    { switchInterruptFlag := false
      fromThread := .zero
      toThread := .zero
      pendSv := false }

/-- The kernel after `rt_system_timer_init` and `rt_system_scheduler_init`. -/
def systemInit : RtKernel τ σ υ where
  timers := rtSystemTimerInit (zeroTimers { next := fun _ => none, prev := fun _ => none })
  env := rtSystemSchedulerInit (zeroSched { next := fun _ => none, prev := fun _ => none })

/-- `rt_thread_idle_init` on the thread `idle`. -/
def rtThreadIdleInit (k : RtKernel τ σ υ) (idle : τ) : Option (RtKernel τ σ υ) :=
  (rtThreadInit k idle (RT_THREAD_PRIORITY_MAX - 1) 1).onSched fun e => rtThreadStartup e idle

/-- The kernel after `rt_system_timer_init`, `rt_system_scheduler_init` and
`rt_thread_idle_init`. -/
def boot (idle : τ) : Option (RtKernel τ σ υ) :=
  rtThreadIdleInit systemInit idle

end Kernel

end SampleRtos
