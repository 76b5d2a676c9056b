import SampleRtos.Lib.Mask
import SampleRtos.Kernel.Reuse

/-!
# The functions with their interrupt masking

The kernel's functions once more, access by access and with the mask they set and restore, on
the kernel and the object lists. Between two accesses interrupts come in where the mask is
open, and with them whatever a handler or another thread does. Undisturbed, each function is
the one that the rest of the development runs in one step.
-/

namespace SampleRtos

open Intrusive Mask

namespace Masked

/-! ## Accesses -/

/-- What only masked code may write: the ready, suspend and defunct lists, whose links are
one store, the timer list, the object lists and `rt_thread_ready_priority_group`. -/
inductive SharedPart where
  | threadList
  | timerList
  | objectList
  | readyPriorityGroup
  deriving DecidableEq, Repr

section Accesses
variable {τ σ υ α : Type}

def shared (x : WithObjects τ σ υ) :
    ThreadLinks τ σ × TimerLinks (τ ⊕ υ) × ObjectLinks τ σ υ × BitVec 32 :=
  (x.kernel.env.list, x.kernel.timers.timerList, x.objects,
    x.kernel.env.rtThreadReadyPriorityGroup)

abbrev KernelCode (τ σ υ : Type) := Code (WithObjects τ σ υ) SharedPart

abbrev SchedState (τ σ : Type) := SchedSys τ σ (ThreadLinks τ σ)

abbrev TimerState (τ υ : Type) := TimerSys (τ ⊕ υ) (TimerCallback τ) (TimerLinks (τ ⊕ υ))

@[simp] def setEnv (x : WithObjects τ σ υ) (e : SchedState τ σ) : WithObjects τ σ υ :=
  { x with kernel := { x.kernel with env := e } }

@[simp] def setTimers (x : WithObjects τ σ υ) (k : TimerState τ υ) : WithObjects τ σ υ :=
  { x with kernel := { x.kernel with timers := k } }

def readEnv (f : SchedState τ σ → α) : KernelCode τ σ υ α := read fun x => f x.kernel.env

def fetchEnv (f : SchedState τ σ → Option α) : KernelCode τ σ υ α :=
  fetch fun x => f x.kernel.env

def readTimers (f : TimerState τ υ → α) : KernelCode τ σ υ α := read fun x => f x.kernel.timers

def fetchTimers (f : TimerState τ υ → Option α) : KernelCode τ σ υ α :=
  fetch fun x => f x.kernel.timers

def assignEnv (f : SchedState τ σ → SchedState τ σ)
    (h : ∀ e, ((f e).list, (f e).rtThreadReadyPriorityGroup) =
      (e.list, e.rtThreadReadyPriorityGroup)) : KernelCode τ σ υ Unit :=
  assign shared (fun x => setEnv x (f x.kernel.env)) fun x => by
    obtain ⟨hlist, hgroup⟩ := Prod.ext_iff.mp (h x.kernel.env)
    exact congrArg₂ (fun l g => (l, x.kernel.timers.timerList, x.objects, g)) hlist hgroup

def assignThread [DecidableEq τ] (t : τ) (f : RtThread → RtThread) : KernelCode τ σ υ Unit :=
  assignEnv (fun e => e.setThread t (f (e.thread t))) fun _ => rfl

def assignSem [DecidableEq σ] (s : σ) (f : RtSemaphore → RtSemaphore) : KernelCode τ σ υ Unit :=
  assignEnv (fun e => e.setSem s (f (e.sem s))) fun _ => rfl

def assignTimer [DecidableEq τ] [DecidableEq υ] (x : τ ⊕ υ)
    (f : RtTimer (TimerCallback τ) → RtTimer (TimerCallback τ)) : KernelCode τ σ υ Unit :=
  assign shared
    (fun s => setTimers s (s.kernel.timers.setTimer x (f (s.kernel.timers.timer x)))) fun _ => rfl

def editThreads (f : ThreadLinks τ σ → Option (ThreadLinks τ σ)) : KernelCode τ σ υ Unit :=
  edit .threadList fun x => do
    let l ← f x.kernel.env.list
    return setEnv x { x.kernel.env with list := l }

def editGroup (f : SchedState τ σ → SchedState τ σ) : KernelCode τ σ υ Unit :=
  edit .readyPriorityGroup fun x => some (setEnv x (f x.kernel.env))

def editTimers (f : TimerLinks (τ ⊕ υ) → Option (TimerLinks (τ ⊕ υ))) : KernelCode τ σ υ Unit :=
  edit .timerList fun x => do
    let l ← f x.kernel.timers.timerList
    return setTimers x { x.kernel.timers with timerList := l }

def editObjects (f : ObjectLinks τ σ υ → Option (ObjectLinks τ σ υ)) : KernelCode τ σ υ Unit :=
  edit .objectList fun x => do
    let l ← f x.objects
    return { x with objects := l }

end Accesses

section Code
variable {τ σ υ : Type} [DecidableEq τ] [DecidableEq σ] [DecidableEq υ]

/-! ## scheduler.c -/

def rtScheduleInsertThread (t : τ) : KernelCode τ σ υ Unit := do
  let temp ← disable
  assignThread t fun r => { r with stat := .ready }
  let p ← readEnv fun e => (e.thread t).currentPriority
  editThreads fun l => rtListInsertBefore l (.head (.ready p)) (.item t)
  editGroup (·.setGroupBit t)
  enable temp

def rtScheduleRemoveThread (t : τ) : KernelCode τ σ υ Unit := do
  let temp ← disable
  editThreads fun l => rtListRemove l (.item t)
  let empty ← readEnv fun e =>
    rtListIsempty e.list (.head (.ready (e.thread t).currentPriority))
  (if empty then editGroup (·.clearGroupBit t) else pure ())
  enable temp

section
omit [DecidableEq σ]

theorem switchTo_shared (e : SchedState τ σ) (t : τ) :
    ((e.switchTo t).list, (e.switchTo t).rtThreadReadyPriorityGroup) =
      (e.list, e.rtThreadReadyPriorityGroup) := by
  unfold SchedSys.switchTo
  split <;> rfl

end

def rtSchedule : KernelCode τ σ υ Unit := do
  let level ← disable
  let toThread ← fetchEnv highestReadyThread
  assignEnv (·.switchTo toThread) fun e => switchTo_shared e toThread
  enable level

def rtEnterCritical : KernelCode τ σ υ Unit := do
  let level ← disable
  assignEnv SchedSys.rtEnterCritical fun e => by unfold SchedSys.rtEnterCritical; split <;> rfl
  enable level

def rtExitCritical : KernelCode τ σ υ Unit := do
  let level ← disable
  assignEnv (fun e => { e with rtSchedulerLockNest := e.rtSchedulerLockNest - 1 }) fun _ => rfl
  if (← readEnv (·.rtSchedulerLockNest)) ≤ 0 then
    assignEnv ({ · with rtSchedulerLockNest := 0 }) fun _ => rfl
    enable level
    if (← readEnv (·.rtCurrentThread)).isSome then rtSchedule else pure ()
  else enable level

/-! ## object.c -/

/-- Linking an object. The container has no list for timers, and what is written through
the null pointer it has instead is no list. -/
def objectInsert (l : ObjectLinks τ σ υ) (type : ObjectClass) :
    Obj τ σ υ → Option (ObjectLinks τ σ υ)
  | .thread t => rtObjectInsert l (.thread t) type
  | .sem s => rtObjectInsert l (.sem s) type
  | _ => some l

def objectRemove (l : ObjectLinks τ σ υ) : Obj τ σ υ → Option (ObjectLinks τ σ υ)
  | .thread t => rtListRemove l (.item (.thread t))
  | .sem s => rtListRemove l (.item (.sem s))
  | _ => some l

/-- `object->type`, which only threads are asked for. -/
def assignStatic : Obj τ σ υ → KernelCode τ σ υ Unit
  | .thread t => assignThread t fun r => { r with static := true }
  | _ => pure ()

def rtObjectInit (object : Obj τ σ υ) (type : ObjectClass) : KernelCode τ σ υ Unit := do
  assignStatic object
  let temp ← disable
  editObjects fun l => objectInsert l type object
  enable temp

def rtObjectDetach (object : Obj τ σ υ) : KernelCode τ σ υ Unit := do
  let temp ← disable
  editObjects fun l => objectRemove l object
  enable temp

/-! ## timer.c -/

def timerObject : τ ⊕ υ → Obj τ σ υ
  | .inl t => .threadTimer t
  | .inr u => .timer u

/-- `rt_timer_init` with `_rt_timer_init`, whose list writes are not masked. -/
def rtTimerInit (x : τ ⊕ υ) (timeout : Option (TimerCallback τ)) (time : Tick) (flag : BitVec 8) :
    KernelCode τ σ υ Unit := do
  rtObjectInit (timerObject x) .timer
  assignTimer x fun _ =>
    { flag := flag &&& ~~~RT_TIMER_FLAG_ACTIVATED, timeoutFunc := timeout, initTick := time,
      timeoutTick := 0 }
  editTimers fun l => some (rtListInit l (.item x))

/-- `_rt_timer_remove`, always called with the mask set. -/
def rtTimerRemove (x : τ ⊕ υ) : KernelCode τ σ υ Unit :=
  editTimers fun l => rtListRemove l (.item x)

def rtTimerStop (x : τ ⊕ υ) : KernelCode τ σ υ Int := do
  if ¬ (← readTimers fun k => decide (k.timer x).activated) then return -RT_ERROR
  let level ← disable
  rtTimerRemove x
  enable level
  assignTimer x .deactivate
  return RT_EOK

def rtTimerControl (x : τ ⊕ υ) (cmd : TimerCtrl) : KernelCode τ σ υ Unit :=
  assignTimer x (·.control cmd)

def rtTimerStart [Fintype τ] [Fintype υ] (x : τ ⊕ υ) : KernelCode τ σ υ Unit := do
  let level ← disable
  rtTimerRemove x
  assignTimer x .deactivate
  enable level
  let now ← readTimers (·.rtTick)
  assignTimer x fun r => { r with timeoutTick := now + r.initTick }
  let level ← disable
  let row ← fetchTimers fun k => rtTimerSearch k x (Fintype.card (τ ⊕ υ) + 1) timerHead
  assign shared (fun s => setTimers s
    { s.kernel.timers with randomNr := s.kernel.timers.randomNr + 1 }) fun _ => rfl
  editTimers fun l => rtListInsertAfter l row (.item x)
  assignTimer x .activate
  enable level

def rtTimerDetach (x : τ ⊕ υ) : KernelCode τ σ υ Unit := do
  let level ← disable
  rtTimerRemove x
  enable level
  rtObjectDetach (timerObject x)

/-! ## thread.c -/

/-- `rt_thread_init`, whose `rt_list_init` is not masked. -/
def rtThreadInit (t : τ) (priority : Nat) (tick : BitVec 32) : KernelCode τ σ υ Unit := do
  rtObjectInit (.thread t) .thread
  editThreads fun l => some (rtListInit l (.item t))
  assignThread t fun r =>
    { r with
      initPriority := priority, currentPriority := priority, numberMask := 0, error := RT_EOK
      stat := .init, initTick := tick, remainingTick := tick }
  rtTimerInit (threadTimer t) (some (.rtThreadTimeout t)) 0 RT_TIMER_FLAG_ONE_SHOT

def rtThreadResume (t : τ) : KernelCode τ σ υ Int := do
  if (← readEnv fun e => (e.thread t).stat) ≠ .suspend then return -RT_ERROR
  let temp ← disable
  editThreads fun l => rtListRemove l (.item t)
  enable temp
  rtScheduleInsertThread t
  return RT_EOK

def rtThreadStartup (t : τ) : KernelCode τ σ υ Unit := do
  assignThread t fun r => { r with currentPriority := r.initPriority }
  assignThread t fun r => { r with numberMask := 1#32 <<< r.currentPriority }
  assignThread t fun r => { r with stat := .suspend }
  let _ ← rtThreadResume t
  if (← readEnv (·.rtCurrentThread)).isSome then rtSchedule else pure ()

def rtThreadSuspend (t : τ) : KernelCode τ σ υ Int := do
  if (← readEnv fun e => (e.thread t).stat) ≠ .ready then return -RT_ERROR
  let temp ← disable
  assignThread t fun r => { r with stat := .suspend }
  rtScheduleRemoveThread t
  let _ ← rtTimerStop (threadTimer t)
  enable temp
  return RT_EOK

def rtThreadSleep [Fintype τ] [Fintype υ] (tick : Tick) : KernelCode τ σ υ Unit := do
  let temp ← disable
  let t ← fetchEnv (·.rtCurrentThread)
  let _ ← rtThreadSuspend t
  rtTimerControl (threadTimer t) (.setTime tick)
  rtTimerStart (threadTimer t)
  enable temp
  rtSchedule

/-- `rt_thread_timeout`, which unlinks the thread without a mask of its own. -/
def rtThreadTimeout (t : τ) : KernelCode τ σ υ Unit := do
  assignThread t fun r => { r with error := -RT_ETIMEOUT }
  editThreads fun l => rtListRemove l (.item t)
  rtScheduleInsertThread t
  rtSchedule

def rtThreadYield : KernelCode τ σ υ Unit := do
  let level ← disable
  let t ← fetchEnv (·.rtCurrentThread)
  if ← readEnv fun e => decide ((e.thread t).stat = .ready ∧
      e.list.next (.item t) ≠ e.list.prev (.item t)) then
    editThreads fun l => rtListRemove l (.item t)
    let p ← readEnv fun e => (e.thread t).currentPriority
    editThreads fun l => rtListInsertBefore l (.head (.ready p)) (.item t)
    enable level
    rtSchedule
  else enable level

/-- The end of `rt_thread_delete` and `rt_thread_detach`. -/
def insertDefunct (t : τ) : KernelCode τ σ υ Unit := do
  let lock ← disable
  editThreads fun l => rtListInsertAfter l (.head .defunct) (.item t)
  enable lock

/-- What `rt_thread_delete` and `rt_thread_detach` begin with. -/
def closeThread (t : τ) : KernelCode τ σ υ Unit := do
  let stat ← readEnv fun e => (e.thread t).stat
  (if stat ≠ .init then rtScheduleRemoveThread t else pure ())
  rtTimerDetach (threadTimer t)
  assignThread t fun r => { r with stat := .close }

def rtThreadDelete (t : τ) : KernelCode τ σ υ Unit := do
  closeThread t
  insertDefunct t

def rtThreadDetach (t : τ) : KernelCode τ σ υ Unit := do
  closeThread t
  if ← readEnv fun e => (e.thread t).static && !(e.thread t).cleanup then
    rtObjectDetach (.thread t)
  else insertDefunct t

/-! ## ipc.c -/

def rtIpcListSuspend [Fintype τ] (s : σ) (t : τ) : KernelCode τ σ υ Unit := do
  let _ ← rtThreadSuspend t
  let flag ← readEnv fun e => (e.sem s).flag
  if flag = RT_IPC_FLAG_FIFO then
    editThreads fun l => rtListInsertBefore l (.head (.suspend s)) (.item t)
  else if flag = RT_IPC_FLAG_PRIO then
    let n ← fetchEnv fun e => do
      let n ← e.list.next (.head (.suspend s))
      rtIpcListSearch e s t (Fintype.card τ + 1) n
    editThreads fun l => rtListInsertBefore l n (.item t)
  else pure ()

/-- `rt_list_entry(list->next, struct rt_thread, tlist)`. -/
def firstWaiter (s : σ) (e : SchedState τ σ) : Option τ := do
  let n ← e.list.next (.head (.suspend s))
  rtThreadEntry n

def rtIpcListResume (s : σ) : KernelCode τ σ υ Unit := do
  let t ← fetchEnv (firstWaiter s)
  let _ ← rtThreadResume t

/-- The first `n` turns of the loop, which has to end with them. -/
def rtIpcListResumeAll (s : σ) : Nat → KernelCode τ σ υ Unit
  | 0 => fetch fun _ => none
  | n + 1 => do
      if ← readEnv fun e => rtListIsempty e.list (.head (.suspend s)) then pure ()
      else
        let temp ← disable
        let t ← fetchEnv (firstWaiter s)
        assignThread t fun r => { r with error := -RT_ERROR }
        let _ ← rtThreadResume t
        enable temp
        rtIpcListResumeAll s n

/-- `rt_sem_init`, whose `rt_list_init` is not masked. -/
def rtSemInit (s : σ) (value : BitVec 32) (flag : BitVec 8) : KernelCode τ σ υ Unit := do
  rtObjectInit (.sem s) .semaphore
  editThreads fun l => some (rtListInit l (.head (.suspend s)))
  assignSem s fun _ => { value := value.setWidth 16, flag := flag }

def rtSemDetach (s : σ) (n : Nat) : KernelCode τ σ υ Unit := do
  rtIpcListResumeAll s n
  rtObjectDetach (.sem s)

/-- The end of `rt_sem_take`. -/
def takeReturn (t : τ) : KernelCode τ σ υ Int := do
  if (← readEnv fun e => (e.thread t).error) ≠ RT_EOK then
    readEnv fun e => (e.thread t).error
  else return RT_EOK

def rtSemTake [Fintype τ] [Fintype υ] (s : σ) (time : BitVec 32) : KernelCode τ σ υ Int := do
  let temp ← disable
  if 0 < (← readEnv fun e => (e.sem s).value) then
    assignSem s fun r => { r with value := r.value - 1 }
    enable temp
    return RT_EOK
  else if time = 0 then
    enable temp
    return -RT_ETIMEOUT
  else
    let t ← fetchEnv (·.rtCurrentThread)
    assignThread t fun r => { r with error := RT_EOK }
    rtIpcListSuspend s t
    (if 0 < time.toInt then do
      rtTimerControl (threadTimer t) (.setTime time)
      rtTimerStart (threadTimer t)
    else pure ())
    enable temp
    rtSchedule
    takeReturn t

def rtSemRelease (s : σ) : KernelCode τ σ υ Unit := do
  let temp ← disable
  let empty ← readEnv fun e => rtListIsempty e.list (.head (.suspend s))
  let needSchedule ←
    (if ¬ empty then do
      rtIpcListResume s
      return true
    else do
      assignSem s fun r => { r with value := r.value + 1 }
      return false)
  enable temp
  if needSchedule then rtSchedule else pure ()

def rtSemControl [Fintype τ] (s : σ) (cmd : Int) (arg : BitVec 32) : KernelCode τ σ υ Int := do
  if cmd = RT_IPC_CMD_RESET then
    let level ← disable
    rtIpcListResumeAll s (Fintype.card τ + 1)
    assignSem s fun r => { r with value := arg.setWidth 16 }
    enable level
    rtSchedule
    return RT_EOK
  else return -RT_ERROR

/-! ## What a tick runs -/

section Callbacks
variable [Fintype τ] [Fintype υ]

def call : Call τ σ υ → KernelCode τ σ υ Unit
  | .threadInit t priority tick => rtThreadInit t priority tick
  | .threadStartup t => rtThreadStartup t
  | .threadResume t => do let _ ← rtThreadResume t
  | .threadSuspend t => do let _ ← rtThreadSuspend t
  | .threadYield => rtThreadYield
  | .threadDetach t => rtThreadDetach t
  | .semInit s value flag => rtSemInit s value flag
  | .semTrytake s => do let _ ← rtSemTake s 0
  | .semRelease s => rtSemRelease s
  | .semControl s cmd arg => do let _ ← rtSemControl s cmd arg
  | .semDetach s => rtSemDetach s (Fintype.card τ + 1)
  | .enterCritical => rtEnterCritical
  | .exitCritical => rtExitCritical
  | .schedule => rtSchedule
  | .timerInit u time flag => rtTimerInit (.inr u) (some .user) time flag
  | .timerStart u => rtTimerStart (.inr u)
  | .timerStop u => do let _ ← rtTimerStop (.inr u)
  | .timerControl u cmd => rtTimerControl (.inr u) cmd
  | .timerDetach u => rtTimerDetach (.inr u)

def runCalls : List (Call τ σ υ) → KernelCode τ σ υ Unit
  | [] => pure ()
  | c :: cs => do
      fetch fun x => if c.Allowed x.kernel then some () else none
      call c
      runCalls cs

def callback (f : TimerCallback τ) (script : List (Call τ σ υ)) : KernelCode τ σ υ Unit :=
  match f with
  | .rtThreadTimeout t => rtThreadTimeout t
  | .user => runCalls script

/-- What `rt_timer_check` does to a timer after its callback. -/
def restartTimer (x : τ ⊕ υ) : KernelCode τ σ υ Unit := do
  if ← readTimers fun k => decide ((k.timer x).periodic ∧ (k.timer x).activated) then
    assignTimer x .deactivate
    rtTimerStart x
  else assignTimer x .deactivate

/-- One iteration of `rt_timer_check` on a due timer, with the tick read in it. -/
def rtTimerFire (c : List (Call τ σ υ)) (x : τ ⊕ υ) : KernelCode τ σ υ Tick := do
  rtTimerRemove x
  let f ← fetchTimers fun k => (k.timer x).timeoutFunc
  callback f c
  let now ← readTimers (·.rtTick)
  restartTimer x
  return now

/-- The timer at the head of the list. -/
def firstTimer (k : TimerState τ υ) : Option (τ ⊕ υ) := do
  let n ← k.timerList.next timerHead
  rtTimerEntry n

/-- The loop of `rt_timer_check`, with the tick read last. -/
def checkLoop : List (List (Call τ σ υ)) → Tick → KernelCode τ σ υ Unit
  | script, now => do
      if ← readTimers fun k => rtListIsempty k.timerList timerHead then pure ()
      else
        let x ← fetchTimers firstTimer
        if ← readTimers fun k => decide ((k.timer x).due now) then
          match script with
          | [] => fetch fun _ => none
          | c :: script => do
              let now ← rtTimerFire c x
              checkLoop script now
        else pure ()

def rtTimerCheck (script : List (List (Call τ σ υ))) : KernelCode τ σ υ Unit := do
  let now ← readTimers (·.rtTick)
  let level ← disable
  checkLoop script now
  enable level

/-! ## Every function -/

/-- The functions called from threads, handlers and each other, with their arguments.
`rt_thread_timeout` is none of them: only `rt_timer_check` calls it. `rt_sem_detach` comes
with the number of turns its loop makes, which interrupts may prolong. -/
inductive Fn (τ σ υ : Type) where
  | threadStartup (t : τ)
  | threadResume (t : τ)
  | threadSuspend (t : τ)
  | threadSleep (tick : Tick)
  | threadYield
  | threadDelete (t : τ)
  | threadDetach (t : τ)
  | timerStart (x : τ ⊕ υ)
  | timerStop (x : τ ⊕ υ)
  | timerCheck (script : List (List (Call τ σ υ)))
  | timerDetach (x : τ ⊕ υ)
  | semTake (s : σ) (time : BitVec 32)
  | semRelease (s : σ)
  | semControl (s : σ) (cmd : Int) (arg : BitVec 32)
  | semDetach (s : σ) (turns : Nat)
  | enterCritical
  | exitCritical
  | schedule
  | scheduleInsertThread (t : τ)
  | scheduleRemoveThread (t : τ)
  | objectInit (object : Obj τ σ υ) (type : ObjectClass)
  | objectDetach (object : Obj τ σ υ)

namespace Fn

/-- The function with its masking, and what it returns: `RT_EOK` if nothing else. -/
def code : Fn τ σ υ → KernelCode τ σ υ Int
  | .threadStartup t => do rtThreadStartup t; return RT_EOK
  | .threadResume t => rtThreadResume t
  | .threadSuspend t => rtThreadSuspend t
  | .threadSleep tick => do rtThreadSleep tick; return RT_EOK
  | .threadYield => do rtThreadYield; return RT_EOK
  | .threadDelete t => do rtThreadDelete t; return RT_EOK
  | .threadDetach t => do rtThreadDetach t; return RT_EOK
  | .timerStart x => do rtTimerStart x; return RT_EOK
  | .timerStop x => rtTimerStop x
  | .timerCheck script => do rtTimerCheck script; return RT_EOK
  | .timerDetach x => do rtTimerDetach x; return RT_EOK
  | .semTake s time => rtSemTake s time
  | .semRelease s => do rtSemRelease s; return RT_EOK
  | .semControl s cmd arg => rtSemControl s cmd arg
  | .semDetach s turns => do rtSemDetach s turns; return RT_EOK
  | .enterCritical => do rtEnterCritical; return RT_EOK
  | .exitCritical => do rtExitCritical; return RT_EOK
  | .schedule => do rtSchedule; return RT_EOK
  | .scheduleInsertThread t => do rtScheduleInsertThread t; return RT_EOK
  | .scheduleRemoveThread t => do rtScheduleRemoveThread t; return RT_EOK
  | .objectInit object type => do rtObjectInit object type; return RT_EOK
  | .objectDetach object => do rtObjectDetach object; return RT_EOK

end Fn

end Callbacks

end Code

end Masked

end SampleRtos
