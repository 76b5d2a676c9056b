import SampleRtos.Kernel.Masked

/-!
# The mask is restored

What each function does to `PRIMASK`, and that undisturbed it is the function that runs in
one step everywhere else. The proof of each follows its code access by access.
-/

namespace SampleRtos

open Intrusive Mask

namespace Masked
section Accesses
variable {τ σ υ α : Type} {m : Bool}

/-! ## Accesses -/

theorem readEnv_does (f : SchedState τ σ → α) :
    Does m m (readEnv f : KernelCode τ σ υ α) fun x => some (f x.kernel.env, x) := .read _

theorem fetchEnv_does (f : SchedState τ σ → Option α) :
    Does m m (fetchEnv f : KernelCode τ σ υ α)
      fun x => f x.kernel.env >>= fun a => some (a, x) := .fetch _

theorem readTimers_does (f : TimerState τ υ → α) :
    Does m m (readTimers f : KernelCode τ σ υ α) fun x => some (f x.kernel.timers, x) := .read _

theorem fetchTimers_does (f : TimerState τ υ → Option α) :
    Does m m (fetchTimers f : KernelCode τ σ υ α)
      fun x => f x.kernel.timers >>= fun a => some (a, x) := .fetch _

theorem assignEnv_does {f : SchedState τ σ → SchedState τ σ}
    {h : ∀ e, ((f e).list, (f e).rtThreadReadyPriorityGroup) =
      (e.list, e.rtThreadReadyPriorityGroup)} :
    Does m m (assignEnv f h : KernelCode τ σ υ Unit)
      fun x => some ((), setEnv x (f x.kernel.env)) := .assign

theorem assignThread_does [DecidableEq τ] {t : τ} {f : RtThread → RtThread} :
    Does m m (assignThread t f : KernelCode τ σ υ Unit)
      fun x => some ((), setEnv x (x.kernel.env.setThread t (f (x.kernel.env.thread t)))) :=
  assignEnv_does

theorem assignSem_does [DecidableEq σ] {s : σ} {f : RtSemaphore → RtSemaphore} :
    Does m m (assignSem s f : KernelCode τ σ υ Unit)
      fun x => some ((), setEnv x (x.kernel.env.setSem s (f (x.kernel.env.sem s)))) :=
  assignEnv_does

theorem assignTimer_does [DecidableEq τ] [DecidableEq υ] {t : τ ⊕ υ}
    {f : RtTimer (TimerCallback τ) → RtTimer (TimerCallback τ)} :
    Does m m (assignTimer t f : KernelCode τ σ υ Unit) fun x => some ((),
      setTimers x (x.kernel.timers.setTimer t (f (x.kernel.timers.timer t)))) := .assign

theorem editThreads_does {f : ThreadLinks τ σ → Option (ThreadLinks τ σ)} :
    Does true true (editThreads f : KernelCode τ σ υ Unit) fun x => f x.kernel.env.list >>=
      fun l => some ((), setEnv x { x.kernel.env with list := l }) :=
  Does.edit.congr fun _ => Option.bind_assoc ..

theorem editGroup_does {f : SchedState τ σ → SchedState τ σ} :
    Does true true (editGroup f : KernelCode τ σ υ Unit)
      fun x => some ((), setEnv x (f x.kernel.env)) := .edit

theorem editTimers_does {f : TimerLinks (τ ⊕ υ) → Option (TimerLinks (τ ⊕ υ))} :
    Does true true (editTimers f : KernelCode τ σ υ Unit)
      fun x => f x.kernel.timers.timerList >>= fun l =>
        some ((), setTimers x { x.kernel.timers with timerList := l }) :=
  Does.edit.congr fun _ => Option.bind_assoc ..

theorem editObjects_does {f : ObjectLinks τ σ υ → Option (ObjectLinks τ σ υ)} :
    Does true true (editObjects f : KernelCode τ σ υ Unit)
      fun x => f x.objects >>= fun l => some ((), { x with objects := l }) :=
  Does.edit.congr fun _ => Option.bind_assoc ..

end Accesses

section Code
variable {τ σ υ : Type} [DecidableEq τ] [DecidableEq σ] [DecidableEq υ]

/-! ## Functions that run in one step -/

/-- A kernel function on kernel and object lists. -/
@[simp] def onKernel (f : RtKernel τ σ υ → Option (RtKernel τ σ υ)) (x : WithObjects τ σ υ) :
    Option (Unit × WithObjects τ σ υ) := do
  let k ← f x.kernel
  return ((), { x with kernel := k })

/-- The same with a return code. -/
@[simp] def onKernelRet (f : RtKernel τ σ υ → Option (Int × RtKernel τ σ υ))
    (x : WithObjects τ σ υ) : Option (Int × WithObjects τ σ υ) := do
  let (r, k) ← f x.kernel
  return (r, { x with kernel := k })

@[simp] def onSchedRet (f : SchedState τ σ → Option (Int × SchedState τ σ))
    (x : WithObjects τ σ υ) : Option (Int × WithObjects τ σ υ) := do
  let (r, e) ← f x.kernel.env
  return (r, setEnv x e)

@[simp] def onTimersRet (f : TimerState τ υ → Option (Int × TimerState τ υ))
    (x : WithObjects τ σ υ) : Option (Int × WithObjects τ σ υ) := do
  let (r, k) ← f x.kernel.timers
  return (r, setTimers x k)

/-! ## scheduler.c -/

section
omit [DecidableEq υ]

theorem rtScheduleInsertThread_does (m : Bool) (t : τ) :
    Does m m (rtScheduleInsertThread t : KernelCode τ σ υ Unit)
      (onKernel (·.onSched fun e => SampleRtos.rtScheduleInsertThread e t)) := by
  refine (Does.disable <| assignThread_does.bind fun _ => (readEnv_does _).bind fun _ =>
    editThreads_does.bind fun _ => editGroup_does.bind fun _ => .enable m).congr fun x => ?_
  simp [Sys.onSched, SampleRtos.rtScheduleInsertThread, SchedSys.setStat, Option.bind_assoc]

theorem rtScheduleRemoveThread_does (m : Bool) (t : τ) :
    Does m m (rtScheduleRemoveThread t : KernelCode τ σ υ Unit)
      (onKernel (·.onSched fun e => SampleRtos.rtScheduleRemoveThread e t)) := by
  refine (Does.disable <| editThreads_does.bind fun _ => (readEnv_does _).bind fun _ =>
    (Does.ite (fun _ => editGroup_does) fun _ => .pure _).bind fun _ =>
      .enable m).congr fun x => ?_
  simp [Sys.onSched, SampleRtos.rtScheduleRemoveThread, Option.bind_assoc]
  cases rtListRemove x.kernel.env.list (.item t) with
  | none => rfl
  | some l => simp; split_ifs <;> rfl

end

section
omit [DecidableEq σ] [DecidableEq υ]

theorem rtSchedule_does (m : Bool) :
    Does m m (rtSchedule : KernelCode τ σ υ Unit)
      (onKernel (·.onSched SampleRtos.rtSchedule)) := by
  refine (Does.disable <| (fetchEnv_does _).bind fun _ => assignEnv_does.bind fun _ =>
    .enable m).congr fun x => ?_
  simp [Sys.onSched, SampleRtos.rtSchedule, Option.bind_assoc]

end

section
omit [DecidableEq τ] [DecidableEq σ] [DecidableEq υ]

theorem rtEnterCritical_does (m : Bool) :
    Does m m (rtEnterCritical : KernelCode τ σ υ Unit)
      (onKernel fun k => some { k with env := k.env.rtEnterCritical }) := by
  refine (Does.disable <| assignEnv_does.bind fun _ => .enable m).congr fun x => ?_
  simp

end

section
omit [DecidableEq σ] [DecidableEq υ]

theorem rtExitCritical_does (m : Bool) :
    Does m m (rtExitCritical : KernelCode τ σ υ Unit)
      (onKernel (·.onSched SampleRtos.rtExitCritical)) := by
  refine (Does.disable <| assignEnv_does.bind fun _ => (readEnv_does _).bind fun _ => .ite
    (fun _ => assignEnv_does.bind fun _ => (Does.enable m).bind fun _ => (readEnv_does _).bind
      fun _ => .ite (fun _ => rtSchedule_does m) fun _ => .pure _)
    fun _ => .enable m).congr fun x => ?_
  simp [Sys.onSched, SampleRtos.rtExitCritical, Option.bind_assoc]
  split_ifs <;> rfl

end

/-! ## object.c -/

/-- `object->type |= RT_Object_Class_Static`, of threads. -/
def setStatic (x : WithObjects τ σ υ) : Obj τ σ υ → WithObjects τ σ υ
  | .thread t => setEnv x (x.kernel.env.setThread t { x.kernel.env.thread t with static := true })
  | _ => x

section
omit [DecidableEq σ] [DecidableEq υ]

theorem assignStatic_does (m : Bool) (object : Obj τ σ υ) :
    Does m m (assignStatic object) fun x => some ((), setStatic x object) := by
  cases object with
  | thread t => exact assignThread_does (f := fun r => { r with static := true })
  | _ => exact .pure _

end

theorem rtObjectInit_does (m : Bool) (object : Obj τ σ υ) (type : ObjectClass) :
    Does m m (rtObjectInit object type) fun x => do
      let l ← objectInsert x.objects type object
      return ((), { setStatic x object with objects := l }) := by
  refine ((assignStatic_does m object).bind fun _ => .disable <| editObjects_does.bind fun _ =>
    .enable m).congr fun x => ?_
  have hobjects : (setStatic x object).objects = x.objects := by cases object <;> rfl
  simp [hobjects, Option.bind_assoc]

theorem rtObjectDetach_does (m : Bool) (object : Obj τ σ υ) :
    Does m m (rtObjectDetach object) fun x => do
      let l ← objectRemove x.objects object
      return ((), { x with objects := l }) := by
  refine (Does.disable <| editObjects_does.bind fun _ => .enable m).congr fun x => ?_
  simp [Option.bind_assoc]

/-! ## timer.c -/

theorem rtTimerInit_does (x : τ ⊕ υ) (timeout : Option (TimerCallback τ)) (time : Tick)
    (flag : BitVec 8) :
    Does true true (rtTimerInit x timeout time flag : KernelCode τ σ υ Unit)
      (onKernel fun k => some
        { k with timers := SampleRtos.rtTimerInit k.timers x timeout time flag }) := by
  refine ((rtObjectInit_does true _ _).bind fun _ => assignTimer_does.bind fun _ =>
    editTimers_does).congr fun s => ?_
  cases x <;>
    simp [objectInsert, setStatic, timerObject, SampleRtos.rtTimerInit]

section
omit [DecidableEq σ]

theorem rtTimerRemove_does (x : τ ⊕ υ) :
    Does true true (rtTimerRemove x : KernelCode τ σ υ Unit)
      (onKernel (·.onTimers fun k => SampleRtos.rtTimerRemove k x)) := by
  refine editTimers_does.congr fun s => ?_
  simp [Sys.onTimers, SampleRtos.rtTimerRemove, Option.bind_assoc]

theorem rtTimerStop_does (m : Bool) (x : τ ⊕ υ) :
    Does m m (rtTimerStop x : KernelCode τ σ υ Int)
      (onTimersRet fun k => SampleRtos.rtTimerStop k x) := by
  refine ((readTimers_does _).bind fun _ => .ite (fun _ => .pure _) fun _ => .disable <|
    (rtTimerRemove_does x).bind fun _ => (Does.enable m).bind fun _ => assignTimer_does.bind
      fun _ => .pure _).congr fun s => ?_
  simp [Sys.onTimers, SampleRtos.rtTimerStop, TimerSys.deactivate, Option.bind_assoc]
  split_ifs <;> simp [Option.bind_assoc]

theorem rtTimerStart_does [Fintype τ] [Fintype υ] (m : Bool) (x : τ ⊕ υ) :
    Does m m (rtTimerStart x : KernelCode τ σ υ Unit)
      (onKernel (·.onTimers fun k => SampleRtos.rtTimerStart k x)) := by
  refine (Does.disable <| (rtTimerRemove_does x).bind fun _ => assignTimer_does.bind fun _ =>
    (Does.enable m).bind fun _ => (readTimers_does _).bind fun _ => assignTimer_does.bind fun _ =>
    .disable <| (fetchTimers_does _).bind fun _ => Does.assign.bind fun _ =>
    editTimers_does.bind fun _ => assignTimer_does.bind fun _ => .enable m).congr fun s => ?_
  simp [Sys.onTimers, SampleRtos.rtTimerStart, rtTimerStartUnlink, rtTimerStartArm,
    rtTimerStartLink, TimerSys.deactivate, Option.bind_assoc]

end

theorem rtTimerDetach_does (m : Bool) (x : τ ⊕ υ) :
    Does m m (rtTimerDetach x : KernelCode τ σ υ Unit)
      (onKernel (·.onTimers fun k => SampleRtos.rtTimerDetach k x)) := by
  refine (Does.disable <| (rtTimerRemove_does x).bind fun _ => (Does.enable m).bind fun _ =>
    rtObjectDetach_does m _).congr fun s => ?_
  cases x <;>
    simp [Sys.onTimers, SampleRtos.rtTimerDetach, objectRemove, timerObject, Option.bind_assoc]

/-! ## thread.c -/

theorem rtThreadInit_does (t : τ) (priority : Nat) (tick : BitVec 32) :
    Does true true (rtThreadInit t priority tick : KernelCode τ σ υ Unit) fun x => do
      let l ← rtObjectInsert x.objects (.thread t) .thread
      let k := SampleRtos.rtThreadInit x.kernel t priority tick
      return ((), { kernel := k, objects := l }) := by
  refine ((rtObjectInit_does true _ _).bind fun _ => editThreads_does.bind fun _ =>
    assignThread_does.bind fun _ => rtTimerInit_does _ _ _ _).congr fun x => ?_
  simp [objectInsert, setStatic, SampleRtos.rtThreadInit, SchedSys.setThread, Option.bind_assoc]

section
omit [DecidableEq υ]

theorem rtThreadResume_does (m : Bool) (t : τ) :
    Does m m (rtThreadResume t : KernelCode τ σ υ Int)
      (onSchedRet fun e => SampleRtos.rtThreadResume e t) := by
  refine ((readEnv_does _).bind fun _ => .ite (fun _ => .pure _) fun _ => .disable <|
    editThreads_does.bind fun _ => (Does.enable m).bind fun _ =>
    (rtScheduleInsertThread_does m t).bind fun _ => .pure _).congr fun x => ?_
  simp [Sys.onSched, SampleRtos.rtThreadResume, Option.bind_assoc]
  split_ifs <;> simp [Option.bind_assoc]

theorem rtThreadStartup_does (m : Bool) (t : τ) :
    Does m m (rtThreadStartup t : KernelCode τ σ υ Unit)
      (onKernel (·.onSched fun e => SampleRtos.rtThreadStartup e t)) := by
  refine (assignThread_does.bind fun _ => assignThread_does.bind fun _ =>
    assignThread_does.bind fun _ => (rtThreadResume_does m t).bind fun _ =>
    (readEnv_does _).bind fun _ => .ite (fun _ => rtSchedule_does m) fun _ =>
    .pure _).congr fun x => ?_
  simp [Sys.onSched, SampleRtos.rtThreadStartup, SchedSys.setThread, Option.bind_assoc]
  refine congrArg _ (funext fun r => ?_)
  split_ifs <;> simp

end

theorem rtThreadSuspend_does (m : Bool) (t : τ) :
    Does m m (rtThreadSuspend t : KernelCode τ σ υ Int)
      (onKernelRet fun k => SampleRtos.rtThreadSuspend k t) := by
  refine ((readEnv_does _).bind fun _ => .ite (fun _ => .pure _) fun _ => .disable <|
    assignThread_does.bind fun _ => (rtScheduleRemoveThread_does true t).bind fun _ =>
    (rtTimerStop_does true _).bind fun _ => (Does.enable m).bind fun _ =>
    .pure _).congr fun x => ?_
  simp [Sys.onSched, SampleRtos.rtThreadSuspend, SchedSys.setStat, Option.bind_assoc]
  split_ifs <;> simp [Option.bind_assoc]

section
omit [DecidableEq σ]

theorem rtTimerControl_does (m : Bool) (x : τ ⊕ υ) (cmd : TimerCtrl) :
    Does m m (rtTimerControl x cmd : KernelCode τ σ υ Unit)
      (onKernel fun k => some { k with timers := k.timers.rtTimerControl x cmd }) := by
  refine Does.congr (assignTimer_does (f := (·.control cmd))) fun s => ?_
  simp [TimerSys.rtTimerControl]

end

theorem rtThreadSleep_does [Fintype τ] [Fintype υ] (m : Bool) (tick : Tick) :
    Does m m (rtThreadSleep tick : KernelCode τ σ υ Unit)
      (onKernel fun k => SampleRtos.rtThreadSleep k tick) := by
  refine (Does.disable <| (fetchEnv_does _).bind fun _ => (rtThreadSuspend_does true _).bind
    fun _ => (rtTimerControl_does true _ _).bind fun _ => (rtTimerStart_does true _).bind fun _ =>
    (Does.enable m).bind fun _ => rtSchedule_does m).congr fun x => ?_
  simp [Sys.onSched, Sys.onTimers, SampleRtos.rtThreadSleep, rtThreadTimerStart, Option.bind_assoc]

section
omit [DecidableEq υ]

theorem rtThreadTimeout_does (t : τ) :
    Does true true (rtThreadTimeout t : KernelCode τ σ υ Unit)
      (onKernel (·.onSched fun e => SampleRtos.rtThreadTimeout e t)) := by
  refine (assignThread_does.bind fun _ => editThreads_does.bind fun _ =>
    (rtScheduleInsertThread_does true t).bind fun _ => rtSchedule_does true).congr fun x => ?_
  simp [Sys.onSched, SampleRtos.rtThreadTimeout, SchedSys.setError, Option.bind_assoc]

theorem rtThreadYield_does (m : Bool) :
    Does m m (rtThreadYield : KernelCode τ σ υ Unit)
      (onKernel (·.onSched SampleRtos.rtThreadYield)) := by
  refine (Does.disable <| (fetchEnv_does _).bind fun _ => (readEnv_does _).bind fun _ => .ite
    (fun _ => editThreads_does.bind fun _ => (readEnv_does _).bind fun _ => editThreads_does.bind
      fun _ => (Does.enable m).bind fun _ => rtSchedule_does m)
    fun _ => .enable m).congr fun x => ?_
  simp [Sys.onSched, SampleRtos.rtThreadYield, Option.bind_assoc]
  cases x.kernel.env.rtCurrentThread with
  | none => rfl
  | some t => simp; split_ifs <;> simp [Option.bind_assoc]

theorem insertDefunct_does (m : Bool) (t : τ) :
    Does m m (insertDefunct t : KernelCode τ σ υ Unit)
      (onKernel (·.onSched fun e => do
        let l ← rtListInsertAfter e.list (.head .defunct) (.item t)
        return { e with list := l })) := by
  refine (Does.disable <| editThreads_does.bind fun _ => .enable m).congr fun x => ?_
  simp [Sys.onSched, Option.bind_assoc]

end

theorem closeThread_does (m : Bool) (t : τ) :
    Does m m (closeThread t : KernelCode τ σ υ Unit) (onKernel fun k => do
      let k ←
        (if (k.env.thread t).stat ≠ .init then
          k.onSched fun e => SampleRtos.rtScheduleRemoveThread e t
        else some k)
      let k ← k.onTimers fun tm => SampleRtos.rtTimerDetach tm (threadTimer t)
      return { k with env := k.env.setStat t .close }) := by
  refine ((readEnv_does _).bind fun _ => (Does.ite (fun _ => rtScheduleRemoveThread_does m t)
    fun _ => .pure _).bind fun _ => (rtTimerDetach_does m _).bind fun _ =>
    assignThread_does).congr fun x => ?_
  simp [SchedSys.setStat, Option.bind_assoc]
  split_ifs <;> simp [Option.bind_assoc]

theorem rtThreadDelete_does (m : Bool) (t : τ) :
    Does m m (rtThreadDelete t : KernelCode τ σ υ Unit)
      (onKernel fun k => SampleRtos.rtThreadDelete k t) := by
  refine ((closeThread_does m t).bind fun _ => insertDefunct_does m t).congr fun x => ?_
  simp [Sys.onSched, SampleRtos.rtThreadDelete, Option.bind_assoc]

theorem rtScheduleRemoveThread_thread {e e' : SchedState τ σ} {t : τ}
    (h : SampleRtos.rtScheduleRemoveThread e t = some e') : e'.thread = e.thread := by
  obtain ⟨l, -, h⟩ := Option.bind_eq_some_iff.mp h
  dsimp only at h
  split at h <;> cases h <;> rfl

theorem rtThreadDetach_does (m : Bool) (t : τ) :
    Does m m (rtThreadDetach t : KernelCode τ σ υ Unit) fun x => do
      let k ← SampleRtos.rtThreadDetach x.kernel t
      let l ← (Call.threadDetach t).objects x.kernel x.objects
      return ((), { kernel := k, objects := l }) := by
  refine ((closeThread_does m t).bind fun _ => (readEnv_does _).bind fun _ => .ite
    (fun _ => rtObjectDetach_does m _) fun _ => insertDefunct_does m t).congr fun x => ?_
  simp only [onKernel, SampleRtos.rtThreadDetach, Call.objects]
  cases hrem : (if (x.kernel.env.thread t).stat ≠ .init then
      x.kernel.onSched fun e => SampleRtos.rtScheduleRemoveThread e t
    else some x.kernel) with
  | none => rfl
  | some k₁ =>
    have hthread : k₁.env.thread = x.kernel.env.thread := by
      split at hrem
      · obtain ⟨e, he, hret⟩ := Option.bind_eq_some_iff.mp hrem
        cases hret
        exact rtScheduleRemoveThread_thread he
      · cases hrem
        rfl
    cases htimer : (k₁.onTimers fun tm => SampleRtos.rtTimerDetach tm (threadTimer t)) with
    | none => simp [htimer]
    | some k₂ =>
      have hthread₂ : k₂.env.thread = k₁.env.thread := by
        obtain ⟨tm, -, hret⟩ := Option.bind_eq_some_iff.mp htimer
        cases hret
        rfl
      simp [htimer, SchedSys.setStat, SchedSys.setThread, hthread₂, hthread, objectRemove,
        Sys.onSched]
      by_cases hc : (x.kernel.env.thread t).static ∧ (x.kernel.env.thread t).cleanup = false <;>
        simp [hc, Option.bind_assoc]

/-! ## ipc.c -/

theorem rtIpcListSuspend_does [Fintype τ] (s : σ) (t : τ) :
    Does true true (rtIpcListSuspend s t : KernelCode τ σ υ Unit)
      (onKernel fun k => SampleRtos.rtIpcListSuspend k s t) := by
  refine ((rtThreadSuspend_does true t).bind fun _ => (readEnv_does _).bind fun _ => .ite
    (fun _ => editThreads_does) fun _ => .ite (fun _ => (fetchEnv_does _).bind fun _ =>
      editThreads_does) fun _ => .pure _).congr fun x => ?_
  simp [Sys.onSched, SampleRtos.rtIpcListSuspend, rtIpcListInsert, Option.bind_assoc]
  refine congrArg _ (funext fun r => ?_)
  split_ifs <;> simp [Option.bind_assoc]

section
omit [DecidableEq υ]

theorem rtIpcListResume_does (s : σ) :
    Does true true (rtIpcListResume s : KernelCode τ σ υ Unit)
      (onKernel (·.onSched fun e => SampleRtos.rtIpcListResume e s)) := by
  refine ((fetchEnv_does _).bind fun _ => (rtThreadResume_does true _).bind fun _ =>
    .pure _).congr fun x => ?_
  simp [Sys.onSched, SampleRtos.rtIpcListResume, firstWaiter, Option.bind_assoc]

theorem rtIpcListResumeAll_does (m : Bool) (s : σ) (n : Nat) :
    Does m m (rtIpcListResumeAll s n : KernelCode τ σ υ Unit)
      (onKernel (·.onSched (SampleRtos.rtIpcListResumeAll s n))) := by
  induction n with
  | zero => exact Does.fetch _
  | succ n ih =>
    refine ((readEnv_does _).bind fun _ => .ite (fun _ => .pure _) fun _ => .disable <|
      (fetchEnv_does _).bind fun _ => assignThread_does.bind fun _ =>
      (rtThreadResume_does true _).bind fun _ => (Does.enable m).bind fun _ => ih).congr fun x => ?_
    simp [Sys.onSched, SampleRtos.rtIpcListResumeAll, firstWaiter, SchedSys.setError,
      Option.bind_assoc]
    split_ifs <;> simp [Option.bind_assoc]

end

theorem rtSemInit_does (s : σ) (value : BitVec 32) (flag : BitVec 8) :
    Does true true (rtSemInit s value flag : KernelCode τ σ υ Unit) fun x => do
      let l ← rtObjectInsert x.objects (.sem s) .semaphore
      let e := SampleRtos.rtSemInit x.kernel.env s value flag
      return ((), { kernel := { x.kernel with env := e }, objects := l }) := by
  refine ((rtObjectInit_does true _ _).bind fun _ => editThreads_does.bind fun _ =>
    assignSem_does).congr fun x => ?_
  simp [objectInsert, setStatic, SampleRtos.rtSemInit, Option.bind_assoc]

theorem rtSemDetach_does (m : Bool) (s : σ) (n : Nat) :
    Does m m (rtSemDetach s n : KernelCode τ σ υ Unit) fun x => do
      let k ← x.kernel.onSched (SampleRtos.rtIpcListResumeAll s n)
      let l ← rtListRemove x.objects (.item (.sem s))
      return ((), { kernel := k, objects := l }) := by
  refine ((rtIpcListResumeAll_does m s n).bind fun _ => rtObjectDetach_does m _).congr fun x => ?_
  simp [Sys.onSched, objectRemove, Option.bind_assoc]

/-- What `rt_sem_take` returns when the calling thread is not disturbed. -/
def TakeOutcome.code (k : RtKernel τ σ υ) : TakeOutcome τ → Int
  | .returned e => e
  | .waiting t => rtSemTakeReturn k.env t

section
omit [DecidableEq τ] [DecidableEq σ] [DecidableEq υ]

theorem takeReturn_does (m : Bool) (t : τ) :
    Does m m (takeReturn t : KernelCode τ σ υ Int)
      fun x => some (rtSemTakeReturn x.kernel.env t, x) := by
  refine ((readEnv_does _).bind fun _ => .ite (fun _ => readEnv_does _) fun _ =>
    .pure _).congr fun x => ?_
  simp only [rtSemTakeReturn, Option.bind_eq_bind, Option.bind_some]
  split_ifs <;> rfl

end

theorem rtSemTake_does [Fintype τ] [Fintype υ] (m : Bool) (s : σ) (time : BitVec 32) :
    Does m m (rtSemTake s time : KernelCode τ σ υ Int) (onKernelRet fun k => do
      let (o, k) ← SampleRtos.rtSemTake k s time
      return (TakeOutcome.code k o, k)) := by
  refine (Does.disable <| (readEnv_does _).bind fun _ => .ite
    (fun _ => assignSem_does.bind fun _ => (Does.enable m).bind fun _ => .pure _) fun _ => .ite
    (fun _ => (Does.enable m).bind fun _ => .pure _) fun _ => (fetchEnv_does _).bind fun t =>
      assignThread_does.bind fun _ => (rtIpcListSuspend_does s t).bind fun _ => Does.bind
      (Does.ite (fun _ => (rtTimerControl_does true _ _).bind fun _ => rtTimerStart_does true _)
        fun _ => .pure _) fun _ => (Does.enable m).bind fun _ => (rtSchedule_does m).bind fun _ =>
      takeReturn_does m t).congr fun x => ?_
  simp [Sys.onSched, Sys.onTimers, SampleRtos.rtSemTake, rtThreadTimerStart, TakeOutcome.code,
    SchedSys.setError, Option.bind_assoc]
  split_ifs <;> simp [Option.bind_assoc]

section
omit [DecidableEq υ]

theorem rtSemRelease_does (m : Bool) (s : σ) :
    Does m m (rtSemRelease s : KernelCode τ σ υ Unit)
      (onKernel (·.onSched fun e => SampleRtos.rtSemRelease e s)) := by
  refine (Does.disable <| (readEnv_does _).bind fun _ => Does.bind (Does.ite
    (fun _ => (rtIpcListResume_does s).bind fun _ => .pure _)
    fun _ => assignSem_does.bind fun _ => .pure _) fun _ => (Does.enable m).bind fun _ => .ite
    (fun _ => rtSchedule_does m) fun _ => .pure _).congr fun x => ?_
  simp [Sys.onSched, SampleRtos.rtSemRelease, Option.bind_assoc]
  split_ifs <;> simp [Option.bind_assoc]

theorem rtSemControl_does [Fintype τ] (m : Bool) (s : σ) (cmd : Int) (arg : BitVec 32) :
    Does m m (rtSemControl s cmd arg : KernelCode τ σ υ Int)
      (onSchedRet fun e => SampleRtos.rtSemControl e s cmd arg) := by
  refine (Does.ite (fun _ => .disable <| (rtIpcListResumeAll_does true s _).bind fun _ =>
    assignSem_does.bind fun _ => (Does.enable m).bind fun _ => (rtSchedule_does m).bind fun _ =>
    .pure _) fun _ => .pure _).congr fun x => ?_
  simp [Sys.onSched, SampleRtos.rtSemControl, Option.bind_assoc]
  split_ifs <;> simp [Option.bind_assoc]

end

/-! ## What a tick runs -/

section Callbacks
variable [Fintype τ] [Fintype υ]

/-- A call on kernel and object lists. -/
def callEffect (c : Call τ σ υ) (x : WithObjects τ σ υ) : Option (Unit × WithObjects τ σ υ) := do
  let k ← c.exec x.kernel
  let l ← c.objects x.kernel x.objects
  return ((), { kernel := k, objects := l })

theorem call_does (c : Call τ σ υ) : Does true true (call c) (callEffect c) := by
  cases c with
  | threadInit t priority tick => exact rtThreadInit_does t priority tick
  | threadStartup t => exact rtThreadStartup_does true t
  | threadResume t =>
    refine ((rtThreadResume_does true t).bind fun _ => .pure _).congr fun x => ?_
    simp [callEffect, Call.exec, Call.objects, Sys.onSched, Option.bind_assoc, Option.bind_map]
  | threadSuspend t =>
    refine ((rtThreadSuspend_does true t).bind fun _ => .pure _).congr fun x => ?_
    simp [callEffect, Call.exec, Call.objects, Option.bind_assoc, Option.bind_map]
  | threadYield => exact rtThreadYield_does true
  | threadDetach t => exact rtThreadDetach_does true t
  | semInit s value flag => exact rtSemInit_does s value flag
  | semTrytake s =>
    refine ((rtSemTake_does true s 0).bind fun _ => .pure _).congr fun x => ?_
    simp [callEffect, Call.exec, Call.objects, Option.bind_assoc, Option.bind_map]
  | semRelease s => exact rtSemRelease_does true s
  | semControl s cmd arg =>
    refine ((rtSemControl_does true s cmd arg).bind fun _ => .pure _).congr fun x => ?_
    simp [callEffect, Call.exec, Call.objects, Sys.onSched, Option.bind_assoc, Option.bind_map]
  | semDetach s => exact rtSemDetach_does true s _
  | enterCritical => exact rtEnterCritical_does true
  | exitCritical => exact rtExitCritical_does true
  | schedule => exact rtSchedule_does true
  | timerInit u time flag => exact rtTimerInit_does _ _ _ _
  | timerStart u => exact rtTimerStart_does true _
  | timerStop u =>
    refine ((rtTimerStop_does true _).bind fun _ => .pure _).congr fun x => ?_
    simp [callEffect, Call.exec, Call.objects, Sys.onTimers, Option.bind_assoc, Option.bind_map]
  | timerControl u cmd => exact rtTimerControl_does true _ cmd
  | timerDetach u => exact rtTimerDetach_does true _

theorem runCalls_does (cs : List (Call τ σ υ)) :
    Does true true (runCalls cs) fun x => do
      let k ← SampleRtos.runCalls cs x.kernel
      let l ← callsObjects cs x.kernel x.objects
      return ((), { kernel := k, objects := l }) := by
  induction cs with
  | nil => exact .pure _
  | cons c cs ih =>
    refine ((Does.fetch _).bind fun _ => (call_does c).bind fun _ => ih).congr fun x => ?_
    simp only [callEffect, SampleRtos.runCalls, callsObjects]
    by_cases hc : c.Allowed x.kernel
    · cases hk : c.exec x.kernel with
      | none => simp [hc, hk]
      | some k =>
        cases hl : c.objects x.kernel x.objects with
        | none => cases SampleRtos.runCalls cs k <;> simp [hc, hk, hl]
        | some l => simp [hc, hk, hl, Option.bind_assoc]
    · simp [hc]

/-- `restartTimer` undisturbed. -/
def restarted (x : τ ⊕ υ) (k : TimerState τ υ) : Option (TimerState τ υ) :=
  if (k.timer x).periodic ∧ (k.timer x).activated then
    SampleRtos.rtTimerStart (k.deactivate x) x
  else some (k.deactivate x)

section
omit [DecidableEq σ]

theorem restartTimer_does (m : Bool) (x : τ ⊕ υ) :
    Does m m (restartTimer x : KernelCode τ σ υ Unit) (onKernel (·.onTimers (restarted x))) := by
  refine ((readTimers_does _).bind fun _ => .ite
    (fun _ => assignTimer_does.bind fun _ => rtTimerStart_does m x)
    fun _ => assignTimer_does).congr fun s => ?_
  simp [Sys.onTimers, restarted, TimerSys.deactivate]
  split_ifs <;> simp

end

theorem rtTimerStart_rtTick {k k' : TimerState τ υ} {x : τ ⊕ υ}
    (h : SampleRtos.rtTimerStart k x = some k') : k'.rtTick = k.rtTick := by
  obtain ⟨k₁, hk₁, h⟩ := Option.bind_eq_some_iff.mp h
  obtain ⟨row, -, h⟩ := Option.bind_eq_some_iff.mp h
  obtain ⟨l, -, h⟩ := Option.bind_eq_some_iff.mp h
  cases h
  obtain ⟨k₂, hk₂, hret⟩ := Option.bind_eq_some_iff.mp hk₁
  cases hret
  obtain ⟨l₂, -, hret⟩ := Option.bind_eq_some_iff.mp hk₂
  cases hret
  rfl

theorem restarted_rtTick {k k' : TimerState τ υ} {x : τ ⊕ υ} (h : restarted x k = some k') :
    k'.rtTick = k.rtTick := by
  unfold restarted at h
  split at h
  · exact (rtTimerStart_rtTick h).trans rfl
  · cases h
    rfl

theorem rtTimerFire_eq (c : List (Call τ σ υ)) (x : τ ⊕ υ) (k : RtKernel τ σ υ) :
    SampleRtos.rtTimerFire kernelCallback c x k = (do
      let m ← SampleRtos.rtTimerRemove k.timers x
      let f ← (m.timer x).timeoutFunc
      let k ← kernelCallback x f c { k with timers := m }
      k.onTimers (restarted x)) := by
  simp only [SampleRtos.rtTimerFire, Sys.onTimers, restarted]
  refine congrArg _ (funext fun m => congrArg _ (funext fun f => congrArg _ (funext fun k => ?_)))
  split_ifs <;> rfl

/-- The object lists after a timer's callback. -/
def fireObjects (c : List (Call τ σ υ)) (x : τ ⊕ υ) (s : WithObjects τ σ υ) :
    Option (ObjectLinks τ σ υ) := do
  let m ← SampleRtos.rtTimerRemove s.kernel.timers x
  if (s.kernel.timers.timer x).timeoutFunc = some .user then
    callsObjects c { s.kernel with timers := m } s.objects
  else some s.objects

theorem callback_does (f : TimerCallback τ) (c : List (Call τ σ υ)) (x : τ ⊕ υ) :
    Does true true (callback f c) fun s => do
      let k ← kernelCallback x f c s.kernel
      let l ← (if f = .user then callsObjects c s.kernel s.objects else some s.objects)
      return ((), { kernel := k, objects := l }) := by
  cases f with
  | rtThreadTimeout t => exact rtThreadTimeout_does t
  | user => exact runCalls_does c

theorem rtTimerFire_does (c : List (Call τ σ υ)) (x : τ ⊕ υ) :
    Does true true (rtTimerFire c x) fun s => do
      let k ← SampleRtos.rtTimerFire kernelCallback c x s.kernel
      let l ← fireObjects c x s
      return (k.timers.rtTick, { kernel := k, objects := l }) := by
  refine ((rtTimerRemove_does x).bind fun _ => (fetchTimers_does _).bind fun f =>
    (callback_does f c x).bind fun _ => (readTimers_does _).bind fun _ =>
    (restartTimer_does true x).bind fun _ => .pure _).congr fun s => ?_
  simp only [onKernel, Sys.onTimers, rtTimerFire_eq, fireObjects, SampleRtos.rtTimerRemove]
  cases rtListRemove s.kernel.timers.timerList (.item x) with
  | none => rfl
  | some l =>
    cases hf : (s.kernel.timers.timer x).timeoutFunc with
    | none => simp [hf]
    | some f =>
      simp only [hf, Option.some.injEq, Option.bind_eq_bind, Option.bind_some, Option.pure_def]
      cases kernelCallback x f c
          { s.kernel with timers := { s.kernel.timers with timerList := l } } with
      | none => rfl
      | some k =>
        cases hr : restarted x k.timers with
        | none => simp [hr, Option.bind_assoc]
        | some m => simp [hr, restarted_rtTick hr, Option.bind_assoc]

/-- `checkLoop` undisturbed, with the tick read last. -/
def checkAt : List (List (Call τ σ υ)) → Tick → WithObjects τ σ υ →
    Option (Unit × WithObjects τ σ υ)
  | script, now, s =>
      if rtListIsempty s.kernel.timers.timerList timerHead then some ((), s)
      else do
        let x ← firstTimer s.kernel.timers
        if (s.kernel.timers.timer x).due now then
          match script with
          | [] => none
          | c :: script => do
              let k ← SampleRtos.rtTimerFire kernelCallback c x s.kernel
              let l ← fireObjects c x s
              checkAt script k.timers.rtTick { kernel := k, objects := l }
        else return ((), s)

theorem checkLoop_does (script : List (List (Call τ σ υ))) : ∀ now : Tick,
    Does true true (checkLoop script now) (checkAt script now) := by
  induction script with
  | nil =>
    intro now
    unfold checkLoop
    refine ((readTimers_does _).bind fun _ => .ite (fun _ => .pure _) fun _ =>
      (fetchTimers_does _).bind fun _ => (readTimers_does _).bind fun _ => .ite
      (fun _ => .fetch _) fun _ => .pure _).congr fun s => ?_
    unfold checkAt
    simp [Option.bind_assoc]
  | cons c script ih =>
    intro now
    unfold checkLoop
    refine ((readTimers_does _).bind fun _ => .ite (fun _ => .pure _) fun _ =>
      (fetchTimers_does _).bind fun x => (readTimers_does _).bind fun _ => .ite
      (fun _ => (rtTimerFire_does c x).bind fun now => ih now) fun _ => .pure _).congr
      fun s => ?_
    rw [checkAt]
    simp [Option.bind_assoc]

section
omit [DecidableEq τ] [DecidableEq σ] [DecidableEq υ]

theorem head?_queue (k : RtKernel τ σ υ) : k.queue.head? = firstTimer k.timers := by
  unfold RtKernel.queue firstTimer
  cases hn : k.timers.timerList.next timerHead with
  | none => cases Fintype.card (τ ⊕ υ) <;> simp [Links.read, hn]
  | some n =>
    cases n with
    | head h => cases Fintype.card (τ ⊕ υ) <;> simp [Links.read, hn, rtTimerEntry]
    | item x =>
      obtain ⟨n, hcard⟩ :=
        Nat.exists_eq_add_one_of_ne_zero (Fintype.card_pos_iff.mpr ⟨x⟩).ne'
      rw [hcard]
      simp [Links.read, hn, rtTimerEntry]

end

theorem checkObjects_fire {s : WithObjects τ σ υ} {x : τ ⊕ υ} (c : List (Call τ σ υ))
    (script : List (List (Call τ σ υ))) (hx : firstTimer s.kernel.timers = some x)
    (hdue : (s.kernel.timers.timer x).due s.kernel.timers.rtTick) :
    checkObjects (c :: script) s.kernel s.objects = (do
      let l ← fireObjects c x s
      let k ← SampleRtos.rtTimerFire kernelCallback c x s.kernel
      checkObjects script k l) := by
  rw [checkObjects, head?_queue, hx]
  simp [hdue, fireObjects, Option.bind_assoc]

/-- The loop from the tick it starts in is `rt_timer_check`. -/
theorem checkAt_eq (script : List (List (Call τ σ υ))) : ∀ s : WithObjects τ σ υ,
    checkAt script s.kernel.timers.rtTick s = (do
      let k ← SampleRtos.rtTimerCheck kernelCallback script s.kernel
      let l ← checkObjects script s.kernel s.objects
      return ((), { kernel := k, objects := l })) := by
  have hentry (s : WithObjects τ σ υ) : (s.kernel.timers.timerList.next timerHead).bind
      rtTimerEntry = firstTimer s.kernel.timers := rfl
  -- the two loops take the same branches: nothing the objects hold is read
  induction script with
  | nil =>
    intro s
    rw [checkAt, SampleRtos.rtTimerCheck, checkObjects]
    split_ifs
    · rfl
    · simp only [Option.bind_eq_bind, ← Option.bind_assoc, hentry]
      cases firstTimer s.kernel.timers with
      | none => rfl
      | some x => simp only [Option.bind_some]; split_ifs <;> rfl
  | cons c script ih =>
    intro s
    rw [checkAt, SampleRtos.rtTimerCheck]
    split_ifs with hempty
    · have hnone : firstTimer s.kernel.timers = none := by
        unfold firstTimer
        rw [of_decide_eq_true hempty]
        rfl
      rw [checkObjects, head?_queue, hnone]
      rfl
    · simp only [Option.bind_eq_bind, ← Option.bind_assoc, hentry]
      cases hx : firstTimer s.kernel.timers with
      | none => rfl
      | some x =>
        by_cases hdue : (s.kernel.timers.timer x).due s.kernel.timers.rtTick
        · rw [checkObjects_fire c script hx hdue]
          simp only [Option.bind_some, hdue, if_true]
          cases hk : SampleRtos.rtTimerFire kernelCallback c x s.kernel with
          | none => rfl
          | some k =>
            cases hl : fireObjects c x s with
            | none => simp
            | some l => exact ih { kernel := k, objects := l }
        · rw [checkObjects, head?_queue, hx]
          simp [hdue]

theorem rtTimerCheck_does (m : Bool) (script : List (List (Call τ σ υ))) :
    Does m m (rtTimerCheck script) fun s => do
      let k ← SampleRtos.rtTimerCheck kernelCallback script s.kernel
      let l ← checkObjects script s.kernel s.objects
      return ((), { kernel := k, objects := l }) := by
  refine ((readTimers_does _).bind fun now => .disable <| (checkLoop_does script now).bind
    fun _ => .enable m).congr fun s => ?_
  simp [checkAt_eq, Option.bind_assoc]

/-! ## Every function -/

namespace Fn

/-- `RT_EOK` after what returns nothing else. -/
@[simp] def ok (f : WithObjects τ σ υ → Option (Unit × WithObjects τ σ υ))
    (x : WithObjects τ σ υ) : Option (Int × WithObjects τ σ υ) := do
  let (_, x) ← f x
  return (RT_EOK, x)

/-- The function in one step, as the rest of the development has it. -/
def atOnce : Fn τ σ υ → WithObjects τ σ υ → Option (Int × WithObjects τ σ υ)
  | .threadStartup t => ok <| onKernel (·.onSched fun e => SampleRtos.rtThreadStartup e t)
  | .threadResume t => onSchedRet fun e => SampleRtos.rtThreadResume e t
  | .threadSuspend t => onKernelRet fun k => SampleRtos.rtThreadSuspend k t
  | .threadSleep tick => ok <| onKernel fun k => SampleRtos.rtThreadSleep k tick
  | .threadYield => ok <| onKernel (·.onSched SampleRtos.rtThreadYield)
  | .threadDelete t => ok <| onKernel fun k => SampleRtos.rtThreadDelete k t
  | .threadDetach t => ok fun x => do
      let k ← SampleRtos.rtThreadDetach x.kernel t
      let l ← (Call.threadDetach t).objects x.kernel x.objects
      return ((), { kernel := k, objects := l })
  | .timerStart x => ok <| onKernel (·.onTimers fun k => SampleRtos.rtTimerStart k x)
  | .timerStop x => onTimersRet fun k => SampleRtos.rtTimerStop k x
  | .timerCheck script => ok fun x => do
      let k ← SampleRtos.rtTimerCheck kernelCallback script x.kernel
      let l ← checkObjects script x.kernel x.objects
      return ((), { kernel := k, objects := l })
  | .timerDetach x => ok <| onKernel (·.onTimers fun k => SampleRtos.rtTimerDetach k x)
  | .semTake s time => onKernelRet fun k => do
      let (o, k) ← SampleRtos.rtSemTake k s time
      return (TakeOutcome.code k o, k)
  | .semRelease s => ok <| onKernel (·.onSched fun e => SampleRtos.rtSemRelease e s)
  | .semControl s cmd arg => onSchedRet fun e => SampleRtos.rtSemControl e s cmd arg
  | .semDetach s turns => ok fun x => do
      let k ← x.kernel.onSched (SampleRtos.rtIpcListResumeAll s turns)
      let l ← rtListRemove x.objects (.item (.sem s))
      return ((), { kernel := k, objects := l })
  | .enterCritical => ok <| onKernel fun k => some { k with env := k.env.rtEnterCritical }
  | .exitCritical => ok <| onKernel (·.onSched SampleRtos.rtExitCritical)
  | .schedule => ok <| onKernel (·.onSched SampleRtos.rtSchedule)
  | .scheduleInsertThread t =>
      ok <| onKernel (·.onSched fun e => SampleRtos.rtScheduleInsertThread e t)
  | .scheduleRemoveThread t =>
      ok <| onKernel (·.onSched fun e => SampleRtos.rtScheduleRemoveThread e t)
  | .objectInit object type => ok fun x => do
      let l ← objectInsert x.objects type object
      return ((), { setStatic x object with objects := l })
  | .objectDetach object => ok fun x => do
      let l ← objectRemove x.objects object
      return ((), { x with objects := l })

section
omit [DecidableEq τ] [DecidableEq σ] [DecidableEq υ] [Fintype τ] [Fintype υ]

theorem ok_does {m : Bool} {p : KernelCode τ σ υ Unit}
    {f : WithObjects τ σ υ → Option (Unit × WithObjects τ σ υ)} (h : Does m m p f) :
    Does m m (do p; return RT_EOK) (ok f) :=
  h.bind fun _ => .pure _

end

theorem code_does (m : Bool) (f : Fn τ σ υ) : Does m m f.code f.atOnce := by
  cases f with
  | threadStartup t => exact ok_does (rtThreadStartup_does m t)
  | threadResume t => exact rtThreadResume_does m t
  | threadSuspend t => exact rtThreadSuspend_does m t
  | threadSleep tick => exact ok_does (rtThreadSleep_does m tick)
  | threadYield => exact ok_does (rtThreadYield_does m)
  | threadDelete t => exact ok_does (rtThreadDelete_does m t)
  | threadDetach t => exact ok_does (rtThreadDetach_does m t)
  | timerStart x => exact ok_does (rtTimerStart_does m x)
  | timerStop x => exact rtTimerStop_does m x
  | timerCheck script => exact ok_does (rtTimerCheck_does m script)
  | timerDetach x => exact ok_does (rtTimerDetach_does m x)
  | semTake s time => exact rtSemTake_does m s time
  | semRelease s => exact ok_does (rtSemRelease_does m s)
  | semControl s cmd arg => exact rtSemControl_does m s cmd arg
  | semDetach s turns => exact ok_does (rtSemDetach_does m s turns)
  | enterCritical => exact ok_does (rtEnterCritical_does m)
  | exitCritical => exact ok_does (rtExitCritical_does m)
  | schedule => exact ok_does (rtSchedule_does m)
  | scheduleInsertThread t => exact ok_does (rtScheduleInsertThread_does m t)
  | scheduleRemoveThread t => exact ok_does (rtScheduleRemoveThread_does m t)
  | objectInit object type => exact ok_does (rtObjectInit_does m object type)
  | objectDetach object => exact ok_does (rtObjectDetach_does m object)

/-- Undisturbed, the masked function returns what the function in one step does and leaves
the same kernel and object lists. -/
theorem code_undisturbed (f : Fn τ σ υ) {c : Cpu (WithObjects τ σ υ) SharedPart}
    (hirq : c.interrupts = []) :
    (f.code c).map (fun r => (r.1, r.2.mem)) = f.atOnce c.mem :=
  (f.code_does c.primask).undisturbed rfl hirq

end Fn

/-- **The mask is restored.** From any memory, with `PRIMASK` either way and whatever
interrupts come in where it is open, a function returns with `PRIMASK` as it was, and all
its writes to lists and bitmap were masked. -/
theorem mask_restored (f : Fn τ σ υ) {c c' : Cpu (WithObjects τ σ υ) SharedPart} {e : Int}
    (hrun : f.code c = some (e, c')) :
    c'.primask = c.primask ∧ ∃ ws, c'.writes = c.writes ++ ws ∧ ∀ w ∈ ws, w.primask = true :=
  (f.code_does c.primask).mask rfl hrun

end Callbacks

/-- `rt_thread_suspend` on the idle thread, with `PRIMASK` 0 and an interrupt that comes
first. -/
theorem suspend_restored :
    ∃ x ∈ (bootObjects 0 : Option (WithObjects (Fin 1) (Fin 1) (Fin 0))), ∃ r,
      (Fn.threadSuspend 0).code
        { primask := false, mem := x, interrupts := [some], writes := [] } = some r ∧
      r.2.primask = false ∧ ∃ ws, r.2.writes = [] ++ ws ∧ ∀ w ∈ ws, w.primask = true := by
  have hruns : ∃ x ∈ (bootObjects 0 : Option (WithObjects (Fin 1) (Fin 1) (Fin 0))),
      ((Fn.threadSuspend 0).code ⟨false, x, [some], []⟩).isSome = true := by decide +kernel
  obtain ⟨x, hx, hsome⟩ := hruns
  obtain ⟨r, hr⟩ := Option.isSome_iff_exists.mp hsome
  exact ⟨x, hx, r, hr, mask_restored (Fn.threadSuspend 0) hr⟩

end Code

end Masked

end SampleRtos
