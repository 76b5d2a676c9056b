import SampleRtos.Lib.Section
import SampleRtos.Kernel.Mask

/-!
# Functions as masked sections

The functions with which threads block, yield, release and lock consist of one masked section
and of a last `rt_schedule`, masked as well, with the mask open in between. Access by access,
with whatever interrupts come in, each of them is these two steps and nothing finer; what
interrupts may see is the state between them.
-/

namespace SampleRtos

open Intrusive

/-- The functions of threads whose writes are in one masked section, or in none, before a last
`rt_schedule`. -/
inductive Service (σ : Type) where
  | threadSleep (tick : Tick)
  | threadYield
  | semTake (s : σ) (time : BitVec 32)
  | semRelease (s : σ)
  | semControl (s : σ) (cmd : Int) (arg : BitVec 32)
  | enterCritical
  | exitCritical
  | schedule
  deriving DecidableEq, Repr

/-- What such a function has before it when the mask is open again: nothing, `rt_schedule`,
the test and the `rt_schedule` of `rt_exit_critical`, or `rt_schedule` and the `error` of the
thread that waited. -/
inductive Rest (τ : Type) where
  | returned (e : Int)
  | schedules
  | exits
  | waits (t : τ)
  deriving DecidableEq, Repr

section Sections
variable {τ σ υ : Type} [DecidableEq τ] [DecidableEq σ] [DecidableEq υ]

/-! ## The sections -/

def sleepSection [Fintype τ] [Fintype υ] (k : RtKernel τ σ υ) (tick : Tick) :
    Option (Rest τ × RtKernel τ σ υ) := do
  let t ← k.env.rtCurrentThread
  let (_, k) ← rtThreadSuspend k t
  let k ← rtThreadTimerStart k t tick
  return (.schedules, k)

def yieldSection (k : RtKernel τ σ υ) : Option (Rest τ × RtKernel τ σ υ) := do
  let t ← k.env.rtCurrentThread
  if (k.env.thread t).stat = .ready ∧ k.env.list.next (.item t) ≠ k.env.list.prev (.item t) then
    let l ← rtListRemove k.env.list (.item t)
    let l ← rtListInsertBefore l (.head (.ready (k.env.thread t).currentPriority)) (.item t)
    return (.schedules, { k with env := { k.env with list := l } })
  else return (.returned RT_EOK, k)

def takeSection [Fintype τ] [Fintype υ] (k : RtKernel τ σ υ) (s : σ) (time : BitVec 32) :
    Option (Rest τ × RtKernel τ σ υ) := do
  if 0 < (k.env.sem s).value then
    let r := { k.env.sem s with value := (k.env.sem s).value - 1 }
    return (.returned RT_EOK, { k with env := k.env.setSem s r })
  else if time = 0 then return (.returned (-RT_ETIMEOUT), k)
  else
    let t ← k.env.rtCurrentThread
    let k := { k with env := k.env.setError t RT_EOK }
    let k ← rtIpcListSuspend k s t
    let k ← (if 0 < time.toInt then rtThreadTimerStart k t time else some k)
    return (.waits t, k)

def releaseSection (k : RtKernel τ σ υ) (s : σ) : Option (Rest τ × RtKernel τ σ υ) := do
  if ¬ rtListIsempty k.env.list (.head (.suspend s)) then
    let k ← k.onSched fun e => rtIpcListResume e s
    return (.schedules, k)
  else
    let r := { k.env.sem s with value := (k.env.sem s).value + 1 }
    return (.returned RT_EOK, { k with env := k.env.setSem s r })

/-- The section of a reset. -/
def resetSection [Fintype τ] (k : RtKernel τ σ υ) (s : σ) (arg : BitVec 32) :
    Option (Rest τ × RtKernel τ σ υ) := do
  let k ← k.onSched (rtIpcListResumeAll s (Fintype.card τ + 1))
  let r := { k.env.sem s with value := arg.setWidth 16 }
  return (.schedules, { k with env := k.env.setSem s r })

def exitSection (k : RtKernel τ σ υ) : Rest τ × RtKernel τ σ υ :=
  let e := { k.env with rtSchedulerLockNest := k.env.rtSchedulerLockNest - 1 }
  if e.rtSchedulerLockNest ≤ 0 then
    (.exits, { k with env := { e with rtSchedulerLockNest := 0 } })
  else (.returned RT_EOK, { k with env := e })

namespace Service

/-- The function up to the access that opens the mask. -/
def enter [Fintype τ] [Fintype υ] (k : RtKernel τ σ υ) :
    Service σ → Option (Rest τ × RtKernel τ σ υ)
  | .threadSleep tick => sleepSection k tick
  | .threadYield => yieldSection k
  | .semTake s time => takeSection k s time
  | .semRelease s => releaseSection k s
  | .semControl s cmd arg =>
      if cmd = RT_IPC_CMD_RESET then resetSection k s arg else some (.returned (-RT_ERROR), k)
  | .enterCritical => some (.returned RT_EOK, { k with env := k.env.rtEnterCritical })
  | .exitCritical => some (exitSection k)
  | .schedule => some (.schedules, k)

/-- The operation that runs the function to completion. -/
def op : Service σ → Op τ σ υ
  | .threadSleep tick => .threadSleep tick
  | .threadYield => .call .threadYield
  | .semTake s time => .semTake s time
  | .semRelease s => .call (.semRelease s)
  | .semControl s cmd arg => .call (.semControl s cmd arg)
  | .enterCritical => .call .enterCritical
  | .exitCritical => .call .exitCritical
  | .schedule => .call .schedule

end Service

/-- The rest of the function. -/
def Rest.finish (k : RtKernel τ σ υ) : Rest τ → Option (RtKernel τ σ υ)
  | .returned _ => some k
  | .exits => if k.env.rtCurrentThread.isSome then k.onSched rtSchedule else some k
  | _ => k.onSched rtSchedule

/-- A function that is not interrupted is its section and its rest. -/
theorem section_finish [Fintype τ] [Fintype υ] (k : RtKernel τ σ υ) (f : Service σ) :
    (f.enter k >>= fun r => r.1.finish r.2) = f.op.exec k := by
  cases f with
  | threadSleep tick =>
    simp [Service.enter, Service.op, Op.exec, sleepSection, rtThreadSleep, Rest.finish,
      Option.bind_assoc]
  | threadYield =>
    simp only [Service.enter, Service.op, Op.exec, Call.exec, yieldSection, Sys.onSched,
      rtThreadYield]
    cases k.env.rtCurrentThread with
    | none => rfl
    | some t =>
      dsimp only [Option.bind_eq_bind, Option.bind_some]
      split_ifs <;> simp [Rest.finish, Sys.onSched, Option.bind_assoc]
  | semTake s time =>
    simp only [Service.enter, Service.op, Op.exec, takeSection, rtSemTake]
    split_ifs <;> simp [Rest.finish, Option.bind_assoc, Option.map_bind]
  | semRelease s =>
    simp only [Service.enter, Service.op, Op.exec, Call.exec, releaseSection, Sys.onSched,
      rtSemRelease]
    split_ifs <;> simp [Rest.finish, Sys.onSched, Option.bind_assoc]
  | semControl s cmd arg =>
    simp only [Service.enter, Service.op, Op.exec, Call.exec, resetSection, Sys.onSched,
      rtSemControl]
    split_ifs <;> simp [Rest.finish, Sys.onSched, Option.bind_assoc, Option.map_bind]
  | enterCritical => rfl
  | exitCritical =>
    simp only [Service.enter, Service.op, Op.exec, Call.exec, exitSection, Sys.onSched,
      rtExitCritical]
    split_ifs <;> simp [Rest.finish, Sys.onSched, *]
  | schedule => rfl

end Sections

namespace Masked

open Mask

section Code
variable {τ σ υ α : Type}

/-! ## Code that keeps the mask set -/

theorem readEnv_deaf (f : SchedState τ σ → α) : Deaf (readEnv f : KernelCode τ σ υ α) := .read _

theorem fetchEnv_deaf (f : SchedState τ σ → Option α) :
    Deaf (fetchEnv f : KernelCode τ σ υ α) := .fetch _

theorem readTimers_deaf (f : TimerState τ υ → α) :
    Deaf (readTimers f : KernelCode τ σ υ α) := .read _

theorem fetchTimers_deaf (f : TimerState τ υ → Option α) :
    Deaf (fetchTimers f : KernelCode τ σ υ α) := .fetch _

theorem assignEnv_deaf {f : SchedState τ σ → SchedState τ σ}
    {h : ∀ e, ((f e).list, (f e).rtThreadReadyPriorityGroup) =
      (e.list, e.rtThreadReadyPriorityGroup)} :
    Deaf (assignEnv f h : KernelCode τ σ υ Unit) := .assign

variable [DecidableEq τ] [DecidableEq σ] [DecidableEq υ]

section
omit [DecidableEq σ] [DecidableEq υ]

theorem assignThread_deaf {t : τ} {f : RtThread → RtThread} :
    Deaf (assignThread t f : KernelCode τ σ υ Unit) := assignEnv_deaf

end

section
omit [DecidableEq τ] [DecidableEq υ]

theorem assignSem_deaf {s : σ} {f : RtSemaphore → RtSemaphore} :
    Deaf (assignSem s f : KernelCode τ σ υ Unit) := assignEnv_deaf

end

section
omit [DecidableEq σ]

theorem assignTimer_deaf {x : τ ⊕ υ} {f : RtTimer (TimerCallback τ) → RtTimer (TimerCallback τ)} :
    Deaf (assignTimer x f : KernelCode τ σ υ Unit) := .assign

end

section
omit [DecidableEq τ] [DecidableEq σ] [DecidableEq υ]

theorem editThreads_deaf {f : ThreadLinks τ σ → Option (ThreadLinks τ σ)} :
    Deaf (editThreads f : KernelCode τ σ υ Unit) := .edit

theorem editGroup_deaf {f : SchedState τ σ → SchedState τ σ} :
    Deaf (editGroup f : KernelCode τ σ υ Unit) := .edit

theorem editTimers_deaf {f : TimerLinks (τ ⊕ υ) → Option (TimerLinks (τ ⊕ υ))} :
    Deaf (editTimers f : KernelCode τ σ υ Unit) := .edit

end

section
omit [DecidableEq υ]

theorem rtScheduleInsertThread_deaf (t : τ) :
    Deaf (rtScheduleInsertThread t : KernelCode τ σ υ Unit) :=
  .disable <| assignThread_deaf.bind fun _ => (readEnv_deaf _).bind fun _ =>
    editThreads_deaf.bind fun _ => editGroup_deaf.bind fun _ => .enable

theorem rtScheduleRemoveThread_deaf (t : τ) :
    Deaf (rtScheduleRemoveThread t : KernelCode τ σ υ Unit) :=
  .disable <| editThreads_deaf.bind fun _ => (readEnv_deaf _).bind fun _ =>
    (Deaf.ite editGroup_deaf (.pure _)).bind fun _ => .enable

end

section
omit [DecidableEq σ]

theorem rtTimerStop_deaf (x : τ ⊕ υ) : Deaf (rtTimerStop x : KernelCode τ σ υ Int) :=
  (readTimers_deaf _).bind fun _ => .ite (.pure _) <| .disable <| editTimers_deaf.bind fun _ =>
    Deaf.enable.bind fun _ => assignTimer_deaf.bind fun _ => .pure _

theorem rtTimerStart_deaf [Fintype τ] [Fintype υ] (x : τ ⊕ υ) :
    Deaf (rtTimerStart x : KernelCode τ σ υ Unit) :=
  .disable <| editTimers_deaf.bind fun _ => assignTimer_deaf.bind fun _ =>
    Deaf.enable.bind fun _ => (readTimers_deaf _).bind fun _ => assignTimer_deaf.bind fun _ =>
    .disable <| (fetchTimers_deaf _).bind fun _ => Deaf.assign.bind fun _ =>
    editTimers_deaf.bind fun _ => assignTimer_deaf.bind fun _ => .enable

end

section
omit [DecidableEq υ]

theorem rtThreadResume_deaf (t : τ) : Deaf (rtThreadResume t : KernelCode τ σ υ Int) :=
  (readEnv_deaf _).bind fun _ => .ite (.pure _) <| .disable <| editThreads_deaf.bind fun _ =>
    Deaf.enable.bind fun _ => (rtScheduleInsertThread_deaf t).bind fun _ => .pure _

end

theorem rtThreadSuspend_deaf (t : τ) : Deaf (rtThreadSuspend t : KernelCode τ σ υ Int) :=
  (readEnv_deaf _).bind fun _ => .ite (.pure _) <| .disable <| assignThread_deaf.bind fun _ =>
    (rtScheduleRemoveThread_deaf t).bind fun _ => (rtTimerStop_deaf _).bind fun _ =>
    Deaf.enable.bind fun _ => .pure _

theorem rtIpcListSuspend_deaf [Fintype τ] (s : σ) (t : τ) :
    Deaf (rtIpcListSuspend s t : KernelCode τ σ υ Unit) :=
  (rtThreadSuspend_deaf t).bind fun _ => (readEnv_deaf _).bind fun _ =>
    .ite editThreads_deaf <| .ite ((fetchEnv_deaf _).bind fun _ => editThreads_deaf) (.pure _)

section
omit [DecidableEq υ]

theorem rtIpcListResume_deaf (s : σ) : Deaf (rtIpcListResume s : KernelCode τ σ υ Unit) :=
  (fetchEnv_deaf _).bind fun t => (rtThreadResume_deaf t).bind fun _ => .pure _

theorem rtIpcListResumeAll_deaf (s : σ) (n : Nat) :
    Deaf (rtIpcListResumeAll s n : KernelCode τ σ υ Unit) := by
  induction n with
  | zero => exact .fetch _
  | succ n ih =>
    exact (readEnv_deaf _).bind fun _ => .ite (.pure _) <| .disable <|
      (fetchEnv_deaf _).bind fun t => assignThread_deaf.bind fun _ =>
      (rtThreadResume_deaf t).bind fun _ => Deaf.enable.bind fun _ => ih

end

/-! ## Functions section by section -/

/-- A section on kernel and object lists. -/
def onSection {ρ : Type} (f : RtKernel τ σ υ → Option (ρ × RtKernel τ σ υ))
    (x : WithObjects τ σ υ) : Option (ρ × WithObjects τ σ υ) := do
  let (r, k) ← f x.kernel
  return (r, { x with kernel := k })

/-- `rt_schedule` in one step. -/
def scheduleOnce : KernelCode τ σ υ Unit :=
  atomically (onKernel (·.onSched SampleRtos.rtSchedule))

section
omit [DecidableEq σ] [DecidableEq υ]

theorem rtSchedule_sections : Sections (rtSchedule : KernelCode τ σ υ Unit) scheduleOnce := by
  have h : Sections (rtSchedule : KernelCode τ σ υ Unit) (scheduleOnce >>= Pure.pure) := by
    refine .disable ((Opens.bind (fetchEnv_deaf _) (fetchEnv_does _) fun _ =>
      .bind assignEnv_deaf assignEnv_does fun _ => .last).congr fun x => ?_)
    simp [Sys.onSched, SampleRtos.rtSchedule, Option.bind_assoc]
  rwa [bind_pure] at h

end

/-- The rest of a function, section by section. -/
def restSections : Rest τ → KernelCode τ σ υ Int
  | .returned e => return e
  | .schedules => do
      scheduleOnce
      return RT_EOK
  | .exits => do
      if (← readEnv (·.rtCurrentThread)).isSome then scheduleOnce else pure ()
      return RT_EOK
  | .waits t => do
      scheduleOnce
      takeReturn t

section
omit [DecidableEq σ] [DecidableEq υ]

/-- A function that is a section and its rest. -/
theorem sections_of {p : Bool → KernelCode τ σ υ Int}
    {f g : WithObjects τ σ υ → Option (Rest τ × WithObjects τ σ υ)}
    (h : Opens (p false) f restSections) (hf : ∀ x, f x = g x) :
    Sections (disable >>= p) (atomically g >>= restSections) :=
  .disable (h.congr hf)

theorem rest_opens (r : Rest τ) {p : KernelCode τ σ υ Int} (h : Sections p (restSections r)) :
    Opens (enable false >>= fun _ => p) (fun x => some (r, x)) restSections :=
  .enable r h

end

section
omit [DecidableEq τ] [DecidableEq σ] [DecidableEq υ]

theorem takeReturn_sections (t : τ) :
    Sections (takeReturn t : KernelCode τ σ υ Int) (takeReturn t) :=
  .bind (.read _) fun _ => .ite (.read _) (.pure _)

end

section
omit [DecidableEq σ] [DecidableEq υ]

/-- A function that ends in `rt_schedule` and `RT_EOK`. -/
theorem schedules_sections : Sections (do rtSchedule; return RT_EOK : KernelCode τ σ υ Int)
    (restSections .schedules) :=
  rtSchedule_sections.bind fun _ => .pure _

end

variable [Fintype τ] [Fintype υ]

/-- The function section by section. A section is one step on memory. -/
def serviceSections : Service σ → KernelCode τ σ υ Int
  | .schedule => restSections .schedules
  | .semControl s cmd arg =>
      if cmd = RT_IPC_CMD_RESET then do
        let r ← atomically (onSection fun k => resetSection k s arg)
        restSections r
      else return -RT_ERROR
  | f => do
      let r ← atomically (onSection f.enter)
      restSections r

theorem rtThreadSleep_sections (tick : Tick) :
    Sections (do rtThreadSleep tick; return RT_EOK : KernelCode τ σ υ Int)
      (serviceSections (.threadSleep tick)) := by
  unfold rtThreadSleep
  simp only [bind_assoc]
  refine sections_of (.bind (fetchEnv_deaf _) (fetchEnv_does _) fun t =>
    .bind (rtThreadSuspend_deaf t) (rtThreadSuspend_does true t) fun _ =>
    .bind assignTimer_deaf (rtTimerControl_does true _ _) fun _ =>
    .bind (rtTimerStart_deaf _) (rtTimerStart_does true _) fun _ =>
    rest_opens .schedules schedules_sections) fun x => ?_
  simp [onSection, Service.enter, sleepSection, rtThreadTimerStart, Sys.onTimers,
    Option.bind_assoc]

theorem rtThreadYield_sections :
    Sections (do rtThreadYield; return RT_EOK : KernelCode τ σ υ Int)
      (serviceSections .threadYield) := by
  unfold rtThreadYield
  simp only [bind_assoc, ite_bind]
  refine sections_of (.bind (fetchEnv_deaf _) (fetchEnv_does _) fun t =>
    .bind (readEnv_deaf _) (readEnv_does _) fun _ => .ite
      (fun _ => .bind editThreads_deaf editThreads_does fun _ =>
        .bind (readEnv_deaf _) (readEnv_does _) fun _ =>
        .bind editThreads_deaf editThreads_does fun _ => rest_opens .schedules schedules_sections)
      fun _ => rest_opens (.returned RT_EOK) (.pure _)) fun x => ?_
  simp only [onSection, Service.enter, yieldSection]
  cases hcur : x.kernel.env.rtCurrentThread with
  | none => rfl
  | some t => simp; split_ifs <;> simp [hcur, Option.bind_assoc]

theorem rtSemTake_sections (s : σ) (time : BitVec 32) :
    Sections (rtSemTake s time : KernelCode τ σ υ Int) (serviceSections (.semTake s time)) := by
  refine sections_of (.bind (readEnv_deaf _) (readEnv_does _) fun _ => .ite
    (fun _ => .bind assignSem_deaf assignSem_does fun _ => rest_opens (.returned RT_EOK) (.pure _))
    fun _ => .ite (fun _ => rest_opens (.returned (-RT_ETIMEOUT)) (.pure _)) fun _ =>
    .bind (fetchEnv_deaf _) (fetchEnv_does _) fun t => .bind assignThread_deaf assignThread_does
    fun _ => .bind (rtIpcListSuspend_deaf s t) (rtIpcListSuspend_does s t) fun _ =>
    .bind (.ite (assignTimer_deaf.bind fun _ => rtTimerStart_deaf _) (.pure _))
      (Does.ite (fun _ => (rtTimerControl_does true _ _).bind fun _ => rtTimerStart_does true _)
        fun _ => .pure _) fun _ =>
    rest_opens (.waits t) (rtSchedule_sections.bind fun _ => takeReturn_sections t)) fun x => ?_
  simp [onSection, Service.enter, takeSection, rtThreadTimerStart, Sys.onTimers, SchedSys.setError,
    Option.bind_assoc]
  split_ifs <;> simp [Option.bind_assoc]

theorem rtSemRelease_sections (s : σ) :
    Sections (do rtSemRelease s; return RT_EOK : KernelCode τ σ υ Int)
      (serviceSections (.semRelease s)) := by
  unfold rtSemRelease
  simp only [bind_assoc, ite_bind, pure_bind]
  refine sections_of (.bind (readEnv_deaf _) (readEnv_does _) fun _ => .ite
    (fun _ => .bind (rtIpcListResume_deaf s) (rtIpcListResume_does s) fun _ =>
      rest_opens .schedules ?_)
    fun _ => .bind assignSem_deaf assignSem_does fun _ => rest_opens (.returned RT_EOK) ?_)
    fun x => ?_
  · exact schedules_sections
  · exact .pure _
  · simp [onSection, Service.enter, releaseSection, Sys.onSched, Option.bind_assoc]
    split_ifs <;> simp [Option.bind_assoc]

theorem rtSemControl_sections (s : σ) (cmd : Int) (arg : BitVec 32) :
    Sections (rtSemControl s cmd arg : KernelCode τ σ υ Int)
      (serviceSections (.semControl s cmd arg)) := by
  refine .ite (sections_of (.bind (rtIpcListResumeAll_deaf s _)
    (rtIpcListResumeAll_does true s _) fun _ => .bind assignSem_deaf assignSem_does fun _ =>
    rest_opens .schedules schedules_sections) fun x => ?_) (.pure _)
  simp [onSection, resetSection, Sys.onSched, Option.bind_assoc]

theorem rtEnterCritical_sections :
    Sections (do rtEnterCritical; return RT_EOK : KernelCode τ σ υ Int)
      (serviceSections .enterCritical) := by
  unfold rtEnterCritical
  simp only [bind_assoc]
  refine sections_of (.bind assignEnv_deaf assignEnv_does fun _ =>
    rest_opens (.returned RT_EOK) (.pure _)) fun x => ?_
  simp [onSection, Service.enter]

theorem rtExitCritical_sections :
    Sections (do rtExitCritical; return RT_EOK : KernelCode τ σ υ Int)
      (serviceSections .exitCritical) := by
  unfold rtExitCritical
  simp only [bind_assoc, ite_bind, pure_bind]
  refine sections_of (.bind assignEnv_deaf assignEnv_does fun _ =>
    .bind (readEnv_deaf _) (readEnv_does _) fun _ => .ite
    (fun _ => .bind assignEnv_deaf assignEnv_does fun _ => rest_opens .exits ?_)
    fun _ => rest_opens (.returned RT_EOK) (.pure _)) fun x => ?_
  · unfold restSections
    exact .bind (.read _) fun _ => .ite (rtSchedule_sections.bind fun _ => .pure _) (.pure _)
  · simp [onSection, Service.enter, exitSection]
    split_ifs <;> simp

/-- The function with its masking. -/
def serviceFn : Service σ → Fn τ σ υ
  | .threadSleep tick => .threadSleep tick
  | .threadYield => .threadYield
  | .semTake s time => .semTake s time
  | .semRelease s => .semRelease s
  | .semControl s cmd arg => .semControl s cmd arg
  | .enterCritical => .enterCritical
  | .exitCritical => .exitCritical
  | .schedule => .schedule

/-- What is seen of a function that returned: its value, the mask, memory and the interrupts
that did not come in. -/
def outcome {ε : Type} (r : ε × Cpu (WithObjects τ σ υ) SharedPart) :=
  (r.1, r.2.primask, r.2.mem, r.2.interrupts)

/-- **Sections are atomic.** Called with interrupts enabled, each of these functions returns
the same and leaves the same memory as its sections run one after the other, with the same
interrupts coming in, whatever they do, before each section, and before the two reads that the
source makes with the mask open: of `rt_current_thread` in `rt_exit_critical` and of `error` in a
`rt_sem_take` that has waited. -/
theorem sections_atomic (f : Service σ) (x : WithObjects τ σ υ)
    (hs : List (WithObjects τ σ υ → Option (WithObjects τ σ υ))) :
    ((serviceFn f : Fn τ σ υ).code ⟨false, x, hs, []⟩).map outcome =
      (serviceSections f ⟨false, x, hs, []⟩).map outcome := by
  have h : Sections (serviceFn f : Fn τ σ υ).code (serviceSections f) := by
    cases f with
    | threadSleep tick => exact rtThreadSleep_sections tick
    | threadYield => exact rtThreadYield_sections
    | semTake s time => exact rtSemTake_sections s time
    | semRelease s => exact rtSemRelease_sections s
    | semControl s cmd arg => exact rtSemControl_sections s cmd arg
    | enterCritical => exact rtEnterCritical_sections
    | exitCritical => exact rtExitCritical_sections
    | schedule => exact schedules_sections
  have hopen : BothOpen (W := SharedPart) ⟨false, x, hs, []⟩ ⟨false, x, hs, []⟩ :=
    ⟨rfl, rfl, rfl, rfl⟩
  have hrel := h.rel hopen
  generalize (serviceFn f : Fn τ σ υ).code ⟨false, x, hs, []⟩ = p at hrel ⊢
  generalize serviceSections f ⟨false, x, hs, []⟩ = q at hrel ⊢
  cases hrel with
  | none => rfl
  | some hr =>
    obtain ⟨hvalue, hmem, hirq, hleft, hright⟩ := hr
    simp only [Option.map_some, outcome, hvalue, hmem, hirq, hleft, hright]

end Code

end Masked

end SampleRtos
