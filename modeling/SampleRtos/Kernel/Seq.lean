import SampleRtos.Sched.Spec
import SampleRtos.Kernel.Defs
import SampleRtos.Timer.Spec

/-!
# The kernel on sequences

The operations of `Kernel.Defs` over sequences of threads and of timers instead
of links, and one inversion lemma for each of those that arm or disarm a timer.
-/

namespace SampleRtos

open Intrusive

abbrev SeqKernel (τ σ υ : Type) := Kernel τ σ υ (TimerRings (τ ⊕ υ)) (ThreadRings τ σ)

section Seq
variable {τ σ υ : Type} [DecidableEq τ] [DecidableEq σ] [DecidableEq υ]

namespace Abs

def threadInit (a : SeqKernel τ σ υ) (t : τ) (priority : Nat) (tick : BitVec 32) :
    SeqKernel τ σ υ :=
  let e := { a.env with list := a.env.list.mark (.item t) }
  let e := e.setThread t
    { static := true
      initTick := tick
      remainingTick := tick
      cleanup := (a.env.thread t).cleanup
      currentPriority := priority
      initPriority := priority
      numberMask := 0
      error := RT_EOK
      stat := .init }
  { timers := timerInit a.timers (threadTimer t) (some (.rtThreadTimeout t)) 0
      RT_TIMER_FLAG_ONE_SHOT
    env := e }

def threadSuspend (a : SeqKernel τ σ υ) (t : τ) : Option (Int × SeqKernel τ σ υ) := do
  if (a.env.thread t).stat ≠ .ready then return (-RT_ERROR, a)
  let a ← a.onSched fun e => removeThread (e.setStat t .suspend) t
  let (_, tm) ← timerStop a.timers (threadTimer t)
  return (RT_EOK, { a with timers := tm })

def threadTimerStart (a : SeqKernel τ σ υ) (t : τ) (tick : Tick) : Option (SeqKernel τ σ υ) :=
  a.onTimers fun tm =>
    timerStart (tm.rtTimerControl (threadTimer t) (.setTime tick)) (threadTimer t)

def threadSleep (a : SeqKernel τ σ υ) (tick : Tick) : Option (SeqKernel τ σ υ) := do
  let t ← a.env.rtCurrentThread
  let (_, a) ← threadSuspend a t
  let a ← threadTimerStart a t tick
  a.onSched schedule

def threadDetach (a : SeqKernel τ σ υ) (t : τ) : Option (SeqKernel τ σ υ) := do
  let a ←
    (if (a.env.thread t).stat ≠ .init then a.onSched fun e => removeThread e t
      else some a)
  let a ← a.onTimers fun tm => timerRemove tm (threadTimer t)
  let a := { a with env := a.env.setStat t .close }
  if (a.env.thread t).static ∧ ¬ (a.env.thread t).cleanup then return a
  else
    let l ← pushFront a.env.list .defunct t
    return { a with env := { a.env with list := l } }

def ipcSuspend (a : SeqKernel τ σ υ) (s : σ) (t : τ) : Option (SeqKernel τ σ υ) := do
  let (_, a) ← threadSuspend a t
  a.onSched fun e => ipcInsert e s t

/-- The waiting branch of `semTake`: the current thread `t` joins the waiters of
`s`, with its timer running if there is a timeout. -/
def takeWait (a : SeqKernel τ σ υ) (s : σ) (t : τ) (time : BitVec 32) :
    Option (SeqKernel τ σ υ) := do
  let a := { a with env := a.env.setError t RT_EOK }
  let a ← ipcSuspend a s t
  let a ← (if 0 < time.toInt then threadTimerStart a t time else some a)
  a.onSched schedule

def semTake (a : SeqKernel τ σ υ) (s : σ) (time : BitVec 32) :
    Option (TakeOutcome τ × SeqKernel τ σ υ) := do
  if 0 < (a.env.sem s).value then
    let r := { a.env.sem s with value := (a.env.sem s).value - 1 }
    return (.returned RT_EOK, { a with env := a.env.setSem s r })
  else if time = 0 then return (.returned (-RT_ETIMEOUT), a)
  else
    let t ← a.env.rtCurrentThread
    let a ← takeWait a s t time
    return (.waiting t, a)

/-- `Call.Allowed` on sequences. -/
def CallAllowed (a : SeqKernel τ σ υ) : Call τ σ υ → Prop
  | .threadInit t priority _ =>
      ((a.env.thread t).stat = .init ∨ (a.env.thread t).stat = .close) ∧
        priority < RT_THREAD_PRIORITY_MAX
  | .semInit s _ _ => a.env.waiters s = []
  | .timerInit u _ _ => ∀ v ∈ a.timers.queue, v ≠ .inr u
  | _ => True

instance (a : SeqKernel τ σ υ) (c : Call τ σ υ) : Decidable (CallAllowed a c) := by
  rcases c <;> dsimp only [CallAllowed] <;> infer_instance

def execCall [Fintype τ] (a : SeqKernel τ σ υ) : Call τ σ υ → Option (SeqKernel τ σ υ)
  | .threadInit t priority tick => some (threadInit a t priority tick)
  | .threadStartup t => a.onSched fun e => startup e t
  | .threadResume t => a.onSched fun e => (resume e t).map Prod.snd
  | .threadSuspend t => (threadSuspend a t).map Prod.snd
  | .threadYield => a.onSched yield
  | .threadDetach t => threadDetach a t
  | .semInit s value flag => some { a with env := semInit a.env s value flag }
  | .semTrytake s => (semTake a s 0).map Prod.snd
  | .semRelease s => a.onSched fun e => semRelease e s
  | .semControl s cmd arg => a.onSched fun e => (semControl e s cmd arg).map Prod.snd
  | .semDetach s => a.onSched fun e => semDetach e s
  | .enterCritical => some { a with env := a.env.rtEnterCritical }
  | .exitCritical => a.onSched exitCritical
  | .schedule => a.onSched schedule
  | .timerInit u time flag =>
      some { a with timers := timerInit a.timers (.inr u) (some .user) time flag }
  | .timerStart u => a.onTimers fun tm => timerStart tm (.inr u)
  | .timerStop u => a.onTimers fun tm => (timerStop tm (.inr u)).map Prod.snd
  | .timerControl u cmd => some { a with timers := a.timers.rtTimerControl (.inr u) cmd }
  | .timerDetach u => a.onTimers fun tm => timerRemove tm (.inr u)

def runCalls [Fintype τ] : List (Call τ σ υ) → SeqKernel τ σ υ → Option (SeqKernel τ σ υ)
  | [], a => some a
  | c :: cs, a => do
      let a ← (if CallAllowed a c then execCall a c else none)
      runCalls cs a

def callback [Fintype τ] (_ : τ ⊕ υ) (f : TimerCallback τ) (script : List (Call τ σ υ))
    (a : SeqKernel τ σ υ) : Option (SeqKernel τ σ υ) :=
  match f with
  | .rtThreadTimeout t => a.onSched fun e => timeout e t
  | .user => runCalls script a

/-- The tick and the slice, before the timers. -/
def tickStart (a : SeqKernel τ σ υ) : Option (SeqKernel τ σ υ) :=
  { a with timers := { a.timers with rtTick := a.timers.rtTick + 1 } }.onSched tickSlice

def tick [Fintype τ] (script : List (List (Call τ σ υ))) (a : SeqKernel τ σ υ) :
    Option (SeqKernel τ σ υ) := do
  let a ← tickStart a
  timerCheck callback script a

def exec [Fintype τ] (a : SeqKernel τ σ υ) : Op τ σ υ → Option (SeqKernel τ σ υ)
  | .call c => execCall a c
  | .threadSleep tick => threadSleep a tick
  | .semTake s time => (semTake a s time).map Prod.snd
  | .tickIncrease script => tick script a
  | .schedulerStart => a.onSched schedStart

/-- `MayBlock` on sequences. -/
def MayBlock (a : SeqKernel τ σ υ) : Prop :=
  ∃ t ∈ a.env.rtCurrentThread,
    (a.env.thread t).stat = .ready ∨
      (a.env.thread t).stat = .suspend ∧ a.env.list.Free t

/-- `Op.Allowed` on sequences. -/
def Allowed (a : SeqKernel τ σ υ) : Op τ σ υ → Prop
  | .call c => CallAllowed a c
  | .threadSleep _ => MayBlock a
  | .semTake s time => TakeBlocks a s time → MayBlock a
  | .tickIncrease _ => True
  | .schedulerStart => a.env.rtCurrentThread = none

end Abs

/-! ## Running a part -/

variable {a a' : SeqKernel τ σ υ} {t : τ} {s : σ}

section
omit [DecidableEq τ] [DecidableEq σ] [DecidableEq υ]

theorem onSched_spec {f : SchedSys τ σ (ThreadRings τ σ) → Option (SchedSys τ σ (ThreadRings τ σ))}
    (h : a.onSched f = some a') : f a.env = some a'.env ∧ a'.timers = a.timers := by
  unfold Sys.onSched at h
  obtain ⟨e, he, hret⟩ := Option.bind_eq_some_iff.mp h
  cases hret
  exact ⟨he, rfl⟩

theorem onTimers_spec
    {f : TimerSys (τ ⊕ υ) (TimerCallback τ) (TimerRings (τ ⊕ υ)) →
      Option (TimerSys (τ ⊕ υ) (TimerCallback τ) (TimerRings (τ ⊕ υ)))}
    (h : a.onTimers f = some a') : f a.timers = some a'.timers ∧ a'.env = a.env := by
  unfold Sys.onTimers at h
  obtain ⟨m, hm, hret⟩ := Option.bind_eq_some_iff.mp h
  cases hret
  exact ⟨hm, rfl⟩

end

/-! ## Suspending -/

/-- The record of a suspended thread. -/
def RtThread.suspended (r : RtThread) : RtThread := { r with stat := .suspend }

/-- The record of a detached thread. -/
def RtThread.closed (r : RtThread) : RtThread := { r with stat := .close }

section
omit [DecidableEq σ]

theorem unlist_setThread (a : SchedSys τ σ (ThreadRings τ σ)) (t : τ) (r r' : RtThread) :
    (a.setThread t r).unlist t r' = a.unlist t r' := by
  simp [SchedSys.unlist, SchedSys.setThread, SchedSys.readyList]

theorem threadSuspend_spec (hw : SchedWf a.env) {e : Int}
    (h : Abs.threadSuspend a t = some (e, a')) :
    ((a.env.thread t).stat ≠ .ready ∧ e = -RT_ERROR ∧ a' = a) ∨
      ((a.env.thread t).stat = .ready ∧ e = RT_EOK ∧
        a'.env = a.env.unlist t (a.env.thread t).suspended ∧
        (¬ (a.timers.timer (threadTimer t)).activated ∧ a'.timers = a.timers ∨
          (a.timers.timer (threadTimer t)).activated ∧
            a.timers.timerList.live (.item (threadTimer t)) = true ∧
            a'.timers = a.timers.stopped (threadTimer t))) := by
  unfold Abs.threadSuspend at h
  split at h
  · rename_i hst
    cases h
    exact .inl ⟨hst, rfl, rfl⟩
  · rename_i hst
    obtain ⟨a₁, hrem, h⟩ := Option.bind_eq_some_iff.mp h
    obtain ⟨⟨e₂, m⟩, hstop, hret⟩ := Option.bind_eq_some_iff.mp h
    cases hret
    obtain ⟨henv, htimers⟩ := onSched_spec hrem
    obtain ⟨-, henv⟩ := removeThread_spec (a := a.env.setStat t .suspend) hw.head_live
      (by simpa [SchedSys.setStat] using hw.prio_lt t) henv
    refine .inr ⟨not_not.mp hst, rfl, ?_, ?_⟩
    · rw [henv, SchedSys.setStat, unlist_setThread]
      simp [RtThread.suspended]
    · rw [htimers] at hstop
      rcases Abs.timerStop_spec hstop with ⟨hact, rfl⟩ | ⟨hact, hlive, rfl⟩
      · exact .inl ⟨hact, rfl⟩
      · exact .inr ⟨hact, hlive, rfl⟩

theorem threadTimerStart_spec {tick : Tick} (h : Abs.threadTimerStart a t tick = some a') :
    a'.env = a.env ∧
      Abs.timerStart (a.timers.rtTimerControl (threadTimer t) (.setTime tick)) (threadTimer t) =
        some a'.timers :=
  (onTimers_spec h).symm

end

theorem threadDetach_spec (hw : SchedWf a.env) (h : Abs.threadDetach a t = some a') :
    a'.timers = { a.timers with timerList := a.timers.timerList.erase (threadTimer t) } ∧
      a.timers.timerList.live (.item (threadTimer t)) = true ∧
      ((a.env.thread t).stat = .init ∧
          a'.env = a.env.setThread t (a.env.thread t).closed ∨
        (a.env.thread t).stat ≠ .init ∧
          a'.env = a.env.unlist t (a.env.thread t).closed) := by
  unfold Abs.threadDetach at h
  obtain ⟨a₁, hrem, h⟩ := Option.bind_eq_some_iff.mp h
  obtain ⟨a₂, htm, h⟩ := Option.bind_eq_some_iff.mp h
  obtain ⟨htm, henv⟩ := onTimers_spec htm
  obtain ⟨hlive, hlist⟩ := Abs.timerRemove_eq_some htm
  have hret : a' = { a₂ with env := a₂.env.setStat t .close } := by
    dsimp only at h
    split at h
    · exact (Option.some.inj h).symm
    · -- the defunct list is never initialised
      have hdead : a₁.env.list.live (.head .defunct) = false := by
        split at hrem
        · obtain ⟨hrem, -⟩ := onSched_spec hrem
          obtain ⟨-, hrem⟩ := removeThread_spec hw.head_live (hw.prio_lt t) hrem
          rw [hrem]
          exact hw.defunct
        · cases hrem
          exact hw.defunct
      simp [pushFront, insertAt, SchedSys.setStat, SchedSys.setThread, henv, hdead] at h
  subst hret
  split at hrem
  · rename_i hst
    obtain ⟨hrem, htimers⟩ := onSched_spec hrem
    obtain ⟨-, hrem⟩ := removeThread_spec hw.head_live (hw.prio_lt t) hrem
    rw [htimers] at hlist hlive
    refine ⟨hlist, hlive, .inr ⟨hst, ?_⟩⟩
    simp [henv, hrem, SchedSys.setStat, SchedSys.setThread, SchedSys.unlist, RtThread.closed]
  · rename_i hst
    cases hrem
    refine ⟨hlist, hlive, .inl ⟨not_not.mp hst, ?_⟩⟩
    simp [henv, SchedSys.setStat, RtThread.closed]

/-! ## Taking a semaphore -/

theorem semTake_spec {time : BitVec 32} {o : TakeOutcome τ}
    (h : Abs.semTake a s time = some (o, a')) :
    (0 < (a.env.sem s).value ∧ o = .returned RT_EOK ∧
        a' = { a with env :=
          a.env.setSem s { a.env.sem s with value := (a.env.sem s).value - 1 } }) ∨
      ((a.env.sem s).value = 0 ∧ time = 0 ∧ o = .returned (-RT_ETIMEOUT) ∧ a' = a) ∨
      (TakeBlocks a s time ∧ ∃ t, a.env.rtCurrentThread = some t ∧ o = .waiting t ∧
        Abs.takeWait a s t time = some a') := by
  unfold Abs.semTake at h
  split at h
  · rename_i hpos
    cases h
    exact .inl ⟨hpos, rfl, rfl⟩
  · rename_i hpos
    have hzero : (a.env.sem s).value = 0 := by bv_omega
    split at h
    · rename_i htime
      cases h
      exact .inr (.inl ⟨hzero, htime, rfl, rfl⟩)
    · rename_i htime
      obtain ⟨t, hcur, h⟩ := Option.bind_eq_some_iff.mp h
      obtain ⟨a₁, hwait, hret⟩ := Option.bind_eq_some_iff.mp h
      cases hret
      exact .inr (.inr ⟨⟨hzero, htime⟩, t, hcur, rfl, hwait⟩)

/-- The steps of a wait. -/
theorem takeWait_spec {time : BitVec 32} (h : Abs.takeWait a s t time = some a') :
    ∃ e a₁ a₂ a₃,
      Abs.threadSuspend { a with env := a.env.setError t RT_EOK } t = some (e, a₁) ∧
        a₁.onSched (fun e => Abs.ipcInsert e s t) = some a₂ ∧
        (0 < time.toInt ∧ Abs.threadTimerStart a₂ t time = some a₃ ∨
          ¬ 0 < time.toInt ∧ a₃ = a₂) ∧
        a₃.onSched Abs.schedule = some a' := by
  unfold Abs.takeWait Abs.ipcSuspend at h
  obtain ⟨a₂, hsusp, h⟩ := Option.bind_eq_some_iff.mp h
  obtain ⟨⟨e, a₁⟩, hsusp, hins⟩ := Option.bind_eq_some_iff.mp hsusp
  obtain ⟨a₃, htimer, hsched⟩ := Option.bind_eq_some_iff.mp h
  refine ⟨e, a₁, a₂, a₃, hsusp, hins, ?_, hsched⟩
  split at htimer
  · rename_i htime
    exact .inl ⟨htime, htimer⟩
  · rename_i htime
    exact .inr ⟨htime, (Option.some.inj htimer).symm⟩

section
omit [DecidableEq σ]

theorem threadSleep_spec {tick : Tick} (h : Abs.threadSleep a tick = some a') :
    ∃ t e a₁ a₂, a.env.rtCurrentThread = some t ∧ Abs.threadSuspend a t = some (e, a₁) ∧
      Abs.threadTimerStart a₁ t tick = some a₂ ∧ a₂.onSched Abs.schedule = some a' := by
  unfold Abs.threadSleep at h
  obtain ⟨t, hcur, h⟩ := Option.bind_eq_some_iff.mp h
  obtain ⟨⟨e, a₁⟩, hsusp, h⟩ := Option.bind_eq_some_iff.mp h
  obtain ⟨a₂, htimer, hsched⟩ := Option.bind_eq_some_iff.mp h
  exact ⟨t, e, a₁, a₂, hcur, hsusp, htimer, hsched⟩

end

end Seq

end SampleRtos
