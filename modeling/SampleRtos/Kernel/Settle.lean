import SampleRtos.Kernel.Preempt

/-!
# How operations leave the current thread

An operation that does not take the lock leaves the current thread and the lock as they
were, gives back one level of it, or has its last `rt_schedule` settle who runs. One
inversion lemma says which, for calls, the slice, timeouts and blocking alike.
-/

namespace SampleRtos

open Intrusive

section Settle
variable {τ σ υ : Type} [DecidableEq τ] [DecidableEq σ] [DecidableEq υ]

/-- What an operation does to the current thread and the lock. -/
inductive Settles (e e' : SchedSys τ σ (ThreadRings τ σ)) : Prop where
  | kept (hcur : e'.rtCurrentThread = e.rtCurrentThread)
      (hlock : e'.rtSchedulerLockNest = e.rtSchedulerLockNest)
  | nested (hcur : e'.rtCurrentThread = e.rtCurrentThread)
      (hlock : e'.rtSchedulerLockNest = e.rtSchedulerLockNest - 1)
      (hpos : 0 < e'.rtSchedulerLockNest)
  | opened (hcur : e.rtCurrentThread = none) (hcur' : e'.rtCurrentThread = none)
      (hlock : e'.rtSchedulerLockNest = 0)
  | scheduled (f : SchedSys τ σ (ThreadRings τ σ)) (hw : SchedWf f)
      (hcur : f.rtCurrentThread = e.rtCurrentThread)
      (hlock : f.rtSchedulerLockNest = e.rtSchedulerLockNest ∨ f.rtSchedulerLockNest = 0)
      (hrun : Abs.schedule f = some e')

namespace Settles
variable {e e' : SchedSys τ σ (ThreadRings τ σ)} {t : τ} {s : σ}

section
omit [DecidableEq σ]

theorem refl (e : SchedSys τ σ (ThreadRings τ σ)) : Settles e e := .kept rfl rfl

theorem schedule (hw : SchedWf e) (h : Abs.schedule e = some e') : Settles e e' :=
  .scheduled e hw rfl (.inl rfl) h

end

/-- A thread becomes ready, and `rt_schedule` follows. -/
theorem woken {r : RtThread} (h : Abs.schedule (e.relistReady t r) = some e')
    (hw : SchedWf (e.relistReady t r)) : Settles e e' :=
  .scheduled _ hw rfl (.inl rfl) h

theorem yield (hw : SchedWf e) (h : Abs.yield e = some e') : Settles e e' := by
  obtain ⟨t, -, ⟨rfl, -⟩ | ⟨hst, hsched⟩⟩ := yield_spec hw h
  · exact refl _
  · exact woken hsched (hw.wake (.inl hst) hst rfl rfl rfl)

theorem tickSlice (hw : SchedWf e) (h : Abs.tickSlice e = some e') : Settles e e' := by
  obtain ⟨t, -, ⟨-, rfl⟩ | ⟨-, ⟨rfl, -⟩ | ⟨hst, hsched⟩⟩⟩ := tickSlice_spec hw h
  · exact .kept rfl rfl
  · exact .kept rfl rfl
  · exact woken hsched (hw.wake (.inl hst) hst rfl rfl rfl)

theorem timeout (hw : SchedWf e) (hact : (e.thread t).Active) (h : Abs.timeout e t = some e') :
    Settles e e' :=
  woken (timeout_spec h).2 (hw.wake hact rfl rfl rfl rfl)

theorem resume {r : Int} (h : Abs.resume e t = some (r, e')) : Settles e e' := by
  rcases resume_spec h with ⟨-, -, rfl⟩ | ⟨-, -, -, rfl⟩ <;> exact .kept rfl rfl

theorem startup (hw : SchedWf e) (h : Abs.startup e t = some e') : Settles e e' := by
  obtain ⟨hlive, ⟨-, rfl⟩ | ⟨-, hsched⟩⟩ := startup_spec h
  · exact .kept rfl rfl
  · exact woken hsched (hw.relistReady hlive rfl (hw.init_prio t) rfl rfl)

theorem semRelease (hw : SchedWf e) (h : Abs.semRelease e s = some e') : Settles e e' := by
  rcases semRelease_spec hw h with ⟨-, rfl⟩ | ⟨t, -, -, hst, hsched⟩
  · exact .kept rfl rfl
  · exact woken hsched (hw.wake (.inr hst) rfl rfl rfl rfl)

theorem semControl [Fintype τ] (hw : SchedWf e) {cmd r : Int} {arg : BitVec 32}
    (h : Abs.semControl e s cmd arg = some (r, e')) : Settles e e' := by
  rcases semControl_spec hw h with ⟨-, -, rfl⟩ | ⟨-, -, hsched⟩
  · exact refl _
  · have hw₁ : SchedWf ((e.failAll (e.waiters s)).setSem s
        { (e.failAll (e.waiters s)).sem s with value := arg.setWidth 16 }) :=
      (hw.failAll rfl).1.congr rfl rfl rfl
    exact .scheduled _ hw₁ (failAll_current _ e) (.inl (failAll_lockNest _ e)) hsched

theorem semDetach [Fintype τ] (hw : SchedWf e) (h : Abs.semDetach e s = some e') :
    Settles e e' := by
  rw [semDetach_spec hw h]
  exact .kept (failAll_current _ e) (failAll_lockNest _ e)

section
omit [DecidableEq σ]

theorem exitCritical (hw : SchedWf e) (h : Abs.exitCritical e = some e') : Settles e e' := by
  unfold Abs.exitCritical at h
  dsimp only at h
  split at h
  · split at h
    · have hw₁ : SchedWf { e with rtSchedulerLockNest := 0 } := hw.congr rfl rfl rfl
      exact .scheduled _ hw₁ rfl (.inr rfl) h
    · rename_i hcur
      cases h
      have hnone : e.rtCurrentThread = none := by simpa using hcur
      exact .opened hnone hnone rfl
  · rename_i hpos
    cases h
    exact .nested rfl rfl (lt_of_not_ge hpos)

end

/-! ## Calls and blocking -/

variable {a a' : SeqKernel τ σ υ}

theorem call [Fintype τ] (hw : KernelWf a) {c : Call τ σ υ} (hc : c ≠ .enterCritical)
    (hrun : Abs.execCall a c = some a') : Settles a.env a'.env := by
  unfold Abs.execCall at hrun
  cases c with
  | threadInit t priority tick => cases hrun; exact .kept rfl rfl
  | threadStartup t => exact startup hw.sched (onSched_spec hrun).1
  | threadResume t =>
    obtain ⟨_, hr⟩ := returned_of_map (onSched_spec hrun).1
    exact resume hr
  | threadSuspend t =>
    obtain ⟨_, hr⟩ := returned_of_map hrun
    obtain ⟨hcur, hlock⟩ := threadSuspend_frame hw.sched hr
    exact .kept hcur hlock
  | threadYield => exact yield hw.sched (onSched_spec hrun).1
  | threadDetach t =>
    obtain ⟨-, -, ⟨-, henv⟩ | ⟨-, henv⟩⟩ := threadDetach_spec hw.sched hrun <;> rw [henv] <;>
      exact .kept rfl rfl
  | semInit s value flag => cases hrun; exact .kept rfl rfl
  | semTrytake s =>
    obtain ⟨_, hr⟩ := returned_of_map hrun
    rcases semTake_spec hr with ⟨-, -, rfl⟩ | ⟨-, -, -, rfl⟩ | ⟨hb, -⟩
    · exact .kept rfl rfl
    · exact refl _
    · exact absurd rfl hb.2
  | semRelease s => exact semRelease hw.sched (onSched_spec hrun).1
  | semControl s cmd arg =>
    obtain ⟨_, hr⟩ := returned_of_map (onSched_spec hrun).1
    exact semControl hw.sched hr
  | semDetach s => exact semDetach hw.sched (onSched_spec hrun).1
  | enterCritical => exact absurd rfl hc
  | exitCritical => exact exitCritical hw.sched (onSched_spec hrun).1
  | schedule => exact schedule hw.sched (onSched_spec hrun).1
  | timerInit u time flag => cases hrun; exact refl _
  | timerStart u => rw [(onTimers_spec hrun).2]; exact refl _
  | timerStop u => rw [(onTimers_spec hrun).2]; exact refl _
  | timerControl u cmd => cases hrun; exact refl _
  | timerDetach u => rw [(onTimers_spec hrun).2]; exact refl _

section
omit [DecidableEq σ]

theorem scheduledLast (h : SchedulesLast e e') : Settles e e' := by
  obtain ⟨f, hw, hcur, hlock, hsched⟩ := h
  exact .scheduled f hw hcur (.inl hlock) hsched

theorem threadSleep (hw : SchedWf a.env) {tick : Tick} (hw' : SchedWf a'.env)
    (hrun : Abs.threadSleep a tick = some a') : Settles a.env a'.env :=
  scheduledLast (threadSleep_schedules hw hw' hrun)

end

theorem semTake (hw : KernelWf a) {time : BitVec 32} {o : TakeOutcome τ} (hw' : SchedWf a'.env)
    (hrun : Abs.semTake a s time = some (o, a')) : Settles a.env a'.env := by
  rcases semTake_spec hrun with ⟨-, -, rfl⟩ | ⟨-, -, -, rfl⟩ | ⟨-, t, -, -, hwait⟩
  · exact .kept rfl rfl
  · exact refl _
  · exact scheduledLast (takeWait_schedules hw hw' hwait)

end Settles

end Settle

end SampleRtos
