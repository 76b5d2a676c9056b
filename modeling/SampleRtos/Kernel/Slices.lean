import SampleRtos.Timer.Spec
import SampleRtos.Kernel.Refine

/-!
# Time slices

What becomes of `init_tick` and `remaining_tick` in a run. Only `rt_thread_init` and the
tick write them, and no list decides whether they do, so nothing here asks for rings: the
runs are of all operations in any order.
-/

namespace SampleRtos

open Intrusive

/-! ## Scheduling -/

section Sched
variable {τ σ L : Type} [DecidableEq τ] [DecidableEq σ]

/-- The `init_tick` and the `remaining_tick` of a thread. -/
def SchedSys.slice (e : SchedSys τ σ L) (t : τ) : BitVec 32 × BitVec 32 :=
  ((e.thread t).initTick, (e.thread t).remainingTick)

/-- The slice after a tick has been charged to it. -/
def spend (s : BitVec 32 × BitVec 32) : BitVec 32 × BitVec 32 :=
  (s.1, if s.2 - 1 = 0 then s.1 else s.2 - 1)

/-- No more remains than there was, and something does unless there was nothing. -/
def SliceOk (s : BitVec 32 × BitVec 32) : Prop := s.2 ≤ s.1 ∧ (s.1 ≠ 0 → s.2 ≠ 0)

theorem sliceOk_full (tick : BitVec 32) : SliceOk (tick, tick) :=
  ⟨BitVec.le_refl tick, fun h => h⟩

theorem SliceOk.spend {s : BitVec 32 × BitVec 32} (h : SliceOk s) (hne : s.1 ≠ 0) :
    SliceOk (spend s) := by
  obtain ⟨i, r⟩ := s
  obtain ⟨hle, hpos⟩ := h
  have hr : r ≠ 0 := hpos hne
  simp only at hle
  unfold SampleRtos.spend
  split
  · exact sliceOk_full i
  · rename_i hmore
    refine ⟨?_, fun _ => hmore⟩
    show r - 1 ≤ i
    bv_omega

/-- Charged with a tick, a slice of no length comes round. -/
theorem spend_zero {s : BitVec 32 × BitVec 32} (h : SliceOk s) (hzero : s.1 = 0) :
    (spend s).1 < (spend s).2 := by
  obtain ⟨i, r⟩ := s
  obtain ⟨hle, -⟩ := h
  simp only at hle hzero
  have hr : r = 0 := by bv_omega
  subst hzero hr
  decide

variable {e e' : SchedSys τ σ (ThreadLinks τ σ)} {t : τ} {s : σ}

section
omit [DecidableEq σ]

theorem slice_setThread (e : SchedSys τ σ L) (t : τ) (r : RtThread) :
    (e.setThread t r).slice = Function.update e.slice t (r.initTick, r.remainingTick) := by
  funext u
  by_cases hut : u = t
  · subst hut
    simp [SchedSys.slice, SchedSys.setThread]
  · simp [SchedSys.slice, SchedSys.setThread, hut]

/-- A record with the slice it had. -/
theorem slice_setThread_same (e : SchedSys τ σ L) {t : τ} {r : RtThread}
    (h : (r.initTick, r.remainingTick) = e.slice t) : (e.setThread t r).slice = e.slice := by
  rw [slice_setThread, h, Function.update_eq_self]

@[simp] theorem slice_setStat (e : SchedSys τ σ L) (t : τ) (st : ThreadStat) :
    (e.setStat t st).slice = e.slice :=
  slice_setThread_same e rfl

@[simp] theorem slice_setError (e : SchedSys τ σ L) (t : τ) (c : Int) :
    (e.setError t c).slice = e.slice :=
  slice_setThread_same e rfl

@[simp] theorem slice_switchTo (e : SchedSys τ σ L) (t : τ) : (e.switchTo t).slice = e.slice := by
  unfold SchedSys.switchTo
  split <;> rfl

end

theorem insertThread_slice (h : rtScheduleInsertThread e t = some e') : e'.slice = e.slice := by
  obtain ⟨l, -, hret⟩ := Option.bind_eq_some_iff.mp h
  cases hret
  exact slice_setStat e t .ready

theorem removeThread_slice (h : rtScheduleRemoveThread e t = some e') : e'.slice = e.slice := by
  obtain ⟨l, -, h⟩ := Option.bind_eq_some_iff.mp h
  dsimp only at h
  split at h <;> cases h <;> rfl

section
omit [DecidableEq σ]

theorem schedule_slice (h : rtSchedule e = some e') : e'.slice = e.slice := by
  obtain ⟨u, -, hret⟩ := Option.bind_eq_some_iff.mp h
  cases hret
  exact slice_switchTo e u

end

section
omit [DecidableEq τ] [DecidableEq σ]

theorem schedulerStart_slice (h : rtSystemSchedulerStart e = some e') : e'.slice = e.slice := by
  obtain ⟨u, -, hret⟩ := Option.bind_eq_some_iff.mp h
  cases hret
  rfl

end

section
omit [DecidableEq σ]

theorem exitCritical_slice (h : rtExitCritical e = some e') : e'.slice = e.slice := by
  unfold rtExitCritical at h
  dsimp only at h
  split at h
  · split at h
    · exact (schedule_slice h).trans rfl
    · cases h; rfl
  · cases h; rfl

end

theorem resume_slice {c : Int} (h : rtThreadResume e t = some (c, e')) : e'.slice = e.slice := by
  unfold rtThreadResume at h
  split at h
  · cases h; rfl
  · obtain ⟨l, -, h⟩ := Option.bind_eq_some_iff.mp h
    obtain ⟨e₁, hinsert, hret⟩ := Option.bind_eq_some_iff.mp h
    cases hret
    exact (insertThread_slice hinsert).trans rfl

theorem startup_slice (h : rtThreadStartup e t = some e') : e'.slice = e.slice := by
  obtain ⟨⟨c, e₁⟩, hresume, h⟩ := Option.bind_eq_some_iff.mp h
  have hset := (resume_slice hresume).trans (slice_setThread_same e rfl)
  dsimp only at h
  split at h
  · exact (schedule_slice h).trans hset
  · cases h; exact hset

theorem timeout_slice (h : rtThreadTimeout e t = some e') : e'.slice = e.slice := by
  obtain ⟨l, -, h⟩ := Option.bind_eq_some_iff.mp h
  obtain ⟨e₁, hinsert, h⟩ := Option.bind_eq_some_iff.mp h
  exact (schedule_slice h).trans ((insertThread_slice hinsert).trans (slice_setError e t _))

theorem yield_slice (h : rtThreadYield e = some e') : e'.slice = e.slice := by
  obtain ⟨u, -, h⟩ := Option.bind_eq_some_iff.mp h
  split at h
  · obtain ⟨l, -, h⟩ := Option.bind_eq_some_iff.mp h
    obtain ⟨l', -, h⟩ := Option.bind_eq_some_iff.mp h
    exact (schedule_slice h).trans rfl
  · cases h; rfl

/-- The tick charges the current thread. -/
theorem tickSlice_slice (h : rtTickSlice e = some e') : ∃ t, e.rtCurrentThread = some t ∧
    e'.slice = Function.update e.slice t (spend (e.slice t)) := by
  obtain ⟨t, hcurrent, h⟩ := Option.bind_eq_some_iff.mp h
  refine ⟨t, hcurrent, ?_⟩
  dsimp only at h
  split at h
  · -- used up: `rt_tick_increase` fills it again before it yields
    rename_i hzero
    have hfull : spend (e.slice t) = ((e.thread t).initTick, (e.thread t).initTick) := by
      rw [spend]
      exact congrArg (Prod.mk _) (if_pos hzero)
    rw [yield_slice h, slice_setThread, slice_setThread, Function.update_idem, hfull]
    simp only [SchedSys.setThread, Function.update_self]
  · rename_i hmore
    cases h
    have hless : spend (e.slice t) = ((e.thread t).initTick, (e.thread t).remainingTick - 1) := by
      rw [spend]
      exact congrArg (Prod.mk _) (if_neg hmore)
    rw [slice_setThread, hless]

theorem ipcInsert_slice [Fintype τ] (h : rtIpcListInsert e s t = some e') : e'.slice = e.slice := by
  unfold rtIpcListInsert at h
  split at h
  · obtain ⟨l, -, hret⟩ := Option.bind_eq_some_iff.mp h
    cases hret
    rfl
  · split at h
    · obtain ⟨n, -, h⟩ := Option.bind_eq_some_iff.mp h
      obtain ⟨n', -, h⟩ := Option.bind_eq_some_iff.mp h
      obtain ⟨l, -, hret⟩ := Option.bind_eq_some_iff.mp h
      cases hret
      rfl
    · cases h; rfl

theorem ipcResume_slice (h : rtIpcListResume e s = some e') : e'.slice = e.slice := by
  obtain ⟨n, -, h⟩ := Option.bind_eq_some_iff.mp h
  obtain ⟨u, -, h⟩ := Option.bind_eq_some_iff.mp h
  obtain ⟨⟨c, e₁⟩, hresume, hret⟩ := Option.bind_eq_some_iff.mp h
  cases hret
  exact resume_slice hresume

theorem ipcResumeAll_slice (s : σ) (fuel : Nat) : ∀ {e e' : SchedSys τ σ (ThreadLinks τ σ)},
    rtIpcListResumeAll s fuel e = some e' → e'.slice = e.slice := by
  induction fuel with
  | zero => intro e e' h; cases h
  | succ fuel ih =>
    intro e e' h
    unfold rtIpcListResumeAll at h
    split at h
    · cases h; rfl
    · obtain ⟨n, -, h⟩ := Option.bind_eq_some_iff.mp h
      obtain ⟨u, -, h⟩ := Option.bind_eq_some_iff.mp h
      obtain ⟨⟨c, e₁⟩, hresume, h⟩ := Option.bind_eq_some_iff.mp h
      exact (ih h).trans ((resume_slice hresume).trans (slice_setError e u _))

theorem semRelease_slice (h : rtSemRelease e s = some e') : e'.slice = e.slice := by
  unfold rtSemRelease at h
  split at h
  · obtain ⟨e₁, hresume, h⟩ := Option.bind_eq_some_iff.mp h
    exact (schedule_slice h).trans (ipcResume_slice hresume)
  · cases h; rfl

theorem semControl_slice [Fintype τ] {cmd c : Int} {arg : BitVec 32}
    (h : rtSemControl e s cmd arg = some (c, e')) : e'.slice = e.slice := by
  unfold rtSemControl at h
  split at h
  · obtain ⟨e₁, hall, h⟩ := Option.bind_eq_some_iff.mp h
    obtain ⟨e₂, hsched, hret⟩ := Option.bind_eq_some_iff.mp h
    cases hret
    have hset : (e₁.setSem s { e₁.sem s with value := arg.setWidth 16 }).slice = e₁.slice := rfl
    exact (schedule_slice hsched).trans (hset.trans (ipcResumeAll_slice s _ hall))
  · cases h; rfl

end Sched

/-! ## The kernel -/

section Kernel
variable {τ σ υ : Type} [DecidableEq τ] [DecidableEq σ] [DecidableEq υ] [Fintype τ] [Fintype υ]
  {k k' : RtKernel τ σ υ} {t : τ} {s : σ}

section
omit [DecidableEq τ] [DecidableEq σ] [DecidableEq υ] [Fintype τ] [Fintype υ]

theorem onSched_slice {f : SchedSys τ σ (ThreadLinks τ σ) → Option (SchedSys τ σ (ThreadLinks τ σ))}
    (hf : ∀ e e', f e = some e' → e'.slice = e.slice) (h : k.onSched f = some k') :
    k'.env.slice = k.env.slice := by
  obtain ⟨e, he, hret⟩ := Option.bind_eq_some_iff.mp h
  cases hret
  exact hf _ _ he

theorem onTimers_slice {f : TimerSys (τ ⊕ υ) (TimerCallback τ) (TimerLinks (τ ⊕ υ)) →
      Option (TimerSys (τ ⊕ υ) (TimerCallback τ) (TimerLinks (τ ⊕ υ)))}
    (h : k.onTimers f = some k') : k'.env.slice = k.env.slice := by
  obtain ⟨m, -, hret⟩ := Option.bind_eq_some_iff.mp h
  cases hret
  rfl

end

section
omit [Fintype τ] [Fintype υ]

theorem threadInit_slice (k : RtKernel τ σ υ) (t : τ) (priority : Nat) (tick : BitVec 32) :
    (rtThreadInit k t priority tick).env.slice = Function.update k.env.slice t (tick, tick) := by
  rw [rtThreadInit]
  exact slice_setThread _ t _

theorem threadSuspend_slice {c : Int} (h : rtThreadSuspend k t = some (c, k')) :
    k'.env.slice = k.env.slice := by
  unfold rtThreadSuspend at h
  split at h
  · cases h; rfl
  · obtain ⟨k₁, hremove, h⟩ := Option.bind_eq_some_iff.mp h
    obtain ⟨⟨c', m⟩, -, hret⟩ := Option.bind_eq_some_iff.mp h
    cases hret
    have hremoved : k₁.env.slice = k.env.slice :=
      onSched_slice (f := fun e => rtScheduleRemoveThread (e.setStat t .suspend) t)
        (fun e _ he => (removeThread_slice he).trans (slice_setStat e t _)) hremove
    exact hremoved

end

theorem threadSleep_slice {tick : Tick} (h : rtThreadSleep k tick = some k') :
    k'.env.slice = k.env.slice := by
  obtain ⟨u, -, h⟩ := Option.bind_eq_some_iff.mp h
  obtain ⟨⟨c, k₁⟩, hsuspend, h⟩ := Option.bind_eq_some_iff.mp h
  obtain ⟨k₂, hstart, h⟩ := Option.bind_eq_some_iff.mp h
  calc k'.env.slice = k₂.env.slice := onSched_slice (fun _ _ => schedule_slice) h
    _ = k₁.env.slice := onTimers_slice hstart
    _ = k.env.slice := threadSuspend_slice hsuspend

section
omit [Fintype τ] [Fintype υ]

theorem threadDetach_slice (h : rtThreadDetach k t = some k') : k'.env.slice = k.env.slice := by
  obtain ⟨k₁, hremove, h⟩ := Option.bind_eq_some_iff.mp h
  obtain ⟨k₂, hdetach, h⟩ := Option.bind_eq_some_iff.mp h
  have hremoved : k₁.env.slice = k.env.slice := by
    split at hremove
    · exact onSched_slice (fun _ _ => removeThread_slice) hremove
    · cases hremove; rfl
  have hclosed : (k₂.env.setStat t .close).slice = k.env.slice :=
    (slice_setStat _ t _).trans ((onTimers_slice hdetach).trans hremoved)
  dsimp only at h
  split at h
  · cases h; exact hclosed
  · obtain ⟨l, -, hret⟩ := Option.bind_eq_some_iff.mp h
    cases hret
    exact hclosed

end

theorem semTake_slice {time : BitVec 32} {o : TakeOutcome τ}
    (h : rtSemTake k s time = some (o, k')) : k'.env.slice = k.env.slice := by
  unfold rtSemTake at h
  split at h
  · cases h; rfl
  split at h
  · cases h; rfl
  · obtain ⟨u, -, h⟩ := Option.bind_eq_some_iff.mp h
    obtain ⟨k₁, hwait, h⟩ := Option.bind_eq_some_iff.mp h
    obtain ⟨k₂, hstart, h⟩ := Option.bind_eq_some_iff.mp h
    obtain ⟨k₃, hsched, hret⟩ := Option.bind_eq_some_iff.mp h
    cases hret
    obtain ⟨⟨c, k₄⟩, hsuspend, hinsert⟩ := Option.bind_eq_some_iff.mp hwait
    have hstarted : k₂.env.slice = k₁.env.slice := by
      split at hstart
      · exact onTimers_slice hstart
      · cases hstart; rfl
    calc k'.env.slice = k₂.env.slice := onSched_slice (fun _ _ => schedule_slice) hsched
      _ = k₁.env.slice := hstarted
      _ = k₄.env.slice := onSched_slice (fun _ _ => ipcInsert_slice) hinsert
      _ = (k.env.setError u RT_EOK).slice := threadSuspend_slice hsuspend
      _ = k.env.slice := slice_setError k.env u RT_EOK

/-- A call leaves every slice alone, or gives one thread a new one. -/
theorem call_slice {c : Call τ σ υ} (h : c.exec k = some k') :
    k'.env.slice = k.env.slice ∨
      ∃ t tick, k'.env.slice = Function.update k.env.slice t (tick, tick) := by
  cases c with
  | threadInit t priority tick => cases h; exact .inr ⟨t, tick, threadInit_slice k t priority tick⟩
  | threadStartup t => exact .inl (onSched_slice (fun _ _ => startup_slice) h)
  | threadResume t =>
    refine .inl (onSched_slice (f := fun e => (rtThreadResume e t).map Prod.snd) ?_ h)
    intro e e' he
    obtain ⟨_, hr⟩ := returned_of_map he
    exact resume_slice hr
  | threadSuspend t =>
    obtain ⟨_, hr⟩ := returned_of_map h
    exact .inl (threadSuspend_slice hr)
  | threadYield => exact .inl (onSched_slice (fun _ _ => yield_slice) h)
  | threadDetach t => exact .inl (threadDetach_slice h)
  | semInit s value flag => cases h; exact .inl rfl
  | semTrytake s =>
    obtain ⟨_, hr⟩ := returned_of_map h
    exact .inl (semTake_slice hr)
  | semRelease s => exact .inl (onSched_slice (fun _ _ => semRelease_slice) h)
  | semControl s cmd arg =>
    refine .inl (onSched_slice (f := fun e => (rtSemControl e s cmd arg).map Prod.snd) ?_ h)
    intro e e' he
    obtain ⟨_, hr⟩ := returned_of_map he
    exact semControl_slice hr
  | semDetach s => exact .inl (onSched_slice (fun _ _ => ipcResumeAll_slice s _) h)
  | enterCritical =>
    cases h
    left
    show SchedSys.slice (SchedSys.rtEnterCritical _) = _
    unfold SchedSys.rtEnterCritical
    split <;> rfl
  | exitCritical => exact .inl (onSched_slice (fun _ _ => exitCritical_slice) h)
  | schedule => exact .inl (onSched_slice (fun _ _ => schedule_slice) h)
  | timerInit u time flag => cases h; exact .inl rfl
  | timerStart u => exact .inl (onTimers_slice (f := fun m => rtTimerStart m (.inr u)) h)
  | timerStop u =>
    exact .inl (onTimers_slice (f := fun m => (rtTimerStop m (.inr u)).map Prod.snd) h)
  | timerControl u cmd => cases h; exact .inl rfl
  | timerDetach u => exact .inl (onTimers_slice (f := fun m => rtTimerDetach m (.inr u)) h)

/-! ## Runs -/

/-- Every slice is in order. -/
def SlicesOk (k : RtKernel τ σ υ) : Prop := ∀ t, SliceOk (k.env.slice t)

section
omit [DecidableEq τ] [DecidableEq σ] [DecidableEq υ] [Fintype τ] [Fintype υ]

theorem SlicesOk.same (h : SlicesOk k) (hsame : k'.env.slice = k.env.slice) : SlicesOk k' := by
  intro t
  rw [hsame]
  exact h t

end

section
omit [DecidableEq σ] [DecidableEq υ] [Fintype τ] [Fintype υ]

theorem SlicesOk.update (h : SlicesOk k) {a : BitVec 32 × BitVec 32} (ha : SliceOk a)
    (hupdate : k'.env.slice = Function.update k.env.slice t a) : SlicesOk k' := by
  intro u
  rw [hupdate]
  by_cases hut : u = t
  · subst hut
    rwa [Function.update_self]
  · rw [Function.update_of_ne hut]
    exact h u

end

theorem SlicesOk.call (h : SlicesOk k) {c : Call τ σ υ} (hrun : c.exec k = some k') :
    SlicesOk k' := by
  rcases call_slice hrun with hsame | ⟨t, tick, hnew⟩
  · exact h.same hsame
  · exact h.update (sliceOk_full tick) hnew

theorem SlicesOk.runCalls (cs : List (Call τ σ υ)) : ∀ {k k' : RtKernel τ σ υ}, SlicesOk k →
    SampleRtos.runCalls cs k = some k' → SlicesOk k' := by
  induction cs with
  | nil => intro k k' h hrun; cases hrun; exact h
  | cons c cs ih =>
    intro k k' h hrun
    obtain ⟨k₁, hc, hrest⟩ := Option.bind_eq_some_iff.mp hrun
    split at hc
    · exact ih (h.call hc) hrest
    · cases hc

theorem SlicesOk.fire (h : SlicesOk k) {x : τ ⊕ υ} {cs : List (Call τ σ υ)}
    (hrun : rtTimerFire kernelCallback cs x k = some k') : SlicesOk k' := by
  obtain ⟨m, -, hrun⟩ := Option.bind_eq_some_iff.mp hrun
  obtain ⟨f, -, hrun⟩ := Option.bind_eq_some_iff.mp hrun
  obtain ⟨k₁, hcall, hend⟩ := Option.bind_eq_some_iff.mp hrun
  have hremoved : SlicesOk { k with timers := m } := h
  have hcalled : SlicesOk k₁ := by
    cases f with
    | rtThreadTimeout t => exact hremoved.same (onSched_slice (fun _ _ => timeout_slice) hcall)
    | user => exact hremoved.runCalls cs hcall
  split at hend
  · obtain ⟨m', -, hret⟩ := Option.bind_eq_some_iff.mp hend
    cases hret
    exact hcalled
  · cases hend
    exact hcalled

theorem SlicesOk.check (script : List (List (Call τ σ υ))) : ∀ {k k' : RtKernel τ σ υ},
    SlicesOk k → rtTimerCheck kernelCallback script k = some k' → SlicesOk k' := by
  induction script with
  | nil =>
    intro k k' h hrun
    rcases rtTimerCheck_cases hrun with ⟨rfl, -⟩ | ⟨c, rest, x, k₁, hnil, -⟩
    · exact h
    · cases hnil
  | cons c script ih =>
    intro k k' h hrun
    rcases rtTimerCheck_cases hrun with ⟨rfl, -⟩ | ⟨c', rest, x, k₁, hcons, -, -, hfire, hrest⟩
    · exact h
    · cases hcons
      exact ih (h.fire hfire) hrest

/-- An operation that charges no thread with a slice of 0: a tick finds a current thread with
another one. -/
def Op.Slices (k : RtKernel τ σ υ) : Op τ σ υ → Prop
  | .tickIncrease _ => ∀ t ∈ k.env.rtCurrentThread, (k.env.thread t).initTick ≠ 0
  | _ => True

instance (k : RtKernel τ σ υ) (op : Op τ σ υ) : Decidable (op.Slices k) := by
  rcases op <;> dsimp only [Op.Slices] <;> infer_instance

/-- One operation keeps every slice in order. -/
theorem SlicesOk.exec (h : SlicesOk k) {op : Op τ σ υ} (hok : op.Slices k)
    (hrun : op.exec k = some k') : SlicesOk k' := by
  cases op with
  | call c => exact h.call hrun
  | threadSleep tick => exact h.same (threadSleep_slice hrun)
  | semTake s time =>
    obtain ⟨_, hr⟩ := returned_of_map hrun
    exact h.same (semTake_slice hr)
  | tickIncrease script =>
    obtain ⟨k₁, hslice, hcheck⟩ := Option.bind_eq_some_iff.mp hrun
    obtain ⟨e, he, hret⟩ := Option.bind_eq_some_iff.mp hslice
    cases hret
    -- the charge comes before the check, whose callbacks find every slice in order
    obtain ⟨t, hcurrent, hspent⟩ := tickSlice_slice he
    have hcharged : SliceOk (spend (k.env.slice t)) := (h t).spend (hok t hcurrent)
    have h₁ : SlicesOk { k with
        timers := { k.timers with rtTick := k.timers.rtTick + 1 }, env := e } :=
      h.update hcharged hspent
    exact h₁.check script hcheck
  | schedulerStart => exact h.same (onSched_slice (fun _ _ => schedulerStart_slice) hrun)

section
omit [Fintype τ] [Fintype υ]

theorem boot_slices {idle : τ} (h : boot idle = some k) : SlicesOk k := by
  have hzero : SlicesOk (systemInit : RtKernel τ σ υ) := fun _ => sliceOk_full 0
  have hidle : SlicesOk (rtThreadInit (systemInit : RtKernel τ σ υ) idle
      (RT_THREAD_PRIORITY_MAX - 1) 1) :=
    hzero.update (sliceOk_full 1) (threadInit_slice systemInit idle _ 1)
  exact hidle.same (onSched_slice (fun _ _ => startup_slice) h)

end

/-- The states reached from initialisation by whatever operations, as long as no tick is charged
to a slice of 0. -/
def SlicesReachable (idle : τ) (k : RtKernel τ σ υ) : Prop :=
  ∃ k₀ ∈ boot idle, Run.Reach Op.exec (fun k op => op.Slices k) k₀ k

theorem slices_reachable {idle : τ} (h : SlicesReachable idle k) : SlicesOk k := by
  obtain ⟨k₀, hboot, hrun⟩ := h
  exact Run.invariant (fun k op k' hk hok hexec => SlicesOk.exec hk hok hexec)
    (boot_slices hboot) hrun

/-- No thread has more left than its slice, and none whose slice is not 0 is left with nothing,
so that the next tick has something to take. That lasts through a tick just as long as the
current thread's slice is not 0. -/
theorem slice_bounds {idle : τ} (hreach : SlicesReachable idle k) :
    (∀ t, (k.env.thread t).remainingTick ≤ (k.env.thread t).initTick ∧
      ((k.env.thread t).initTick ≠ 0 → (k.env.thread t).remainingTick ≠ 0)) ∧
    ∀ e, rtTickSlice k.env = some e →
      ((∀ t, (e.thread t).remainingTick ≤ (e.thread t).initTick) ↔
        ∀ t ∈ k.env.rtCurrentThread, (k.env.thread t).initTick ≠ 0) := by
  have hslices : SlicesOk k := slices_reachable hreach
  refine ⟨hslices, fun e he => ?_⟩
  obtain ⟨t, hcurrent, hspent⟩ := tickSlice_slice he
  constructor
  · intro hwithin u hu hzero
    obtain rfl : t = u := Option.some.inj (hcurrent.symm.trans hu)
    have hover : (spend (k.env.slice t)).1 < (spend (k.env.slice t)).2 :=
      spend_zero (hslices t) hzero
    have hcharged : e.slice t = spend (k.env.slice t) := by rw [hspent, Function.update_self]
    rw [← hcharged] at hover
    exact absurd (hwithin t) (BitVec.not_le.mpr hover)
  · intro hsome u
    have hcharged : SlicesOk { k with env := e } :=
      hslices.update ((hslices t).spend (hsome t hcurrent)) hspent
    exact (hcharged u).1

/-- A run that keeps the discipline besides. -/
theorem Reachable.slices {idle : τ} (h : Reachable idle (fun k op => op.Slices k) k) :
    SlicesReachable idle k := by
  obtain ⟨k₀, hboot, hrun⟩ := h
  exact ⟨k₀, hboot, hrun.mono fun _ _ hok => hok.2⟩

/-- One of the two ticks of its slice is left to a thread after the first. -/
theorem one_tick_left : ∃ k : RtKernel (Fin 2) (Fin 1) Empty, k.env.slice 1 = (2, 1) ∧
    ∀ t, (k.env.thread t).remainingTick ≤ (k.env.thread t).initTick := by
  obtain ⟨k, -, hreach, hp⟩ := reachable_of_runFrom (0 : Fin 2) (fun k op => op.Slices k)
    [.call (.threadInit 1 5 2), .call (.threadStartup 1), .schedulerStart, .tickIncrease []]
    (fun k : RtKernel (Fin 2) (Fin 1) Empty => k.env.slice 1 == (2, 1)) (by decide +kernel)
  exact ⟨k, eq_of_beq hp, fun t => ((slice_bounds hreach.slices).1 t).1⟩

/-- A thread started with a slice of 0 has 2³² − 1 ticks left after its first. -/
theorem zero_slice_comes_round : ¬ ∀ k : RtKernel (Fin 2) (Fin 1) Empty,
    Reachable 0 (fun _ _ => True) k → ∀ t, (k.env.thread t).stat ≠ .init →
      (k.env.thread t).remainingTick ≤ (k.env.thread t).initTick := by
  obtain ⟨k, -, hreach, hp⟩ := reachable_of_runFrom (0 : Fin 2) (fun _ _ => True)
    [.call (.threadInit 1 5 0), .call (.threadStartup 1), .schedulerStart, .tickIncrease []]
    (fun k : RtKernel (Fin 2) (Fin 1) Empty =>
      k.env.slice 1 == (0, 0xffffffff) && (k.env.thread 1).stat != .init) (by decide +kernel)
  rw [Bool.and_eq_true, beq_iff_eq, bne_iff_ne] at hp
  obtain ⟨hslice, hstarted⟩ := hp
  intro hclaim
  have hle : (k.env.slice 1).2 ≤ (k.env.slice 1).1 := hclaim k hreach 1 hstarted
  rw [hslice] at hle
  exact absurd hle (by decide)

end Kernel

end SampleRtos
