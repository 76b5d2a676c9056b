import SampleRtos.Kernel.Requests
import SampleRtos.Kernel.Deadlines
import SampleRtos.Timer.Drain

/-!
# Functions return

A null pointer dereferenced, a list head taken for a thread and a loop without end are `none`
in every function here. A function returns, and leaves the kernel sound, as long as a few things
are seen to: the idle thread is not suspended or detached, objects are initialised before they
are used, and the timers of a program run for at least a tick. So the calls of a callback return
one after the other, and the loop of `rt_timer_check` ends.
-/

namespace SampleRtos

open Intrusive

section Sched
variable {τ σ : Type} [DecidableEq τ] [DecidableEq σ]
  {e : SchedSys τ σ (ThreadRings τ σ)} {t idle : τ} {s : σ}

/-! ## Functions of the scheduling part return -/

section
omit [DecidableEq σ]

theorem schedule_returns (hw : SchedWf e) (hidle : (e.thread idle).stat = .ready) :
    ∃ e', Abs.schedule e = some e' := by
  obtain ⟨u, hu⟩ := schedule_eq hw ⟨idle, hidle⟩
  exact ⟨_, hu⟩

end

/-- A thread that becomes ready is rescheduled against. -/
theorem woken_returns {r : RtThread} (hw : SchedWf (e.relistReady t r)) (hr : r.stat = .ready) :
    ∃ e', Abs.schedule (e.relistReady t r) = some e' := by
  have hready : ((e.relistReady t r).thread t).stat = .ready := by simpa using hr
  exact schedule_returns hw hready

/-- What `makeReady_eq` says, of a state that need not be well-formed. -/
theorem makeReady_returns (e : SchedSys τ σ (ThreadRings τ σ)) {t : τ}
    (hlive : e.list.live (.item t) = true)
    (hhead : e.list.live (.head (.ready (e.thread t).currentPriority)) = true) :
    Abs.makeReady e t = some (e.relistReady t { e.thread t with stat := .ready }) := by
  have hmark : (e.list.erase t).mark (.item t) = e.list.erase t := Rings.mark_of_live hlive
  simp [Abs.makeReady, remove, hlive, Abs.insertThread, pushBack, insertAt, SchedSys.setStat,
    SchedSys.setThread, SchedSys.setGroupBit, SchedSys.relistReady, SchedSys.readyList, hhead,
    hmark]

theorem startup_returns (hw : SchedWf e) (hlive : e.list.live (.item t) = true) :
    ∃ e', Abs.startup e t = some e' := by
  have hinit := hw.init_prio t
  have hhead := (hw.head_live (e.thread t).initPriority).mpr (hinit ▸ hw.prio_lt t)
  have hmake := makeReady_returns (e.setThread t
      { e.thread t with
        currentPriority := (e.thread t).initPriority
        numberMask := 1#32 <<< (e.thread t).initPriority
        stat := .suspend }) hlive (by simpa [SchedSys.setThread] using hhead)
  rw [relistReady_setThread] at hmake
  simp only [SchedSys.setThread_thread, Function.update_self] at hmake
  have hw₁ : SchedWf (e.relistReady t (e.thread t).started) :=
    hw.relistReady hlive rfl hinit rfl rfl
  obtain ⟨e', he'⟩ := woken_returns hw₁ rfl
  by_cases hcur : e.rtCurrentThread.isSome
  · refine ⟨e', ?_⟩
    simp only [Abs.startup, Abs.resume, SchedSys.setThread_thread, Function.update_self, hmake]
    simpa [hcur, RtThread.started] using he'
  · refine ⟨e.relistReady t (e.thread t).started, ?_⟩
    simp only [Abs.startup, Abs.resume, SchedSys.setThread_thread, Function.update_self, hmake]
    simp [hcur, RtThread.started]

theorem resume_returns (hw : SchedWf e) (t : τ) : ∃ r e', Abs.resume e t = some (r, e') := by
  by_cases hst : (e.thread t).stat = .suspend
  · exact ⟨_, _, resume_eq hw hst⟩
  · exact ⟨-RT_ERROR, e, by simp [Abs.resume, hst]⟩

theorem timeout_returns (hw : SchedWf e) (hact : (e.thread t).Active) :
    ∃ e', Abs.timeout e t = some e' := by
  have hlive := hw.live t (by rcases hact with hst | hst <;> simp [hst])
  have hhead := (hw.head_live _).mpr (hw.prio_lt t)
  have hmake := makeReady_returns (e.setError t (-RT_ETIMEOUT)) hlive
    (by simpa [SchedSys.setError, SchedSys.setThread] using hhead)
  rw [SchedSys.setError, relistReady_setThread] at hmake
  simp only [SchedSys.setThread_thread, Function.update_self] at hmake
  have hw₁ : SchedWf (e.relistReady t (e.thread t).timedOut) := hw.wake hact rfl rfl rfl rfl
  obtain ⟨e', he'⟩ := woken_returns hw₁ rfl
  refine ⟨e', ?_⟩
  rw [Abs.timeout, SchedSys.setError, hmake]
  exact he'

theorem yield_returns (hw : SchedWf e) (hcur : e.rtCurrentThread ≠ none) :
    ∃ e', Abs.yield e = some e' := by
  obtain ⟨t, ht⟩ := Option.ne_none_iff_exists'.mp hcur
  unfold Abs.yield
  rw [ht, Option.bind_eq_bind, Option.bind_some]
  split
  · rename_i hc
    have hlive := hw.live t (by simp [hc.1])
    have hhead := (hw.head_live _).mpr (hw.prio_lt t)
    have hmark : (e.list.erase t).mark (.item t) = e.list.erase t := Rings.mark_of_live hlive
    obtain ⟨e', he'⟩ := woken_returns (hw.wake (.inl hc.1) hc.1 rfl rfl rfl) hc.1
    refine ⟨e', ?_⟩
    rw [relistReady_of_ready hw hc.1] at he'
    simpa [remove, hlive, pushBack, insertAt, hhead, hmark, SchedSys.readyList, ht] using he'
  · exact ⟨e, rfl⟩

theorem tickSlice_returns (hw : SchedWf e) (hcur : e.rtCurrentThread ≠ none) :
    ∃ e', Abs.tickSlice e = some e' := by
  obtain ⟨t, ht⟩ := Option.ne_none_iff_exists'.mp hcur
  unfold Abs.tickSlice
  rw [ht, Option.bind_eq_bind, Option.bind_some]
  dsimp only
  split
  · refine yield_returns ?_ hcur
    exact (hw.setThread (by rfl) (by rfl) (by rfl) (by rfl)).setThread
      (by rfl) (by rfl) (by rfl) (by rfl)
  · exact ⟨_, rfl⟩

section
omit [DecidableEq σ]

theorem removeThread_returns (hlive : e.list.live (.item t) = true) :
    ∃ e', Abs.removeThread e t = some e' := by
  simp only [Abs.removeThread, remove, hlive, if_true, Option.bind_eq_bind, Option.bind_some]
  split
  · exact ⟨_, rfl⟩
  · exact ⟨_, rfl⟩

end

variable [Fintype τ]

theorem ipcResumeAll_returns (hw : SchedWf e) (hhead : e.list.live (.head (.suspend s)) = true) :
    Abs.ipcResumeAll s (Fintype.card τ + 1) e = some (e.failAll (e.waiters s)) :=
  ipcResumeAll_eq _ hw hhead rfl (Nat.lt_succ_of_le (hw.valid.nodup _).length_le_card)

section
omit [Fintype τ]

theorem semRelease_returns (hw : SchedWf e) (hhead : e.list.live (.head (.suspend s)) = true) :
    ∃ e', Abs.semRelease e s = some e' := by
  cases hts : e.waiters s with
  | nil =>
    have hseq : e.list.seq (.suspend s) = [] := hts
    refine ⟨e.setSem s { e.sem s with value := (e.sem s).value + 1 }, ?_⟩
    simp [Abs.semRelease, isEmpty, hhead, hseq]
  | cons t ts =>
    obtain ⟨u, hu⟩ := semRelease_eq hw hts
    exact ⟨_, hu⟩

end

theorem semControl_returns (hw : SchedWf e) (hidle : (e.thread idle).stat = .ready) {cmd : Int}
    {arg : BitVec 32} (hhead : cmd = RT_IPC_CMD_RESET → e.list.live (.head (.suspend s)) = true) :
    ∃ r e', Abs.semControl e s cmd arg = some (r, e') := by
  by_cases hcmd : cmd = RT_IPC_CMD_RESET
  · have hw₁ : SchedWf ((e.failAll (e.waiters s)).setSem s
        { (e.failAll (e.waiters s)).sem s with value := arg.setWidth 16 }) :=
      (hw.failAll rfl).1.congr rfl rfl rfl
    have hnot : idle ∉ e.waiters s := fun hmem => by
      rw [hw.waiting idle s hmem] at hidle
      cases hidle
    have hidle₁ : ((e.failAll (e.waiters s)).thread idle).stat = .ready := by
      rwa [failAll_thread_of_not_mem hnot]
    obtain ⟨e', he'⟩ := schedule_returns hw₁ hidle₁
    refine ⟨RT_EOK, e', ?_⟩
    rw [Abs.semControl, if_pos hcmd, ipcResumeAll_returns hw (hhead hcmd)]
    exact congrArg (Option.bind · fun e => some (RT_EOK, e)) he'
  · exact ⟨-RT_ERROR, e, by simp [Abs.semControl, hcmd]⟩

section
omit [DecidableEq σ] [Fintype τ]

theorem exitCritical_returns (hw : SchedWf e) (hidle : (e.thread idle).stat = .ready) :
    ∃ e', Abs.exitCritical e = some e' := by
  unfold Abs.exitCritical
  dsimp only
  split
  · split
    · have hw₁ : SchedWf { e with rtSchedulerLockNest := 0 } := hw.congr rfl rfl rfl
      exact schedule_returns hw₁ hidle
    · exact ⟨_, rfl⟩
  · exact ⟨_, rfl⟩

end

end Sched

/-! ## The timers -/

section Timers
variable {τ υ : Type} [DecidableEq τ] [DecidableEq υ] {m m' : SeqTimers τ υ} {x y : τ ⊕ υ}

/-- A running timer is one that has been initialised, and a timer of the program lasts a tick
at least. -/
structure Fit (m : SeqTimers τ υ) : Prop where
  live : ∀ x, (m.timer x).activated → m.timerList.live (.item x) = true
  timed : ∀ u, m.timerList.live (.item (.inr u)) = true → InRange (m.timer (.inr u)).initTick

/-- The timer `x` is to be fired now. -/
def Expired (m : SeqTimers τ υ) (x : τ ⊕ υ) : Prop := x ∈ m.queue ∧ (m.timer x).due m.rtTick

/-- The command sets no time but one of a tick or more. -/
def TimerCtrl.Lasting : TimerCtrl → Prop
  | .setTime time => InRange time
  | _ => True

instance (cmd : TimerCtrl) : Decidable cmd.Lasting := by
  rcases cmd <;> dsimp only [TimerCtrl.Lasting] <;> infer_instance

/-- The call lets no timer of the program last less than a tick, and starts none of a
thread's. -/
def TimerCall.Lasting : TimerCall (τ ⊕ υ) (TimerCallback τ) → Prop
  | .init (.inr _) _ time _ => InRange time
  | .control (.inr _) cmd => cmd.Lasting
  | .start (.inl _) => False
  | _ => True

theorem Fit.erase (h : Fit m) (x : τ ⊕ υ) :
    Fit { m with timerList := m.timerList.erase x } := ⟨h.live, h.timed⟩

theorem Fit.setTimer {r : RtTimer (TimerCallback τ)} (h : Fit m)
    (hact : r.activated → m.timerList.live (.item x) = true)
    (htime : ∀ u, x = .inr u → InRange r.initTick ∨ r.initTick = (m.timer x).initTick) :
    Fit (m.setTimer x r) where
  live y hy := by
    by_cases hyx : y = x
    · subst hyx
      apply hact
      simpa using hy
    · apply h.live
      simpa [hyx] using hy
  timed u hu := by
    by_cases hux : .inr u = x
    · subst hux
      rcases htime u rfl with hr | heq
      · simpa using hr
      · simpa [heq] using h.timed u hu
    · simpa [hux] using h.timed u hu

theorem Fit.deactivate (h : Fit m) (x : τ ⊕ υ) : Fit (m.deactivate x) :=
  h.setTimer (fun hact => absurd hact (RtTimer.deactivate_activated _)) fun _ _ => .inr rfl

theorem Fit.init (h : Fit m) {f : Option (TimerCallback τ)} {time : Tick} {flag : BitVec 8}
    (htime : ∀ u, x = .inr u → InRange time) : Fit (Abs.timerInit m x f time flag) where
  live y hy := by
    by_cases hyx : y = x
    · subst hyx
      simp [Abs.timerInit, Rings.mark]
    · apply Rings.mark_live_mono
      apply h.live
      simpa [Abs.timerInit, hyx] using hy
  timed u hu := by
    by_cases hux : .inr u = x
    · subst hux
      simpa [Abs.timerInit] using htime u rfl
    · have hu' : m.timerList.live (.item (.inr u)) = true := by
        simpa [Abs.timerInit, Rings.mark, hux] using hu
      simpa [Abs.timerInit, hux] using h.timed u hu'

theorem Fit.start (h : Fit m) (hv : m.timerList.Valid) (hstart : Abs.timerStart m x = some m') :
    Fit m' := by
  obtain ⟨xs, ys, hm⟩ := Abs.timerStart_started hv hstart
  have hinit : ∀ y, (m'.timer y).initTick = (m.timer y).initTick := by
    intro y
    by_cases hyx : y = x
    · subst hyx
      rw [hm.self]
      rfl
    · rw [hm.other y hyx]
  constructor
  · intro y hy
    rw [hm.live]
    by_cases hyx : y = x
    · subst hyx
      exact hm.initialised
    · rw [hm.other y hyx] at hy
      exact h.live y hy
  · intro u hu
    rw [hm.live] at hu
    rw [hinit]
    exact h.timed u hu

/-! ### What is to be fired -/

theorem Expired.of_erase (hv : m.timerList.Valid)
    (h : Expired { m with timerList := m.timerList.erase x } y) : y ≠ x ∧ Expired m y := by
  obtain ⟨hmem, hdue⟩ := h
  obtain ⟨hy, hyx⟩ := (TimerSys.mem_others hv).mp hmem
  exact ⟨hyx, hy, hdue⟩

theorem Expired.of_setTimer {r : RtTimer (TimerCallback τ)}
    (hr : r.timeoutTick = (m.timer x).timeoutTick) (h : Expired (m.setTimer x r) y) :
    Expired m y := by
  obtain ⟨hmem, hdue⟩ := h
  refine ⟨hmem, ?_⟩
  by_cases hyx : y = x
  · subst hyx
    simpa [RtTimer.due, hr] using hdue
  · simpa [hyx] using hdue

/-- A timer started for a tick or more is not to be fired. -/
theorem Expired.of_start (hv : m.timerList.Valid) (hx : InRange (m.timer x).initTick)
    (hstart : Abs.timerStart m x = some m') (h : Expired m' y) : y ≠ x ∧ Expired m y := by
  obtain ⟨xs, ys, hm⟩ := Abs.timerStart_started hv hstart
  obtain ⟨hmem, hdue⟩ := h
  rw [hm.rtTick] at hdue
  have hyx : y ≠ x := by
    rintro rfl
    have hone : 1 ≤ (m.timer y).initTick.toNat := BitVec.le_def.mp hx.1
    rw [hm.self, started_due_iff (BitVec.le_of_lt hx.2)] at hdue
    omega
  rw [hm.other y hyx] at hdue
  exact ⟨hyx, (hm.mem_queue.mp hmem).resolve_left hyx, hdue⟩

/-- `rt_timer_control` does not touch `RT_TIMER_FLAG_ACTIVATED`. -/
theorem control_bits : ∀ f : BitVec 8,
    (f &&& ~~~RT_TIMER_FLAG_PERIODIC) &&& RT_TIMER_FLAG_ACTIVATED = f &&& RT_TIMER_FLAG_ACTIVATED ∧
      (f ||| RT_TIMER_FLAG_PERIODIC) &&& RT_TIMER_FLAG_ACTIVATED =
        f &&& RT_TIMER_FLAG_ACTIVATED := by
  decide +kernel

section
omit [DecidableEq τ]

theorem control_activated (r : RtTimer (TimerCallback τ)) (cmd : TimerCtrl) :
    (r.control cmd).activated ↔ r.activated := by
  cases cmd with
  | setOneshot => rw [RtTimer.activated, RtTimer.control, (control_bits r.flag).1]; rfl
  | setPeriodic => rw [RtTimer.activated, RtTimer.control, (control_bits r.flag).2]; rfl
  | _ => rfl

theorem control_timeoutTick (r : RtTimer (TimerCallback τ)) (cmd : TimerCtrl) :
    (r.control cmd).timeoutTick = r.timeoutTick := by
  cases cmd <;> rfl

end

/-- **A call of the timer interface** keeps the timers fit, and makes none due. -/
theorem Fit.call (h : Fit m) (hv : m.timerList.Valid)
    {d : TimerCall (τ ⊕ υ) (TimerCallback τ)} (hd : d.Lasting)
    (hallowed : Abs.TimerCallAllowed m d) (hexec : Abs.execTimerCall m d = some m') :
    Fit m' ∧ ∀ y, Expired m' y → Expired m y := by
  unfold Abs.execTimerCall at hexec
  cases d with
  | init x f time flag =>
    cases hexec
    refine ⟨h.init fun u hu => ?_, fun y hy => ?_⟩
    · subst hu
      exact hd
    · have hmem : y ∈ m.queue := hy.1
      have hyx : y ≠ x := by
        rintro rfl
        exact hallowed hmem
      refine ⟨hmem, ?_⟩
      simpa [Abs.timerInit, hyx] using hy.2
  | start x =>
    cases x with
    | inl t => exact absurd hd id
    | inr u =>
      obtain ⟨hlive, -⟩ := Abs.timerStart_spec hexec
      exact ⟨h.start hv hexec, fun y hy => (hy.of_start hv (h.timed u hlive) hexec).2⟩
  | stop x =>
    obtain ⟨_, hstop⟩ := returned_of_map hexec
    rcases Abs.timerStop_spec hstop with ⟨-, rfl⟩ | ⟨-, -, rfl⟩
    · exact ⟨h, fun _ => id⟩
    · refine ⟨(h.erase x).deactivate x, fun y hy => ?_⟩
      have hold : Expired { m with timerList := m.timerList.erase x } y :=
        Expired.of_setTimer (r := (m.timer x).deactivate) rfl hy
      exact (hold.of_erase hv).2
  | control x cmd =>
    cases hexec
    have hkept : Fit (m.rtTimerControl x cmd) := by
      refine h.setTimer (fun hact => h.live x ((control_activated _ cmd).mp hact)) fun u hu => ?_
      subst hu
      cases cmd with
      | setTime time => exact .inl hd
      | _ => exact .inr rfl
    exact ⟨hkept, fun y hy => hy.of_setTimer (control_timeoutTick _ cmd)⟩
  | detach x =>
    obtain ⟨-, rfl⟩ := Abs.timerRemove_eq_some hexec
    exact ⟨h.erase x, fun y hy => (hy.of_erase hv).2⟩

end Timers

/-! ## What is to be seen to -/

section Prepared
variable {τ σ υ : Type} [DecidableEq τ] [DecidableEq σ] [DecidableEq υ]
  {k k' : RtKernel τ σ υ} {a a' : SeqKernel τ σ υ} {idle t : τ} {s : σ} {x : τ ⊕ υ}

/-- The waiting list of the semaphore has been initialised. -/
def SemInitialised (k : RtKernel τ σ υ) (s : σ) : Prop :=
  k.env.list.next (.head (.suspend s)) ≠ none

/-- The program's timer has been initialised. -/
def TimerInitialised (k : RtKernel τ σ υ) (u : υ) : Prop :=
  k.timers.timerList.next (.item (.inr u)) ≠ none

instance (k : RtKernel τ σ υ) (t : τ) : Decidable (Initialised k t) :=
  inferInstanceAs (Decidable (_ ≠ _))

instance (k : RtKernel τ σ υ) (s : σ) : Decidable (SemInitialised k s) :=
  inferInstanceAs (Decidable (_ ≠ _))

instance (k : RtKernel τ σ υ) (u : υ) : Decidable (TimerInitialised k u) :=
  inferInstanceAs (Decidable (_ ≠ _))

/-- What a call relies on: its object has been initialised, the idle thread is left alone, a
timer lasts a tick at least, and there is no cleanup function to call. -/
def Call.Prepared (idle : τ) (k : RtKernel τ σ υ) : Call τ σ υ → Prop
  | .threadStartup t => Initialised k t
  | .threadSuspend t => t ≠ idle
  | .threadYield => k.env.rtCurrentThread ≠ none
  | .threadDetach t =>
      t ≠ idle ∧ Initialised k t ∧ (k.env.thread t).static ∧ ¬ (k.env.thread t).cleanup
  | .semRelease s | .semDetach s => SemInitialised k s
  | .semControl s cmd _ => cmd = RT_IPC_CMD_RESET → SemInitialised k s
  | .timerInit _ time _ => InRange time
  | .timerControl _ cmd => cmd.Lasting
  | .timerStart u | .timerDetach u => TimerInitialised k u
  | _ => True

instance (k : RtKernel τ σ υ) (c : Call τ σ υ) : Decidable (c.Prepared idle k) := by
  rcases c <;> dsimp only [Call.Prepared] <;> infer_instance

/-- `Call.Prepared` on sequences. -/
def Abs.CallPrepared (idle : τ) (a : SeqKernel τ σ υ) : Call τ σ υ → Prop
  | .threadStartup t => a.env.list.live (.item t) = true
  | .threadSuspend t => t ≠ idle
  | .threadYield => a.env.rtCurrentThread ≠ none
  | .threadDetach t =>
      t ≠ idle ∧ a.env.list.live (.item t) = true ∧ (a.env.thread t).static ∧
        ¬ (a.env.thread t).cleanup
  | .semRelease s | .semDetach s => a.env.list.live (.head (.suspend s)) = true
  | .semControl s cmd _ => cmd = RT_IPC_CMD_RESET → a.env.list.live (.head (.suspend s)) = true
  | .timerInit _ time _ => InRange time
  | .timerControl _ cmd => cmd.Lasting
  | .timerStart u | .timerDetach u => a.timers.timerList.live (.item (.inr u)) = true
  | _ => True

theorem callPrepared_iff (hk : KernelRel k a) (c : Call τ σ υ) :
    c.Prepared idle k ↔ Abs.CallPrepared idle a c := by
  have hsem : ∀ s, SemInitialised k s ↔ a.env.list.live (.head (.suspend s)) = true :=
    fun s => next_ne_none_iff hk.env.rep _
  have htimer : ∀ u, TimerInitialised k u ↔ a.timers.timerList.live (.item (.inr u)) = true :=
    fun u => next_ne_none_iff hk.timers.rep _
  cases c with
  | threadStartup t => exact initialised_iff hk t
  | threadYield => rw [Call.Prepared, Abs.CallPrepared, hk.env.current]
  | threadDetach t => rw [Call.Prepared, Abs.CallPrepared, initialised_iff hk, hk.env.thread]
  | semRelease s => exact hsem s
  | semDetach s => exact hsem s
  | semControl s cmd arg => exact imp_congr_right fun _ => hsem s
  | timerStart u => exact htimer u
  | timerDetach u => exact htimer u
  | _ => exact Iff.rfl

/-! ## Calls -/

/-- The kernel is in order, the idle thread is ready, the timers are fit, and with a thread
its timer has been initialised. -/
structure Sound (idle : τ) (a : SeqKernel τ σ υ) : Prop where
  wf : KernelWf a
  idle : (a.env.thread idle).stat = .ready
  fit : Fit a.timers
  timer_live : ∀ t, a.env.list.live (.item t) = true →
    a.timers.timerList.live (.item (threadTimer t)) = true

section
omit [DecidableEq τ] [DecidableEq σ] [DecidableEq υ]

/-- The scheduling part returns, and so does the kernel. -/
theorem onSched_returns
    {f : SchedSys τ σ (ThreadRings τ σ) → Option (SchedSys τ σ (ThreadRings τ σ))}
    (h : ∃ e', f a.env = some e') : ∃ a', a.onSched f = some a' := by
  obtain ⟨e', he'⟩ := h
  exact ⟨{ a with env := e' }, by simp [Sys.onSched, he']⟩

end

theorem timerStop_returns {m : SeqTimers τ υ} (h : Fit m) (x : τ ⊕ υ) :
    ∃ r m', Abs.timerStop m x = some (r, m') := by
  by_cases hact : (m.timer x).activated
  · refine ⟨RT_EOK, m.stopped x, ?_⟩
    rw [Abs.timerStop, if_neg (not_not.mpr hact), Abs.timerRemove_of_live (h.live x hact)]
    rfl
  · exact ⟨-RT_ERROR, m, by simp [Abs.timerStop, hact]⟩

section
omit [DecidableEq σ]

theorem threadSuspend_returns (h : Sound idle a) (t : τ) :
    ∃ r a', Abs.threadSuspend a t = some (r, a') := by
  by_cases hst : (a.env.thread t).stat = .ready
  · have hlive : (a.env.setStat t .suspend).list.live (.item t) = true :=
      h.wf.sched.live t (by simp [hst])
    obtain ⟨e', he'⟩ := removeThread_returns hlive
    obtain ⟨r, m', hm'⟩ := timerStop_returns h.fit (threadTimer t)
    refine ⟨RT_EOK, { timers := m', env := e' }, ?_⟩
    simp [Abs.threadSuspend, hst, Sys.onSched, he', hm']
  · exact ⟨-RT_ERROR, a, by simp [Abs.threadSuspend, hst]⟩

theorem threadTimerStart_returns (hw : TimersWf a.timers)
    (hlive : a.timers.timerList.live (.item (threadTimer t)) = true) (tick : Tick) :
    ∃ a', Abs.threadTimerStart a t tick = some a' := by
  obtain ⟨m', hm'⟩ := Abs.timerStart_of_live
    (a := a.timers.rtTimerControl (threadTimer t) (.setTime tick)) hlive hw.head_live
  exact ⟨{ a with timers := m' }, by simp [Abs.threadTimerStart, Sys.onTimers, hm']⟩

end

theorem threadDetach_returns (hw : SchedWf a.env) (hlive : a.env.list.live (.item t) = true)
    (htimer : a.timers.timerList.live (.item (threadTimer t)) = true)
    (hplain : (a.env.thread t).static ∧ ¬ (a.env.thread t).cleanup) :
    ∃ a', Abs.threadDetach a t = some a' := by
  obtain ⟨a₁, hrem, htimers, hrecord⟩ : ∃ a₁,
      (if (a.env.thread t).stat ≠ .init then a.onSched fun e => Abs.removeThread e t
        else some a) = some a₁ ∧ a₁.timers = a.timers ∧ a₁.env.thread t = a.env.thread t := by
    split
    · obtain ⟨e', he'⟩ := removeThread_returns hlive
      refine ⟨{ a with env := e' }, by simp [Sys.onSched, he'], rfl, ?_⟩
      rw [(removeThread_spec hw.head_live (hw.prio_lt t) he').2]
      simp
    · exact ⟨a, rfl, rfl, rfl⟩
  have hoff := Abs.timerRemove_of_live (htimers ▸ htimer)
  have hkept : ((a₁.env.setStat t .close).thread t).static ∧
      ¬ ((a₁.env.setStat t .close).thread t).cleanup := by
    simpa [SchedSys.setStat, hrecord] using hplain
  refine ⟨{ timers := { a₁.timers with timerList := a₁.timers.timerList.erase (threadTimer t) }
            env := a₁.env.setStat t .close }, ?_⟩
  unfold Abs.threadDetach
  rw [hrem]
  simp only [Option.bind_eq_bind, Option.bind_some, Sys.onTimers, hoff, Option.pure_def]
  exact if_pos hkept

/-- **A call returns.** -/
theorem Sound.call_returns [Fintype τ] (h : Sound idle a) {c : Call τ σ υ}
    (hc : Abs.CallPrepared idle a c) : ∃ a', Abs.execCall a c = some a' := by
  have hw := h.wf.sched
  cases c with
  | threadStartup t => exact onSched_returns (f := fun e => Abs.startup e t) (startup_returns hw hc)
  | threadResume t =>
    obtain ⟨r, e', he'⟩ := resume_returns hw t
    exact onSched_returns (f := fun e => (Abs.resume e t).map Prod.snd)
      ⟨e', congrArg (Option.map Prod.snd) he'⟩
  | threadSuspend t =>
    obtain ⟨r, a', ha'⟩ := threadSuspend_returns h t
    exact ⟨a', by simp [Abs.execCall, ha']⟩
  | threadYield => exact onSched_returns (yield_returns hw hc)
  | threadDetach t => exact threadDetach_returns hw hc.2.1 (h.timer_live t hc.2.1) hc.2.2
  | semTrytake s =>
    by_cases hpos : 0 < (a.env.sem s).value
    · exact ⟨_, by rw [Abs.execCall, Abs.semTake, if_pos hpos]; rfl⟩
    · exact ⟨_, by rw [Abs.execCall, Abs.semTake, if_neg hpos, if_pos rfl]; rfl⟩
  | semRelease s =>
    exact onSched_returns (f := fun e => Abs.semRelease e s) (semRelease_returns hw hc)
  | semControl s cmd arg =>
    obtain ⟨r, e', he'⟩ := semControl_returns hw h.idle hc
    exact onSched_returns (f := fun e => (Abs.semControl e s cmd arg).map Prod.snd)
      ⟨e', congrArg (Option.map Prod.snd) he'⟩
  | semDetach s =>
    exact onSched_returns (f := fun e => Abs.semDetach e s) ⟨_, ipcResumeAll_returns hw hc⟩
  | exitCritical => exact onSched_returns (exitCritical_returns hw h.idle)
  | schedule => exact onSched_returns (schedule_returns hw h.idle)
  | timerStart u =>
    obtain ⟨m', hm'⟩ := Abs.timerStart_of_live hc h.wf.timers.head_live
    exact ⟨{ a with timers := m' }, by simp [Abs.execCall, Sys.onTimers, hm']⟩
  | timerStop u =>
    obtain ⟨r, m', hm'⟩ := timerStop_returns h.fit (.inr u)
    exact ⟨{ a with timers := m' }, by simp [Abs.execCall, Sys.onTimers, hm']⟩
  | timerDetach u =>
    exact ⟨_, by simp [Abs.execCall, Sys.onTimers, Abs.timerRemove_of_live hc]; rfl⟩
  | _ => exact ⟨_, rfl⟩

section
omit [DecidableEq τ] [DecidableEq σ] [DecidableEq υ]

/-- The timer part of a call that relies on what it may. -/
theorem onTimer_lasting {c : Call τ σ υ} (hc : Abs.CallPrepared idle a c)
    {d : TimerCall (τ ⊕ υ) (TimerCallback τ)} (hd : d ∈ c.onTimer) : d.Lasting := by
  cases c with
  | timerInit u time flag => cases hd; exact hc
  | timerControl u cmd => cases hd; exact hc
  | threadInit t priority tick => cases hd; trivial
  | threadSuspend t => cases hd; trivial
  | threadDetach t => cases hd; trivial
  | timerStart u => cases hd; trivial
  | timerStop u => cases hd; trivial
  | timerDetach u => cases hd; trivial
  | _ => cases hd

end

/-- A timer once initialised stays so. -/
theorem timerCall_live {m m' : SeqTimers τ υ} {d : TimerCall (τ ⊕ υ) (TimerCallback τ)}
    {n : Node TimerHead (τ ⊕ υ)} (hn : m.timerList.live n = true)
    (hexec : Abs.execTimerCall m d = some m') : m'.timerList.live n = true := by
  unfold Abs.execTimerCall at hexec
  cases d with
  | init x f time flag => cases hexec; exact Rings.mark_live_mono hn
  | start x =>
    obtain ⟨-, -, xs, ys, -, rfl, -, -⟩ := Abs.timerStart_spec hexec
    exact hn
  | stop x =>
    obtain ⟨_, hstop⟩ := returned_of_map hexec
    rcases Abs.timerStop_spec hstop with ⟨-, rfl⟩ | ⟨-, -, rfl⟩ <;> exact hn
  | control x cmd => cases hexec; exact hn
  | detach x =>
    obtain ⟨-, rfl⟩ := Abs.timerRemove_eq_some hexec
    exact hn

/-- The idle thread stays ready, whatever is called. -/
theorem CallEffect.idle_ready {c : Call τ σ υ} {e : SchedSys τ σ (ThreadRings τ σ)}
    (h : CallEffect a c e) (hc : Abs.CallPrepared idle a c)
    (hidle : (a.env.thread idle).stat = .ready) : (e.thread idle).stat = .ready := by
  have hother : ∀ {t : τ} {r : RtThread}, idle ≠ t →
      (Function.update a.env.thread t r idle).stat = .ready := fun ht => by simpa [ht] using hidle
  cases h with
  | waking hwake => exact hwake.ready idle hidle
  | init t priority tick hst =>
    apply hother
    rintro rfl
    rcases hst with hst | hst <;> simp [hidle] at hst
  | suspend t => exact hother (Ne.symm hc)
  | discard t => exact hother (Ne.symm hc.1)
  | detach t => exact hother (Ne.symm hc.1)
  | semInit s value flag => exact hidle
  | taken s => exact hidle

/-- A thread's node is initialised by `rt_thread_init` and by nothing else. -/
theorem CallEffect.live_or {c : Call τ σ υ} {e : SchedSys τ σ (ThreadRings τ σ)}
    (h : CallEffect a c e) (ht : e.list.live (.item t) = true) :
    a.env.list.live (.item t) = true ∨ ∃ priority tick, c = .threadInit t priority tick := by
  cases h with
  | waking hwake => exact .inl (hwake.live _ ▸ ht)
  | init u priority tick hst =>
    by_cases htu : t = u
    · subst htu
      exact .inr ⟨priority, tick, rfl⟩
    · left
      simpa [Abs.threadInit, SchedSys.setThread, Rings.mark, htu] using ht
  | semInit s value flag hempty =>
    left
    simpa [Abs.semInit, SchedSys.setSem, Rings.mark] using ht
  | _ => exact .inl ht

/-- **A call leaves the kernel sound**, and makes no timer due. -/
theorem Sound.call [Fintype τ] (h : Sound idle a) {c : Call τ σ υ}
    (hallowed : Abs.CallAllowed a c) (hc : Abs.CallPrepared idle a c)
    (hrun : Abs.execCall a c = some a') :
    Sound idle a' ∧ ∀ y, Expired a'.timers y → Expired a.timers y := by
  have heffect := execCall_effect h.wf hallowed hrun
  have htimers : Fit a'.timers ∧ (∀ y, Expired a'.timers y → Expired a.timers y) ∧
      ∀ n, a.timers.timerList.live n = true → a'.timers.timerList.live n = true := by
    rcases execCall_timers h.wf hallowed hrun with heq | ⟨d, hd, hd', hexec⟩
    · rw [heq]
      exact ⟨h.fit, fun _ => id, fun _ => id⟩
    · obtain ⟨hfit, hexp⟩ := h.fit.call h.wf.timers.valid (onTimer_lasting hc hd) hd' hexec
      exact ⟨hfit, hexp, fun n hn => timerCall_live hn hexec⟩
  obtain ⟨hfit, hexp, hlive⟩ := htimers
  refine ⟨⟨h.wf.execCall hallowed hrun, heffect.idle_ready hc h.idle, hfit, fun t ht => ?_⟩, hexp⟩
  rcases heffect.live_or ht with hold | ⟨priority, tick, rfl⟩
  · exact hlive _ (h.timer_live t hold)
  · cases hrun
    simp [Abs.threadInit, Abs.timerInit, Rings.mark]

/-! ## The tick -/

variable [Fintype τ] [Fintype υ]

/-- A call may be made and relies on what it may. -/
def MayCall (idle : τ) (k : RtKernel τ σ υ) (c : Call τ σ υ) : Prop :=
  c.Allowed k ∧ c.Prepared idle k

instance (k : RtKernel τ σ υ) (c : Call τ σ υ) : Decidable (MayCall idle k c) :=
  inferInstanceAs (Decidable (_ ∧ _))

/-- **The calls of a callback** return one after the other. -/
theorem Sound.runCalls (cs : List (Call τ σ υ)) :
    ∀ {k : RtKernel τ σ υ} {a : SeqKernel τ σ υ}, KernelRel k a → Sound idle a →
      callsMeet (MayCall idle) cs k → ∃ a', Abs.runCalls cs a = some a' ∧ Sound idle a' ∧
        ∀ y, Expired a'.timers y → Expired a.timers y := by
  induction cs with
  | nil => exact fun _ h _ => ⟨_, rfl, h, fun _ => id⟩
  | cons c cs ih =>
    intro k a hk h hmeet
    obtain ⟨⟨hallowed, hprepared⟩, hrest⟩ := hmeet
    have hc := (callAllowed_iff hk c).mp hallowed
    have hp := (callPrepared_iff hk c).mp hprepared
    obtain ⟨a₁, h₁⟩ := h.call_returns hp
    obtain ⟨hs₁, hexp₁⟩ := h.call hc hp h₁
    obtain ⟨k₁, hk₁, hrel₁⟩ := Lockstep.exists_of_right (execCall_rel hk h.wf hc) h₁
    obtain ⟨a', ha', hs', hexp⟩ := ih hrel₁ hs₁ (hrest k₁ hk₁)
    refine ⟨a', ?_, hs', fun y hy => hexp₁ y (hexp y hy)⟩
    simp [Abs.runCalls, hc, h₁, ha']

section
omit [DecidableEq σ] [Fintype τ] [Fintype υ]

/-- The timer about to fire is off the list. -/
theorem Sound.unlinked (h : Sound idle a) (x : τ ⊕ υ) : Sound idle (a.unlinked x) :=
  ⟨h.wf.eraseTimer x, h.idle, h.fit.erase x, h.timer_live⟩

end

/-- The callback of a timer returns. -/
theorem Sound.callback (hk : KernelRel k a) (h : Sound idle a) {c : List (Call τ σ υ)}
    (hx : x ∈ a.timers.queue) (hmeet : fireMeets (MayCall idle) c x k) :
    ∃ f a₁, (a.timers.timer x).timeoutFunc = some f ∧
      Abs.callback x f c (a.unlinked x) = some a₁ ∧ Sound idle a₁ ∧
      ∀ y, Expired a₁.timers y → Expired (a.unlinked x).timers y := by
  have hlive := h.wf.timers.valid.item_live hx
  have hok := h.wf.timers.ok x hlive
  cases x with
  | inl t =>
    obtain ⟨e', he'⟩ := timeout_returns h.wf.sched (h.wf.linked t hx)
    have hwake := Waking.timeout h.wf.sched (h.wf.linked t hx) he'
    refine ⟨.rtThreadTimeout t, { a.unlinked (.inl t) with env := e' }, hok.1, ?_, ?_, fun _ => id⟩
    · exact congrArg (Option.bind · fun e => some { a.unlinked (.inl t) with env := e }) he'
    · have h₀ := h.unlinked (.inl t)
      refine ⟨h₀.wf.of_waking hwake, hwake.ready idle h.idle, h₀.fit, fun u hu => ?_⟩
      exact h.timer_live u (hwake.live _ ▸ hu)
  | inr u =>
    obtain ⟨m, hm, hrel⟩ := Lockstep.exists_of_right (rtTimerRemove_rel hk.timers (.inr u))
      (Abs.timerRemove_of_live hlive)
    have hunlinked : KernelRel { k with timers := m } (a.unlinked (.inr u)) := ⟨hrel, hk.env⟩
    rw [fireMeets, hk.timers.timer] at hmeet
    obtain ⟨a₁, h₁, hs₁, hexp⟩ :=
      Sound.runCalls c hunlinked (h.unlinked (.inr u)) (hmeet hok m hm)
    exact ⟨.user, a₁, hok, h₁, hs₁, hexp⟩

/-- **A firing returns**, and leaves fewer timers to be fired. -/
theorem Sound.fire (hk : KernelRel k a) (h : Sound idle a) {c : List (Call τ σ υ)}
    (hx : a.timers.queue.head? = some x) (hmeet : fireMeets (MayCall idle) c x k) :
    ∃ a', Abs.timerFire Abs.callback c x a = some a' ∧ Sound idle a' ∧
      ∀ y, Expired a'.timers y → y ≠ x ∧ Expired a.timers y := by
  have hmem : x ∈ a.timers.queue := List.mem_of_mem_head? hx
  have hlive := h.wf.timers.valid.item_live hmem
  obtain ⟨f, a₁, hf, hcall, h₁, hexp⟩ := Sound.callback hk h hmem hmeet
  have hold : ∀ y, Expired a₁.timers y → y ≠ x ∧ Expired a.timers y := fun y hy =>
    (hexp y hy).of_erase h.wf.timers.valid
  have hfire := Abs.timerFire_eq hlive hf hcall
  have hdone : ∀ y, Expired (a₁.timers.deactivate x) y → Expired a₁.timers y :=
    fun y hy => Expired.of_setTimer (r := (a₁.timers.timer x).deactivate) rfl hy
  by_cases hagain : (a₁.timers.timer x).periodic ∧ (a₁.timers.timer x).activated
  · have hlive₁ := h₁.fit.live x hagain.2
    obtain ⟨m, hm⟩ := Abs.timerStart_of_live (a := a₁.timers.deactivate x) hlive₁
      h₁.wf.timers.head_live
    have hrun : Abs.timerFire Abs.callback c x a = some { a₁ with timers := m } := by
      rw [hfire, if_pos hagain, hm]
      rfl
    have hvalid : (a₁.timers.deactivate x).timerList.Valid := h₁.wf.timers.valid
    refine ⟨_, hrun, ⟨h.wf.fire hx hrun, h₁.idle, (h₁.fit.deactivate x).start hvalid hm, ?_⟩, ?_⟩
    · intro t ht
      obtain ⟨xs, ys, hstarted⟩ := Abs.timerStart_started hvalid hm
      rw [hstarted.live]
      exact h₁.timer_live t ht
    · intro y hy
      -- only the program's timers are periodic
      have hrange : InRange ((a₁.timers.deactivate x).timer x).initTick := by
        cases x with
        | inl t => exact absurd hagain.1 (h₁.wf.timers.ok (.inl t) hlive₁).2
        | inr u => simpa [RtTimer.deactivate] using h₁.fit.timed u hlive₁
      exact hold y (hdone y (hy.of_start hvalid hrange hm).2)
  · have hrun : Abs.timerFire Abs.callback c x a =
        some { a₁ with timers := a₁.timers.deactivate x } := by
      rw [hfire, if_neg hagain]
    refine ⟨_, hrun, ⟨h.wf.fire hx hrun, h₁.idle, h₁.fit.deactivate x, h₁.timer_live⟩, ?_⟩
    exact fun y hy => hold y (hdone y hy)

/-- **The loop of `rt_timer_check` ends**: as many rounds are enough as there are timers to be
fired. -/
theorem Sound.check (script : List (List (Call τ σ υ))) :
    ∀ {k : RtKernel τ σ υ} {a : SeqKernel τ σ υ} (due : Finset (τ ⊕ υ)), KernelRel k a →
      Sound idle a → (∀ y, Expired a.timers y → y ∈ due) → due.card ≤ script.length →
      timerCheckMeets (MayCall idle) script k →
      ∃ a', Abs.timerCheck Abs.callback script a = some a' ∧ Sound idle a' := by
  induction script with
  | nil =>
    intro k a due hk h hdue hcard _
    obtain rfl : due = ∅ := by simpa using hcard
    refine ⟨a, Abs.timerCheck_quiet h.wf.timers.head_live fun y hy hd => ?_, h⟩
    exact absurd (hdue y ⟨List.mem_of_mem_head? hy, hd⟩) (by simp)
  | cons c script ih =>
    intro k a due hk h hdue hcard hmeet
    by_cases hquiet : Quiet a
    · exact ⟨a, Abs.timerCheck_quiet h.wf.timers.head_live hquiet, h⟩
    · obtain ⟨x, hx, hd⟩ : ∃ x ∈ a.timers.queue.head?, (a.timers.timer x).due a.timers.rtTick := by
        unfold Quiet at hquiet
        push Not at hquiet
        exact hquiet
      obtain ⟨hxk, hduek⟩ := hk.first_due hx hd
      obtain ⟨hfire, hlater⟩ := hmeet x hxk hduek
      obtain ⟨a₁, h₁, hs₁, hexp⟩ := Sound.fire hk h hx hfire
      obtain ⟨k₁, hk₁, hrel₁⟩ := Lockstep.exists_of_right (kernelFire_rel hk h.wf c x) h₁
      have hmem : x ∈ due := hdue x ⟨List.mem_of_mem_head? hx, hd⟩
      have hcard₁ : (due.erase x).card ≤ script.length := by
        rw [Finset.card_erase_of_mem hmem]
        rw [List.length_cons] at hcard
        omega
      obtain ⟨a', ha', hs'⟩ := ih (due.erase x) hrel₁ hs₁
        (fun y hy => Finset.mem_erase.mpr ⟨(hexp y hy).1, hdue y (hexp y hy).2⟩) hcard₁
        (hlater k₁ hk₁)
      refine ⟨a', ?_, hs'⟩
      rw [Abs.timerCheck_due hx hd, h₁]
      exact ha'

/-- **A tick returns.** -/
theorem Sound.tick (hk : KernelRel k a) (h : Sound idle a) (hcur : a.env.rtCurrentThread ≠ none)
    {script : List (List (Call τ σ υ))} (hlength : Fintype.card (τ ⊕ υ) ≤ script.length)
    (hmeet : tickMeets (MayCall idle) script k) :
    ∃ a', Abs.tick script a = some a' ∧ Sound idle a' := by
  obtain ⟨e', he'⟩ := tickSlice_returns h.wf.sched hcur
  have hwake := Waking.tickSlice h.wf.sched he'
  have hstart : Abs.tickStart a = some
      { timers := { a.timers with rtTick := a.timers.rtTick + 1 }, env := e' } := by
    simp [Abs.tickStart, Sys.onSched, he']
  obtain ⟨k₁, hk₁, hrel₁⟩ := Lockstep.exists_of_right (tickStart_rel hk h.wf.sched) hstart
  have h₁ : Sound idle
      { timers := { a.timers with rtTick := a.timers.rtTick + 1 }, env := e' } :=
    ⟨h.wf.tickStart hstart, hwake.ready idle h.idle, ⟨h.fit.live, h.fit.timed⟩,
      fun t ht => h.timer_live t (hwake.live _ ▸ ht)⟩
  obtain ⟨a', ha', hs'⟩ := Sound.check script Finset.univ hrel₁ h₁ (fun _ _ => Finset.mem_univ _)
    hlength (hmeet k₁ hk₁)
  exact ⟨a', by rw [Abs.tick, hstart]; exact ha', hs'⟩

/-! ## Functions that block -/

section
omit [DecidableEq σ] [Fintype τ] [Fintype υ]

theorem Sound.suspend (h : Sound idle a) (ht : t ≠ idle) :
    ∃ r a', Abs.threadSuspend a t = some (r, a') ∧ Sound idle a' := by
  obtain ⟨r, a', ha'⟩ := threadSuspend_returns h t
  obtain ⟨hwf, hother, -⟩ := h.wf.threadSuspend ha'
  refine ⟨r, a', ha', hwf, by rw [hother idle (Ne.symm ht)]; exact h.idle, ?_, fun u hu => ?_⟩
  · rcases threadSuspend_spec h.wf.sched ha' with ⟨-, -, rfl⟩ | ⟨-, -, -, ⟨-, hm⟩ | ⟨-, -, hm⟩⟩
    · exact h.fit
    · exact hm ▸ h.fit
    · exact hm ▸ (h.fit.erase _).deactivate _
  · rcases threadSuspend_spec h.wf.sched ha' with
      ⟨-, -, rfl⟩ | ⟨-, -, henv, ⟨-, hm⟩ | ⟨-, -, hm⟩⟩
    · exact h.timer_live u hu
    all_goals
      rw [henv] at hu
      rw [hm]
      exact h.timer_live u hu

theorem Sound.startTimer (h : Sound idle a) (hact : (a.env.thread t).Active) (tick : Tick) :
    ∃ a', Abs.threadTimerStart a t tick = some a' ∧ Sound idle a' ∧ a'.env = a.env := by
  have hlive := h.wf.sched.live t (by rcases hact with hst | hst <;> simp [hst])
  have htimer := h.timer_live t hlive
  obtain ⟨a', ha'⟩ := threadTimerStart_returns h.wf.timers htimer tick
  obtain ⟨hwf, henv⟩ := h.wf.startThread hact ha'
  obtain ⟨-, hstart⟩ := threadTimerStart_spec ha'
  have hset : Fit (a.timers.rtTimerControl (threadTimer t) (.setTime tick)) :=
    h.fit.setTimer (fun _ => htimer) fun u hu => by cases hu
  have hvalid : (a.timers.rtTimerControl (threadTimer t) (.setTime tick)).timerList.Valid :=
    h.wf.timers.valid
  refine ⟨a', ha', ⟨hwf, henv ▸ h.idle, hset.start hvalid hstart, fun u hu => ?_⟩, henv⟩
  obtain ⟨xs, ys, hstarted⟩ := Abs.timerStart_started hvalid hstart
  rw [henv] at hu
  rw [hstarted.live]
  exact h.timer_live u hu

end

section
omit [DecidableEq σ] [DecidableEq υ] [Fintype τ] [Fintype υ]

theorem Sound.schedule (h : Sound idle a) :
    ∃ a', a.onSched Abs.schedule = some a' ∧ Sound idle a' := by
  obtain ⟨e', he'⟩ := schedule_returns h.wf.sched h.idle
  have hwake := Waking.schedule h.wf.sched he'
  refine ⟨{ a with env := e' }, by simp [Sys.onSched, he'], h.wf.of_waking hwake,
    hwake.ready idle h.idle, h.fit, fun u hu => h.timer_live u (hwake.live _ ▸ hu)⟩

end

section
omit [DecidableEq υ] [Fintype τ] [Fintype υ]

theorem Sound.insert (h : Sound idle a) (hst : (a.env.thread t).stat = .suspend)
    (hfree : a.env.list.Free t) (hhead : a.env.list.live (.head (.suspend s)) = true) :
    ∃ a', a.onSched (fun e => Abs.ipcInsert e s t) = some a' ∧ Sound idle a' ∧
      a'.env.thread = a.env.thread := by
  have hlive := h.wf.sched.live t (by simp [hst])
  obtain ⟨e', he'⟩ : ∃ e', Abs.ipcInsert a.env s t = some e' := by
    unfold Abs.ipcInsert
    split
    · exact ⟨_, by simp [pushBack, insertAt, hhead]; rfl⟩
    · split
      · exact ⟨_, by simp [insertOrdered, insertAt, hhead]; rfl⟩
      · exact ⟨_, rfl⟩
  obtain ⟨hwf, hthread, hsame⟩ := ipcInsert_wf h.wf.sched hfree hst he'
  refine ⟨{ a with env := e' }, by simp [Sys.onSched, he'], ⟨?_, ?_, h.fit, fun u hu => ?_⟩,
    hthread⟩
  · exact h.wf.of_env hwf (fun u hu => by rwa [hthread]) fun n hn => by rwa [hsame]
  · show (e'.thread idle).stat = .ready
    rw [hthread]
    exact h.idle
  · have hu' : e'.list.live (.item u) = true := hu
    rw [hsame] at hu'
    exact h.timer_live u hu'

end

section
omit [DecidableEq σ] [Fintype τ] [Fintype υ]

/-- `rt_thread_sleep` returns, in any thread but the idle one. -/
theorem Sound.sleep (h : Sound idle a) (hmay : Abs.MayBlock a)
    (hidle : a.env.rtCurrentThread ≠ some idle) (tick : Tick) :
    ∃ a', Abs.threadSleep a tick = some a' ∧ Sound idle a' := by
  obtain ⟨t, hcur, hcan⟩ := hmay
  have ht : t ≠ idle := by
    rintro rfl
    exact hidle hcur
  obtain ⟨r, a₁, h₁, hs₁⟩ := h.suspend ht
  have hst := (h.wf.suspendCurrent hcan h₁).2.1
  obtain ⟨a₂, h₂, hs₂, -⟩ := hs₁.startTimer (.inr hst) tick
  obtain ⟨a₃, h₃, hs₃⟩ := hs₂.schedule
  have hcur' : a.env.rtCurrentThread = some t := hcur
  exact ⟨a₃, by simp [Abs.threadSleep, hcur', h₁, h₂, h₃], hs₃⟩

end

section
omit [Fintype τ] [Fintype υ]

/-- So does a wait for a semaphore. -/
theorem Sound.wait (h : Sound idle a) (hcan : CanBlock a t) (ht : t ≠ idle)
    (hhead : a.env.list.live (.head (.suspend s)) = true) (time : BitVec 32) :
    ∃ a', Abs.takeWait a s t time = some a' ∧ Sound idle a' := by
  have h₀ : Sound idle { a with env := a.env.setError t RT_EOK } := by
    refine ⟨h.wf.setError t RT_EOK, ?_, h.fit, h.timer_live⟩
    simpa [SchedSys.setError, Ne.symm ht] using h.idle
  obtain ⟨r, a₁, h₁, hs₁⟩ := h₀.suspend ht
  obtain ⟨-, hst, hfree⟩ := h₀.wf.suspendCurrent ((canBlock_setError _).mpr hcan) h₁
  have hhead₁ : a₁.env.list.live (.head (.suspend s)) = true := by
    rw [(suspended_frame h₀.wf.sched h₁).2.2.2]
    exact hhead
  obtain ⟨a₂, h₂, hs₂, hthread⟩ := hs₁.insert hst hfree hhead₁
  have hact : (a₂.env.thread t).Active := .inr (by rw [hthread, hst])
  obtain ⟨a₃, h₃, hs₃⟩ : ∃ a₃, (if 0 < time.toInt then Abs.threadTimerStart a₂ t time
      else some a₂) = some a₃ ∧ Sound idle a₃ := by
    split
    · obtain ⟨a₃, h₃, hs₃, -⟩ := hs₂.startTimer hact time
      exact ⟨a₃, h₃, hs₃⟩
    · exact ⟨a₂, rfl, hs₂⟩
  obtain ⟨a₄, h₄, hs₄⟩ := hs₃.schedule
  exact ⟨a₄, by simp [Abs.takeWait, Abs.ipcSuspend, h₁, h₂, h₃, h₄], hs₄⟩

end

end Prepared

end SampleRtos
