import SampleRtos.Kernel.Guarded
import SampleRtos.Kernel.Nested

/-!
# Preemption by priority

Every operation that makes a thread ready on behalf of another ends in
`rt_schedule`, or leaves that to the `rt_exit_critical` that opens the lock, so an
unlocked scheduler never runs a thread while a more urgent one is ready. One
operation forgets: `rt_sem_detach` wakes all waiters and returns.
-/

namespace SampleRtos

open Intrusive

section Preempt
variable {τ σ υ : Type} [DecidableEq τ] [DecidableEq σ] [DecidableEq υ]

/-! ## The most urgent thread runs -/

/-- Something is running and, unless the scheduler is locked, it is a ready thread and
no ready thread is more urgent. -/
structure Preemptive {L : Type} (e : SchedSys τ σ L) : Prop where
  started : e.rtCurrentThread ≠ none
  nonneg : 0 ≤ e.rtSchedulerLockNest
  urgent : e.rtSchedulerLockNest = 0 → ∃ t, e.rtCurrentThread = some t ∧
    (e.thread t).stat = .ready ∧
      ∀ u, (e.thread u).stat = .ready →
        (e.thread t).currentPriority ≤ (e.thread u).currentPriority

namespace Preemptive
variable {e e' : SchedSys τ σ (ThreadRings τ σ)} {t : τ} {s : σ}

section
omit [DecidableEq σ]

/-- Whatever is ready, `rt_schedule` settles who runs. -/
theorem schedule (hw : SchedWf e) (hcur : e.rtCurrentThread ≠ none)
    (hnonneg : 0 ≤ e.rtSchedulerLockNest) (h : Abs.schedule e = some e') : Preemptive e' := by
  obtain ⟨t, hhead, rfl⟩ := schedule_spec h
  have hready : (e.thread t).stat = .ready :=
    ((hw.ready_iff t _).mp (List.mem_of_mem_head? hhead)).1
  obtain ⟨-, -, t', ts, hlist, -, hmin⟩ := highestReadyThread_spec hw ⟨t, hready⟩
  obtain rfl : t' = t := by
    rw [Abs.highestReadyThread, hlist] at hhead
    exact Option.some.inj hhead
  constructor
  · rw [SchedSys.switchTo_current]
    split
    · simp
    · exact hcur
  · rw [SchedSys.switchTo_lockNest]
    exact hnonneg
  · intro hlock
    rw [SchedSys.switchTo_lockNest] at hlock
    refine ⟨t', by rw [SchedSys.switchTo_current, if_pos hlock], ?_⟩
    rw [SchedSys.switchTo_thread]
    exact ⟨hready, hmin⟩

end

section
omit [DecidableEq τ] [DecidableEq σ]

/-- Nobody else becomes ready, and neither the current thread nor the lock changes. -/
theorem keep (h : Preemptive e) (hcur : e'.rtCurrentThread = e.rtCurrentThread)
    (hlock : e'.rtSchedulerLockNest = e.rtSchedulerLockNest)
    (hthread : ∀ u, (e'.thread u).stat = (e.thread u).stat ∧
      (e'.thread u).currentPriority = (e.thread u).currentPriority) : Preemptive e' := by
  refine ⟨by rw [hcur]; exact h.started, by rw [hlock]; exact h.nonneg, fun hzero => ?_⟩
  obtain ⟨t, ht, hready, hmin⟩ := h.urgent (hlock ▸ hzero)
  refine ⟨t, hcur.trans ht, by rw [(hthread t).1]; exact hready, fun u hu => ?_⟩
  rw [(hthread t).2, (hthread u).2]
  exact hmin u (by rw [← (hthread u).1]; exact hu)

end

section
omit [DecidableEq σ]

/-- Only a record changes, in fields that say nothing of who may run. -/
theorem setThread (h : Preemptive e) {r : RtThread} (hstat : r.stat = (e.thread t).stat)
    (hprio : r.currentPriority = (e.thread t).currentPriority) : Preemptive (e.setThread t r) := by
  refine h.keep rfl rfl fun u => ?_
  by_cases hut : u = t
  · subst hut; simp [hstat, hprio]
  · simp [hut]

end

theorem yield (h : Preemptive e) (hw : SchedWf e) (hrun : Abs.yield e = some e') :
    Preemptive e' := by
  obtain ⟨t, hcur, ⟨rfl, -⟩ | ⟨hst, hsched⟩⟩ := yield_spec hw hrun
  · exact h
  · have hw₁ : SchedWf (e.relistReady t (e.thread t)) := hw.wake (.inl hst) hst rfl rfl rfl
    exact schedule hw₁ h.started h.nonneg hsched

theorem tickSlice (h : Preemptive e) (hw : SchedWf e) (hrun : Abs.tickSlice e = some e') :
    Preemptive e' := by
  obtain ⟨t, hcur, ⟨-, rfl⟩ | ⟨-, ⟨rfl, -⟩ | ⟨hst, hsched⟩⟩⟩ := tickSlice_spec hw hrun
  · exact h.setThread rfl rfl
  · exact h.setThread rfl rfl
  · have hw₁ : SchedWf (e.relistReady t ((e.thread t).withRemaining (e.thread t).initTick)) :=
      hw.wake (.inl hst) hst rfl rfl rfl
    exact schedule hw₁ h.started h.nonneg hsched

theorem timeout (h : Preemptive e) (hw : SchedWf e) (hact : (e.thread t).Active)
    (hrun : Abs.timeout e t = some e') : Preemptive e' := by
  have hw₁ : SchedWf (e.relistReady t (e.thread t).timedOut) := hw.wake hact rfl rfl rfl rfl
  exact schedule hw₁ h.started h.nonneg (timeout_spec hrun).2

theorem startup (h : Preemptive e) (hw : SchedWf e) (hrun : Abs.startup e t = some e') :
    Preemptive e' := by
  obtain ⟨hlive, ⟨hnone, -⟩ | ⟨-, hsched⟩⟩ := startup_spec hrun
  · exact absurd hnone h.started
  · have hw₁ : SchedWf (e.relistReady t (e.thread t).started) :=
      hw.relistReady hlive rfl (hw.init_prio t) rfl rfl
    exact schedule hw₁ h.started h.nonneg hsched

theorem semRelease (h : Preemptive e) (hw : SchedWf e) (hrun : Abs.semRelease e s = some e') :
    Preemptive e' := by
  rcases semRelease_spec hw hrun with ⟨-, rfl⟩ | ⟨t, -, -, hst, hsched⟩
  · exact h.keep rfl rfl fun _ => ⟨rfl, rfl⟩
  · have hw₁ : SchedWf (e.relistReady t { e.thread t with stat := .ready }) :=
      hw.wake (.inr hst) rfl rfl rfl rfl
    exact schedule hw₁ h.started h.nonneg hsched

theorem semControl [Fintype τ] (h : Preemptive e) (hw : SchedWf e) {cmd r : Int}
    {arg : BitVec 32} (hrun : Abs.semControl e s cmd arg = some (r, e')) : Preemptive e' := by
  rcases semControl_spec hw hrun with ⟨-, -, rfl⟩ | ⟨-, -, hsched⟩
  · exact h
  · have hw₁ : SchedWf ((e.failAll (e.waiters s)).setSem s
        { (e.failAll (e.waiters s)).sem s with value := arg.setWidth 16 }) :=
      (hw.failAll rfl).1.congr rfl rfl rfl
    refine schedule hw₁ ?_ ?_ hsched
    · show (e.failAll (e.waiters s)).rtCurrentThread ≠ none
      rw [failAll_current]
      exact h.started
    · show 0 ≤ (e.failAll (e.waiters s)).rtSchedulerLockNest
      rw [failAll_lockNest]
      exact h.nonneg

section
omit [DecidableEq τ] [DecidableEq σ]

/-- Threads become ready that are no more urgent than the current one. -/
theorem wakes (h : Preemptive e) (hwake : Waking e e')
    (hcur : e'.rtCurrentThread = e.rtCurrentThread)
    (hlock : e'.rtSchedulerLockNest = e.rtSchedulerLockNest)
    (hspare : e.rtSchedulerLockNest = 0 → ∀ t ∈ e.rtCurrentThread, ∀ u,
      (e'.thread u).stat = .ready → (e.thread u).stat ≠ .ready →
        (e.thread t).currentPriority ≤ (e.thread u).currentPriority) : Preemptive e' := by
  refine ⟨by rw [hcur]; exact h.started, by rw [hlock]; exact h.nonneg, fun hzero => ?_⟩
  rw [hlock] at hzero
  obtain ⟨t, ht, hready, hmin⟩ := h.urgent hzero
  refine ⟨t, hcur.trans ht, hwake.ready t hready, fun u hu => ?_⟩
  rw [hwake.prio t, hwake.prio u]
  by_cases hready' : (e.thread u).stat = .ready
  · exact hmin u hready'
  · exact hspare hzero t ht u hu hready'

end

/-- The one operation that wakes and does not reschedule. -/
theorem semDetach [Fintype τ] (h : Preemptive e) (hw : SchedWf e)
    (hspare : e.rtSchedulerLockNest = 0 → ∀ t ∈ e.rtCurrentThread, ∀ u ∈ e.waiters s,
      (e.thread t).currentPriority ≤ (e.thread u).currentPriority)
    (hrun : Abs.semDetach e s = some e') : Preemptive e' := by
  have hwake := Waking.semDetach hw hrun
  have hall := semDetach_spec hw hrun
  subst hall
  refine h.wakes hwake (failAll_current _ _) (failAll_lockNest _ _) fun hlock t ht u hu hnot => ?_
  exact hspare hlock t ht u ((failAll_ready hu).resolve_right hnot)

section
omit [DecidableEq σ]

theorem exitCritical (h : Preemptive e) (hw : SchedWf e) (hrun : Abs.exitCritical e = some e') :
    Preemptive e' := by
  unfold Abs.exitCritical at hrun
  dsimp only at hrun
  split at hrun
  · have hsome : e.rtCurrentThread.isSome = true := Option.isSome_iff_ne_none.mpr h.started
    rw [if_pos hsome] at hrun
    have hw₁ : SchedWf { e with rtSchedulerLockNest := 0 } := hw.congr rfl rfl rfl
    exact schedule hw₁ h.started (le_refl 0) hrun
  · rename_i hpos
    cases hrun
    exact ⟨h.started, le_of_not_ge hpos, fun hzero => absurd (le_of_eq hzero) hpos⟩

end

section
omit [DecidableEq τ] [DecidableEq σ]

theorem enterCritical (h : Preemptive e) : Preemptive e.rtEnterCritical := by
  unfold SchedSys.rtEnterCritical
  split
  · refine ⟨h.started, ?_, fun hzero => ?_⟩
    · show 0 ≤ e.rtSchedulerLockNest + 1
      have hnonneg := h.nonneg
      omega
    · have hsucc : e.rtSchedulerLockNest + 1 = 0 := hzero
      have hnonneg := h.nonneg
      omega
  · exact h

end

end Preemptive

/-! ## Which operations those are -/

/-- Calls that do not take it on themselves to make a thread ready, suspend or detach
it without a reschedule, as `rt_thread_resume`, `rt_thread_suspend` and
`rt_thread_detach` do. -/
def Call.Reschedules : Call τ σ υ → Prop
  | .threadResume _ => False
  | .threadSuspend _ => False
  | .threadDetach _ => False
  | _ => True

instance (c : Call τ σ υ) : Decidable c.Reschedules := by
  rcases c <;> dsimp only [Call.Reschedules] <;> infer_instance

/-- If the call is an `rt_sem_detach` with the scheduler unlocked, no waiter is more
urgent than the current thread. -/
def Call.WakesBelow [Fintype τ] (k : RtKernel τ σ υ) : Call τ σ υ → Prop
  | .semDetach s => k.env.rtSchedulerLockNest = 0 → ∀ t ∈ k.env.rtCurrentThread,
      ∀ u ∈ k.waiters s, (k.env.thread t).currentPriority ≤ (k.env.thread u).currentPriority
  | _ => True

instance [Fintype τ] (k : RtKernel τ σ υ) (c : Call τ σ υ) : Decidable (c.WakesBelow k) := by
  rcases c <;> dsimp only [Call.WakesBelow] <;> infer_instance

theorem Preemptive.call [Fintype τ] [Fintype υ] {k : RtKernel τ σ υ} {a a' : SeqKernel τ σ υ}
    (h : Preemptive a.env) (hk : KernelRel k a) (hw : KernelWf a) {c : Call τ σ υ}
    (hc : c.Reschedules ∧ c.WakesBelow k) (hallowed : Abs.CallAllowed a c)
    (hrun : Abs.execCall a c = some a') : Preemptive a'.env := by
  unfold Abs.execCall at hrun
  cases c with
  | threadInit t priority tick =>
    cases hrun
    -- a thread that is initialised is not ready, so not the current one of an unlocked scheduler
    have hready : ∀ u, ((Abs.threadInit a t priority tick).env.thread u).stat = .ready →
        u ≠ t ∧ (a.env.thread u).stat = .ready := by
      intro u hu
      by_cases hut : u = t
      · subst hut; simp [Abs.threadInit] at hu
      · exact ⟨hut, by simpa [Abs.threadInit, hut] using hu⟩
    refine ⟨h.started, h.nonneg, fun hlock => ?_⟩
    obtain ⟨v, hv, hst, hmin⟩ := h.urgent hlock
    have hvt : v ≠ t := by
      rintro rfl
      rcases hallowed.1 with hst' | hst' <;> simp [hst] at hst'
    refine ⟨v, hv, by simpa [Abs.threadInit, hvt] using hst, fun u hu => ?_⟩
    obtain ⟨hut, hu⟩ := hready u hu
    simpa [Abs.threadInit, hvt, hut] using hmin u hu
  | threadStartup t => exact h.startup hw.sched (onSched_spec hrun).1
  | threadResume t => exact hc.1.elim
  | threadSuspend t => exact hc.1.elim
  | threadYield => exact h.yield hw.sched (onSched_spec hrun).1
  | threadDetach t => exact hc.1.elim
  | semInit s value flag => cases hrun; exact h.keep rfl rfl fun _ => ⟨rfl, rfl⟩
  | semTrytake s =>
    obtain ⟨_, hr⟩ := returned_of_map hrun
    rcases semTake_spec hr with ⟨-, -, rfl⟩ | ⟨-, -, -, rfl⟩ | ⟨hb, -⟩
    · exact h.keep rfl rfl fun _ => ⟨rfl, rfl⟩
    · exact h
    · exact absurd rfl hb.2
  | semRelease s => exact h.semRelease hw.sched (onSched_spec hrun).1
  | semControl s cmd arg =>
    obtain ⟨_, hr⟩ := returned_of_map (onSched_spec hrun).1
    exact h.semControl hw.sched hr
  | semDetach s =>
    refine h.semDetach hw.sched ?_ (onSched_spec hrun).1
    have hbelow := hc.2
    simp only [Call.WakesBelow, hk.env.lockNest, hk.env.current, hk.env.thread, hk.waiters]
      at hbelow
    exact hbelow
  | enterCritical => cases hrun; exact h.enterCritical
  | exitCritical => exact h.exitCritical hw.sched (onSched_spec hrun).1
  | schedule => exact Preemptive.schedule hw.sched h.started h.nonneg (onSched_spec hrun).1
  | timerInit u time flag => cases hrun; exact h
  | timerStart u => rw [(onTimers_spec hrun).2]; exact h
  | timerStop u => rw [(onTimers_spec hrun).2]; exact h
  | timerControl u cmd => cases hrun; exact h
  | timerDetach u => rw [(onTimers_spec hrun).2]; exact h

/-! ## Blocking -/

section Blocking
variable {a a' : SeqKernel τ σ υ} {t : τ} {s : σ} {e : Int}

section
omit [DecidableEq σ]

theorem threadSuspend_frame (hw : SchedWf a.env) (h : Abs.threadSuspend a t = some (e, a')) :
    a'.env.rtCurrentThread = a.env.rtCurrentThread ∧
      a'.env.rtSchedulerLockNest = a.env.rtSchedulerLockNest := by
  rcases threadSuspend_spec hw h with ⟨-, -, rfl⟩ | ⟨-, -, henv, -⟩
  · exact ⟨rfl, rfl⟩
  · rw [henv]
    exact ⟨rfl, rfl⟩

end

theorem ipcInsert_frame {f f' : SchedSys τ σ (ThreadRings τ σ)}
    (h : Abs.ipcInsert f s t = some f') :
    f'.rtCurrentThread = f.rtCurrentThread ∧ f'.rtSchedulerLockNest = f.rtSchedulerLockNest := by
  unfold Abs.ipcInsert at h
  split at h
  · obtain ⟨l, -, hret⟩ := Option.bind_eq_some_iff.mp h
    cases hret
    exact ⟨rfl, rfl⟩
  · split at h
    · obtain ⟨l, -, hret⟩ := Option.bind_eq_some_iff.mp h
      cases hret
      exact ⟨rfl, rfl⟩
    · cases h
      exact ⟨rfl, rfl⟩

/-- A last `rt_schedule` has led to `e'`, the current thread and the lock being those of `e`
until then. -/
def SchedulesLast (e e' : SchedSys τ σ (ThreadRings τ σ)) : Prop :=
  ∃ f, SchedWf f ∧ f.rtCurrentThread = e.rtCurrentThread ∧
    f.rtSchedulerLockNest = e.rtSchedulerLockNest ∧ Abs.schedule f = some e'

section
omit [DecidableEq σ]

theorem SchedulesLast.of_schedule {f e e' : SchedSys τ σ (ThreadRings τ σ)} (hw' : SchedWf e')
    (hcur : f.rtCurrentThread = e.rtCurrentThread)
    (hlock : f.rtSchedulerLockNest = e.rtSchedulerLockNest) (h : Abs.schedule f = some e') :
    SchedulesLast e e' := by
  have hsame := schedule_same h
  -- `rt_schedule` changes nothing that the order of the lists depends on
  have hw : SchedWf f := hw'.congr hsame.thread.symm hsame.list.symm hsame.group.symm
  exact ⟨f, hw, hcur, hlock, h⟩

theorem threadSleep_schedules (hw : SchedWf a.env) {tick : Tick} (hw' : SchedWf a'.env)
    (hrun : Abs.threadSleep a tick = some a') : SchedulesLast a.env a'.env := by
  obtain ⟨t, e, a₁, a₂, -, hsusp, htimer, hsched⟩ := threadSleep_spec hrun
  obtain ⟨hcur, hlock⟩ := threadSuspend_frame hw hsusp
  obtain ⟨henv, -⟩ := threadTimerStart_spec htimer
  exact .of_schedule hw' (by rw [henv, hcur]) (by rw [henv, hlock]) (onSched_spec hsched).1

end

theorem takeWait_schedules (hw : KernelWf a) {time : BitVec 32} (hw' : SchedWf a'.env)
    (hwait : Abs.takeWait a s t time = some a') : SchedulesLast a.env a'.env := by
  obtain ⟨e, a₁, a₂, a₃, hsusp, hins, htimer, hsched⟩ := takeWait_spec hwait
  have hw₀ : KernelWf { a with env := a.env.setError t RT_EOK } := hw.setError t RT_EOK
  obtain ⟨hcur₁, hlock₁⟩ := threadSuspend_frame hw₀.sched hsusp
  obtain ⟨hcur₂, hlock₂⟩ := ipcInsert_frame (onSched_spec hins).1
  have henv₃ : a₃.env = a₂.env := by
    rcases htimer with ⟨-, htimer⟩ | ⟨-, rfl⟩
    · exact (threadTimerStart_spec htimer).1
    · rfl
  exact .of_schedule hw' (by rw [henv₃, hcur₂, hcur₁]; rfl) (by rw [henv₃, hlock₂, hlock₁]; rfl)
    (onSched_spec hsched).1

section
omit [DecidableEq σ]

theorem Preemptive.scheduled {e e' : SchedSys τ σ (ThreadRings τ σ)} (h : Preemptive e)
    (hlast : SchedulesLast e e') : Preemptive e' := by
  obtain ⟨f, hw, hcur, hlock, hsched⟩ := hlast
  exact .schedule hw (by rw [hcur]; exact h.started) (by rw [hlock]; exact h.nonneg) hsched

end

theorem Preemptive.semTake (h : Preemptive a.env) (hw : KernelWf a) {time : BitVec 32}
    {o : TakeOutcome τ} (hw' : SchedWf a'.env) (hrun : Abs.semTake a s time = some (o, a')) :
    Preemptive a'.env := by
  rcases semTake_spec hrun with ⟨-, -, rfl⟩ | ⟨-, -, -, rfl⟩ | ⟨-, t, -, -, hwait⟩
  · exact h.keep rfl rfl fun _ => ⟨rfl, rfl⟩
  · exact h
  · exact h.scheduled (takeWait_schedules hw hw' hwait)

end Blocking

/-! ## Runs -/

variable [Fintype τ] [Fintype υ]

/-- An operation that links no node twice, and whose calls reschedule when they wake and
meet `spare`. -/
def Op.Preempts (spare : RtKernel τ σ υ → Call τ σ υ → Prop) (k : RtKernel τ σ υ)
    (op : Op τ σ υ) : Prop :=
  op.LinksOnce k ∧ op.Meets (fun k c => c.Reschedules ∧ spare k c) k

instance (spare : RtKernel τ σ υ → Call τ σ υ → Prop) [∀ k c, Decidable (spare k c)]
    (k : RtKernel τ σ υ) (op : Op τ σ υ) : Decidable (op.Preempts spare k) :=
  inferInstanceAs (Decidable (_ ∧ _))

theorem Preemptive.exec {k k' : RtKernel τ σ υ} {a : SeqKernel τ σ υ} (h : Preemptive a.env)
    (hk : KernelRel k a) (hw : KernelWf a) {op : Op τ σ υ} (hop : op.AllowedLocked k)
    (hpre : op.Preempts (fun k c => c.WakesBelow k) k) (hrun : op.exec k = some k') :
    ∃ a', KernelRel k' a' ∧ KernelWf a' ∧ Preemptive a'.env := by
  obtain ⟨a', ha', hk', hw'⟩ := execLocked_rel hk hw hop hpre.1 hrun
  refine ⟨a', hk', hw', ?_⟩
  have hmeets := hpre.2
  unfold Abs.exec at ha'
  cases op with
  | call c => exact h.call hk hw hmeets ((callAllowed_iff hk c).mp hop) ha'
  | threadSleep tick => exact h.scheduled (threadSleep_schedules hw.sched hw'.sched ha')
  | semTake s time =>
    obtain ⟨_, hr⟩ := returned_of_map ha'
    exact h.semTake hw hw'.sched hr
  | tickIncrease script =>
    refine tick_meets_invariant (I := Preemptive) ?_ ?_ ?_ hk hw hmeets h ha'
    · intro e e' hw h hslice
      exact h.tickSlice hw hslice
    · intro a t e hw hact h htimeout
      exact h.timeout hw.sched hact htimeout
    · intro k a c a' hk hw hc hallowed h hc'
      exact h.call hk hw hc hallowed hc'
  | schedulerStart =>
    have hnone : a.env.rtCurrentThread = none := hk.env.current.symm.trans hop
    exact absurd hnone h.started

/-- The current thread is ready and no ready thread is more urgent. -/
def MostUrgentRuns (k : RtKernel τ σ υ) : Prop :=
  ∃ t, k.env.rtCurrentThread = some t ∧ (k.env.thread t).stat = .ready ∧
    ∀ u, (k.env.thread u).stat = .ready →
      (k.env.thread t).currentPriority ≤ (k.env.thread u).currentPriority

instance (k : RtKernel τ σ υ) : Decidable (MostUrgentRuns k) :=
  inferInstanceAs (Decidable (∃ _, _ ∧ _ ∧ _))

/-- **Preemptive priority.** Once the most urgent ready thread runs with the scheduler
unlocked, it does so again whenever the lock count is 0, as long as no
`rt_sem_detach` of an unlocked scheduler wakes a thread more urgent than the caller. -/
theorem preemptive_priority {idle : τ} {k₀ k : RtKernel τ σ υ}
    (h₀ : ReachableLocked idle (fun k op => op.LinksOnce k) k₀)
    (hunlocked : k₀.env.rtSchedulerLockNest = 0) (hurgent : MostUrgentRuns k₀)
    (hrun : Run.Reach Op.exec (fun k op => op.AllowedLocked k ∧
      op.Preempts (fun k c => c.WakesBelow k) k) k₀ k)
    (hlock : k.env.rtSchedulerLockNest = 0) : MostUrgentRuns k := by
  obtain ⟨a₀, hk₀, hw₀⟩ := h₀.wf
  have hpre₀ : Preemptive a₀.env := by
    obtain ⟨t, hcur, hst, hmin⟩ := hurgent
    rw [hk₀.env.lockNest] at hunlocked
    rw [hk₀.env.current] at hcur
    rw [hk₀.env.thread] at hst hmin
    exact ⟨by simp [hcur], by rw [hunlocked], fun _ => ⟨t, hcur, hst, hmin⟩⟩
  obtain ⟨a, hk, hw, hpre⟩ : ∃ a, KernelRel k a ∧ KernelWf a ∧ Preemptive a.env := by
    refine Run.invariant (I := fun k => ∃ a, KernelRel k a ∧ KernelWf a ∧ Preemptive a.env)
      ?_ ⟨a₀, hk₀, hw₀, hpre₀⟩ hrun
    intro k op k' hI hok hs
    obtain ⟨a, hk, hw, hpre⟩ := hI
    exact hpre.exec hk hw hok.1 hok.2 hs
  rw [hk.env.lockNest] at hlock
  rw [MostUrgentRuns, hk.env.current, hk.env.thread]
  exact hpre.urgent hlock

end Preempt

/-- Thread 2 runs; thread 1, the more urgent, waits for a semaphore. -/
def urgentWaits : List (Op (Fin 3) (Fin 1) Empty) :=
  [.call (.threadInit 1 3 10), .call (.threadInit 2 5 10), .call (.threadStartup 1),
    .call (.threadStartup 2), .call (.semInit 0 0 0), .schedulerStart, .semTake 0 (-1)]

/-- A release under the lock wakes thread 1, and the exit dispatches it. -/
theorem release_under_lock : ∃ k₀ k,
    runLocked 0 (fun k op => op.LinksOnce k) urgentWaits = some k₀ ∧
    Run.exec Op.exec (fun k op => op.AllowedLocked k ∧ op.Preempts (fun k c => c.WakesBelow k) k)
      [.call .enterCritical, .call (.semRelease 0), .call .exitCritical] k₀ = some k ∧
    k.env.rtCurrentThread = some 1 ∧ MostUrgentRuns k := by
  obtain ⟨k₀, hk₀, hreach, hp⟩ := reachableLocked_of_run 0 (fun k op => op.LinksOnce k) urgentWaits
    (fun k => decide (k.env.rtSchedulerLockNest = 0) && decide (MostUrgentRuns k) &&
      (Run.exec Op.exec (fun k op => op.AllowedLocked k ∧ op.Preempts (fun k c => c.WakesBelow k) k)
        [.call .enterCritical, .call (.semRelease 0), .call .exitCritical] k).any
          fun k : RtKernel (Fin 3) (Fin 1) Empty =>
            decide (k.env.rtSchedulerLockNest = 0) && decide (k.env.rtCurrentThread = some 1))
    (by decide +kernel)
  simp only [Bool.and_eq_true, decide_eq_true_eq, Option.any_eq_true] at hp
  obtain ⟨⟨hunlocked, hurgent⟩, k, hk, hlock, hcur⟩ := hp
  exact ⟨k₀, k, hk₀, hk, hcur,
    preemptive_priority hreach hunlocked hurgent (Run.exec_reach hk) hlock⟩

/-- Detaching the semaphore instead makes thread 1 ready, and thread 2 runs on. -/
theorem detach_forgets :
    ¬ ∀ k₀ k : RtKernel (Fin 3) (Fin 1) Empty,
      ReachableLocked 0 (fun k op => op.LinksOnce k) k₀ → k₀.env.rtSchedulerLockNest = 0 →
      MostUrgentRuns k₀ →
      Run.Reach Op.exec (fun k op => op.AllowedLocked k ∧ op.Preempts (fun _ _ => True) k) k₀ k →
      k.env.rtSchedulerLockNest = 0 → MostUrgentRuns k := by
  intro hclaim
  obtain ⟨k₀, -, hreach, hp⟩ := reachableLocked_of_run 0 (fun k op => op.LinksOnce k) urgentWaits
    (fun k => decide (k.env.rtSchedulerLockNest = 0) && decide (MostUrgentRuns k) &&
      (Run.exec Op.exec (fun k op => op.AllowedLocked k ∧ op.Preempts (fun _ _ => True) k)
        [.call (.semDetach 0)] k).any fun k : RtKernel (Fin 3) (Fin 1) Empty =>
          decide (k.env.rtSchedulerLockNest = 0) && decide (¬ MostUrgentRuns k))
    (by decide +kernel)
  simp only [Bool.and_eq_true, decide_eq_true_eq, Option.any_eq_true] at hp
  obtain ⟨⟨hunlocked, hurgent⟩, k, hk, hlock, hnot⟩ := hp
  exact hnot (hclaim k₀ k hreach hunlocked hurgent (Run.exec_reach hk) hlock)

end SampleRtos
