import SampleRtos.Kernel.Wf

/-!
# What a blocking call does

The net effect of suspending the current thread, of `rt_thread_sleep` and of an
`rt_sem_take` that waits, on the fields that later arguments read: the calling
thread is suspended and, when it waits, joins one waiting list; its timer is
stopped and, with a timeout, started again; nobody else is touched.
-/

namespace SampleRtos

open Intrusive

section Blocking
variable {τ σ υ : Type} [DecidableEq τ] [DecidableEq σ] [DecidableEq υ]
  {a a' a'' : SeqKernel τ σ υ} {t : τ} {s : σ}

/-- `t` may block: it is ready, or suspended and on no list. -/
def CanBlock (a : SeqKernel τ σ υ) (t : τ) : Prop :=
  (a.env.thread t).stat = .ready ∨ (a.env.thread t).stat = .suspend ∧ a.env.list.Free t

/-- No timer but that of `t` has changed. -/
structure OtherTimers (t : τ) (m m' : SeqTimers τ υ) : Prop where
  tick : m'.rtTick = m.rtTick
  mem : ∀ x, x ≠ .inl t → (x ∈ m'.queue ↔ x ∈ m.queue)
  timer : ∀ x, x ≠ .inl t → m'.timer x = m.timer x

section
omit [DecidableEq τ] [DecidableEq υ]

theorem OtherTimers.refl (t : τ) (m : SeqTimers τ υ) : OtherTimers t m m :=
  ⟨rfl, fun _ _ => Iff.rfl, fun _ _ => rfl⟩

theorem OtherTimers.trans {m m' m'' : SeqTimers τ υ} (h : OtherTimers t m m')
    (h' : OtherTimers t m' m'') : OtherTimers t m m'' :=
  ⟨h'.tick.trans h.tick, fun x hx => (h'.mem x hx).trans (h.mem x hx),
    fun x hx => (h'.timer x hx).trans (h.timer x hx)⟩

end

theorem OtherTimers.stopped {m : SeqTimers τ υ} (hv : m.timerList.Valid) (t : τ) :
    OtherTimers t m (m.stopped (.inl t)) where
  tick := rfl
  mem x hx := by
    have hmem : x ∈ (m.stopped (.inl t)).queue ↔ x ∈ m.queue ∧ x ≠ .inl t :=
      TimerSys.mem_others hv
    simpa [hx] using hmem
  timer x hx := by simp [TimerSys.stopped, hx]

/-- The effect of suspending the current thread `t`. -/
structure Suspends (a : SeqKernel τ σ υ) (t : τ) (a' : SeqKernel τ σ υ) : Prop where
  wf : KernelWf a'
  thread : a'.env.thread =
    Function.update a.env.thread t { a.env.thread t with stat := .suspend }
  sem : a'.env.sem = a.env.sem
  current : a'.env.rtCurrentThread = a.env.rtCurrentThread
  lockNest : a'.env.rtSchedulerLockNest = a.env.rtSchedulerLockNest
  waiters : a'.env.waiters = a.env.waiters
  readyList : ∀ p, a'.env.readyList p = (a.env.readyList p).erase t
  free : a'.env.list.Free t
  timers : OtherTimers t a.timers a'.timers
  unlinked : (a.env.thread t).stat = .ready → .inl t ∉ a'.timers.queue
  linked : .inl t ∈ a'.timers.queue → .inl t ∈ a.timers.queue

section
omit [DecidableEq σ]

theorem threadSuspend_suspends (hw : KernelWf a) (hcan : CanBlock a t) {e : Int}
    (h : Abs.threadSuspend a t = some (e, a')) : Suspends a t a' := by
  obtain ⟨hwf, -, -⟩ := hw.threadSuspend h
  rcases threadSuspend_spec hw.sched h with ⟨hst, -, rfl⟩ | ⟨hst, -, henv, htimers⟩
  · obtain ⟨hsusp, hfree⟩ := hcan.resolve_left hst
    exact
      { wf := hwf
        thread := by rw [← hsusp]; exact (Function.update_eq_self t _).symm
        sem := rfl
        current := rfl
        lockNest := rfl
        waiters := rfl
        readyList := fun p => (List.erase_of_not_mem (hfree (.ready p))).symm
        free := hfree
        timers := .refl t _
        unlinked := fun hr => absurd hr hst
        linked := id }
  · have hnot : ∀ s, t ∉ a.env.waiters s := fun s hs => by
      simp [hw.sched.waiting t s hs] at hst
    have hmem : .inl t ∉ a'.timers.queue ∧ OtherTimers t a.timers a'.timers := by
      rcases htimers with ⟨hact, htimers⟩ | ⟨-, -, htimers⟩ <;> rw [htimers]
      · exact ⟨fun hq => hact (hw.timers.activated t hq), .refl t _⟩
      · exact ⟨hw.timers.not_mem_erase _, .stopped hw.timers.valid t⟩
    exact
      { wf := hwf
        thread := by rw [henv]; rfl
        sem := by rw [henv]; rfl
        current := by rw [henv]; rfl
        lockNest := by rw [henv]; rfl
        waiters := by
          funext s
          rw [henv]
          exact List.erase_of_not_mem (hnot s)
        readyList := fun p => by rw [henv]; rfl
        free := by rw [henv]; exact hw.sched.valid.erase_free t
        timers := hmem.2
        unlinked := fun _ => hmem.1
        linked := fun hq => absurd hq hmem.1 }

/-- The effect of starting the timer of the suspended thread `t`. -/
theorem threadTimerStart_frame (hw : KernelWf a) {tick : Tick}
    (h : Abs.threadTimerStart a t tick = some a') :
    a'.env = a.env ∧ OtherTimers t a.timers a'.timers ∧ .inl t ∈ a'.timers.queue ∧
      (a'.timers.timer (.inl t)).timeoutTick = a.timers.rtTick + tick := by
  obtain ⟨henv, hstart⟩ := threadTimerStart_spec h
  have hv : (a.timers.rtTimerControl (threadTimer t) (.setTime tick)).timerList.Valid :=
    hw.timers.valid
  obtain ⟨xs, ys, hm⟩ := Abs.timerStart_started hv hstart
  refine ⟨henv, ⟨hm.rtTick, fun x hx => ?_, fun x hx => ?_⟩, hm.mem_queue.mpr (.inl rfl), ?_⟩
  · exact hm.mem_queue.trans (or_iff_right hx)
  · rw [hm.other x hx]
    simp [hx]
  · rw [hm.self]
    simp [RtTimer.started, RtTimer.control]

end

/-! ## Sleeping -/

/-- After a reschedule with the lock as it was in `e`, some ready thread is current
unless the lock is held. -/
def Dispatches (e e' : SchedSys τ σ (ThreadRings τ σ)) : Prop :=
  ∃ u, (e'.thread u).stat = .ready ∧
    e'.rtCurrentThread = if e.rtSchedulerLockNest = 0 then some u else e.rtCurrentThread

/-- The effect of `rt_thread_sleep` in `t`. -/
structure Sleeps (a : SeqKernel τ σ υ) (t : τ) (a' : SeqKernel τ σ υ) : Prop where
  wf : KernelWf a'
  thread : a'.env.thread =
    Function.update a.env.thread t { a.env.thread t with stat := .suspend }
  sem : a'.env.sem = a.env.sem
  lockNest : a'.env.rtSchedulerLockNest = a.env.rtSchedulerLockNest
  waiters : a'.env.waiters = a.env.waiters
  readyList : ∀ p, a'.env.readyList p = (a.env.readyList p).erase t
  timers : OtherTimers t a.timers a'.timers
  linked : .inl t ∈ a'.timers.queue
  dispatch : Dispatches a.env a'.env

section
omit [DecidableEq σ]

theorem threadSleep_sleeps (hw : KernelWf a) (hcan : CanBlock a t)
    (hcur : a.env.rtCurrentThread = some t) {tick : Tick}
    (h : Abs.threadSleep a tick = some a') : Sleeps a t a' := by
  have hwf := hw.threadSleep ⟨t, hcur, hcan⟩ h
  obtain ⟨t', e, a₁, a₂, hcur', hsusp, htimer, hsched⟩ := threadSleep_spec h
  obtain rfl : t' = t := Option.some.inj (hcur'.symm.trans hcur)
  have h₁ := threadSuspend_suspends hw hcan hsusp
  obtain ⟨henv₂, htimers₂, hlinked, -⟩ := threadTimerStart_frame h₁.wf htimer
  obtain ⟨hsched, htimers⟩ := onSched_spec hsched
  rw [henv₂] at hsched
  have hsame := schedule_same hsched
  exact
    { wf := hwf
      thread := hsame.thread.trans h₁.thread
      sem := hsame.sem.trans h₁.sem
      lockNest := hsame.lockNest.trans h₁.lockNest
      waiters := hsame.waiters.trans h₁.waiters
      readyList := fun p => by rw [hsame.readyList]; exact h₁.readyList p
      timers := by rw [htimers]; exact h₁.timers.trans htimers₂
      linked := by rw [htimers]; exact hlinked
      dispatch := by
        have hdisp := schedule_dispatch h₁.wf.sched hsched
        rwa [h₁.lockNest, h₁.current] at hdisp }

end

/-! ## Waiting -/

/-- `t` stands in the waiting list of `s` where the flag puts it: behind everyone,
or behind everyone at least as urgent. -/
def Joins (e : SchedSys τ σ (ThreadRings τ σ)) (s : σ) (t : τ) (ts ts' : List τ) : Prop :=
  ∃ xs ys, ts = xs ++ ys ∧ ts' = xs ++ t :: ys ∧
    ((e.sem s).flag = RT_IPC_FLAG_FIFO → ys = []) ∧
    ((e.sem s).flag = RT_IPC_FLAG_PRIO →
      (∀ u ∈ xs, (e.thread u).currentPriority ≤ (e.thread t).currentPriority) ∧
      ∀ u ∈ ys.head?, (e.thread t).currentPriority < (e.thread u).currentPriority)

/-- The effect of an `rt_sem_take` of `s` that waits in `t`. -/
structure Waits (a : SeqKernel τ σ υ) (s : σ) (t : τ) (time : BitVec 32)
    (a' : SeqKernel τ σ υ) : Prop where
  wf : KernelWf a'
  thread : a'.env.thread =
    Function.update a.env.thread t { a.env.thread t with error := RT_EOK, stat := .suspend }
  sem : a'.env.sem = a.env.sem
  lockNest : a'.env.rtSchedulerLockNest = a.env.rtSchedulerLockNest
  dispatch : Dispatches a.env a'.env
  waiters_ne : ∀ s', s' ≠ s → a'.env.waiters s' = a.env.waiters s'
  joins : (a.env.sem s).flag ≠ RT_IPC_FLAG_FIFO ∧ (a.env.sem s).flag ≠ RT_IPC_FLAG_PRIO ∧
      a'.env.waiters s = a.env.waiters s ∨
    Joins a.env s t (a.env.waiters s) (a'.env.waiters s)
  readyList : ∀ p, a'.env.readyList p = (a.env.readyList p).erase t
  timers : OtherTimers t a.timers a'.timers
  armed : 0 < time.toInt → .inl t ∈ a'.timers.queue
  unarmed : ¬ 0 < time.toInt → (a.env.thread t).stat = .ready → .inl t ∉ a'.timers.queue

/-- The effect of the insertion in `rt_ipc_list_suspend`: nothing but the waiting list of
`s` is touched, and that not under a flag the source does not know. -/
structure Inserts (e : SchedSys τ σ (ThreadRings τ σ)) (s : σ) (t : τ)
    (e' : SchedSys τ σ (ThreadRings τ σ)) : Prop where
  sem : e'.sem = e.sem
  current : e'.rtCurrentThread = e.rtCurrentThread
  lockNest : e'.rtSchedulerLockNest = e.rtSchedulerLockNest
  readyList : e'.readyList = e.readyList
  waiters_ne : ∀ s', s' ≠ s → e'.waiters s' = e.waiters s'
  joins : (e.sem s).flag ≠ RT_IPC_FLAG_FIFO ∧ (e.sem s).flag ≠ RT_IPC_FLAG_PRIO ∧
      e'.waiters s = e.waiters s ∨
    Joins e s t (e.waiters s) (e'.waiters s)

theorem ipcInsert_inserts {e e' : SchedSys τ σ (ThreadRings τ σ)}
    (hlive : e.list.live (.item t) = true) (h : Abs.ipcInsert e s t = some e') :
    Inserts e s t e' := by
  rcases ipcInsert_spec hlive h with
    ⟨hfifo, hprio, rfl⟩ | ⟨xs, ys, hs, -, rfl, hfifo, hprio⟩
  · exact ⟨rfl, rfl, rfl, rfl, fun _ _ => rfl, .inl ⟨hfifo, hprio, rfl⟩⟩
  · refine ⟨rfl, rfl, rfl, by simp, fun s' hs' => ?_, .inr ⟨xs, ys, hs, ?_, hfifo, hprio⟩⟩
    · rw [SchedSys.setWaiters_waiters, if_neg hs']
    · simp

section
omit [DecidableEq σ] [DecidableEq υ]

theorem canBlock_setError (e : Int) :
    CanBlock { a with env := a.env.setError t e } t ↔ CanBlock a t := by
  simp only [CanBlock, SchedSys.setError, SchedSys.setThread_thread, Function.update_self]
  rfl

theorem Suspends.live (h : Suspends a t a') : a'.env.list.live (.item t) = true :=
  h.wf.sched.live t (by rw [h.thread]; simp)

end

section
omit [DecidableEq υ]

/-- A thread that was suspended is put into the waiting list. -/
theorem Suspends.inserted (h : Suspends a t a')
    (hins : a'.onSched (fun e => Abs.ipcInsert e s t) = some a'') :
    KernelWf a'' ∧ a''.env.thread = a'.env.thread ∧ Inserts a'.env s t a''.env ∧
      a''.timers = a'.timers := by
  obtain ⟨hins, htimers⟩ := onSched_spec hins
  have hst : (a'.env.thread t).stat = .suspend := by rw [h.thread]; simp
  obtain ⟨hwf, hthread, hlive'⟩ := ipcInsert_wf h.wf.sched h.free hst hins
  refine ⟨?_, hthread, ipcInsert_inserts h.live hins, htimers⟩
  have hw := h.wf.of_env hwf (fun u hu => by rwa [hthread]) fun n hn => by rwa [hlive']
  rwa [← htimers] at hw

end

section
omit [DecidableEq σ]

/-- The timer of the waiting thread is started if the time is positive, and left stopped
otherwise. -/
theorem takeTimer_frame (hw : KernelWf a) {time : BitVec 32}
    (h : 0 < time.toInt ∧ Abs.threadTimerStart a t time = some a' ∨
      ¬ 0 < time.toInt ∧ a' = a) :
    a'.env = a.env ∧ OtherTimers t a.timers a'.timers ∧
      (0 < time.toInt → .inl t ∈ a'.timers.queue) ∧
      (¬ 0 < time.toInt → a'.timers = a.timers) := by
  rcases h with ⟨htime, htimer⟩ | ⟨htime, rfl⟩
  · obtain ⟨henv, hother, hlinked, -⟩ := threadTimerStart_frame hw htimer
    exact ⟨henv, hother, fun _ => hlinked, fun hn => absurd htime hn⟩
  · exact ⟨rfl, .refl t _, fun ht => absurd ht htime, fun _ => rfl⟩

end

theorem takeWait_waits (hw : KernelWf a) (hcan : CanBlock a t) {time : BitVec 32}
    (h : Abs.takeWait a s t time = some a') : Waits a s t time a' := by
  have hwf := hw.takeWait hcan h
  obtain ⟨e, a₁, a₂, a₃, hsusp, hins, htimer, hsched⟩ := takeWait_spec h
  have h₁ := threadSuspend_suspends (hw.setError t RT_EOK) ((canBlock_setError _).mpr hcan) hsusp
  have hthread₁ : a₁.env.thread = Function.update a.env.thread t
      { a.env.thread t with error := RT_EOK, stat := .suspend } := by
    rw [h₁.thread]
    simp [SchedSys.setError]
  obtain ⟨hw₂, hthread₂, h₂, htimers₂⟩ := h₁.inserted hins
  obtain ⟨henv₃, hother₃, harmed, hunarmed⟩ := takeTimer_frame hw₂ htimer
  obtain ⟨hsched, htimers⟩ := onSched_spec hsched
  rw [henv₃] at hsched
  have hsame := schedule_same hsched
  -- the insertion compares priorities after the error was reset, which are the same
  have hprio₁ : ∀ u, (a₁.env.thread u).currentPriority = (a.env.thread u).currentPriority := by
    intro u
    rw [hthread₁]
    by_cases hut : u = t
    · subst hut; simp
    · simp [hut]
  have hwaiters₁ : a₁.env.waiters = a.env.waiters := h₁.waiters
  have hsem₁ : a₁.env.sem = a.env.sem := h₁.sem
  exact
    { wf := hwf
      thread := hsame.thread.trans (hthread₂.trans hthread₁)
      sem := hsame.sem.trans (h₂.sem.trans hsem₁)
      lockNest := hsame.lockNest.trans (h₂.lockNest.trans h₁.lockNest)
      dispatch := by
        have hdisp := schedule_dispatch hw₂.sched hsched
        rwa [h₂.lockNest, h₂.current, h₁.lockNest, h₁.current] at hdisp
      waiters_ne := fun s' hs' => by rw [hsame.waiters, h₂.waiters_ne s' hs', hwaiters₁]
      joins := by
        rw [hsame.waiters]
        simpa only [Joins, hprio₁, hwaiters₁, hsem₁] using h₂.joins
      readyList := fun p => by rw [hsame.readyList, h₂.readyList]; exact h₁.readyList p
      timers := by
        rw [htimers]
        exact h₁.timers.trans (htimers₂ ▸ hother₃)
      armed := by rw [htimers]; exact harmed
      unarmed := fun htime hst => by
        rw [htimers, hunarmed htime, htimers₂]
        refine h₁.unlinked ?_
        simpa [SchedSys.setError] using hst }

end Blocking

end SampleRtos
