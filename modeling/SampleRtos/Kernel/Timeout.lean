import SampleRtos.Kernel.Deadlines

/-!
# Blocking for a number of ticks

A thread calls `rt_thread_sleep(n)`, or `rt_sem_take` with the timeout `n` on an empty
semaphore, and then the other threads and the ticks go on without releasing, resetting or
detaching that semaphore and without a call about the thread. It stays suspended through
`n - 1` ticks; the next one fires its timer and puts it on its ready list. With a negative
timeout it stays suspended for ever.
-/

namespace SampleRtos

open Intrusive HalfRange

section Timeout
variable {τ σ υ : Type} [DecidableEq τ] [DecidableEq σ] [DecidableEq υ]

/-! ## The others -/

/-- A call that wakes threads waiting for `s`: a release, a reset, a detach. -/
def Call.Signals (s : σ) : Call τ σ υ → Prop
  | .semRelease q => q = s
  | .semControl q cmd _ => q = s ∧ cmd = RT_IPC_CMD_RESET
  | .semDetach q => q = s
  | _ => False

instance (s : σ) (c : Call τ σ υ) : Decidable (c.Signals s) := by
  rcases c <;> dsimp only [Call.Signals] <;> infer_instance

/-- A call that is neither about `t` nor wakes from the semaphore it waits for, if any. -/
def Call.Leaves (t : τ) (awaited : Option σ) (c : Call τ σ υ) : Prop :=
  c.Avoids t ∧ ∀ s ∈ awaited, ¬ c.Signals s

instance (t : τ) (awaited : Option σ) (c : Call τ σ υ) : Decidable (c.Leaves t awaited) :=
  inferInstanceAs (Decidable (_ ∧ ∀ s ∈ awaited, _))

namespace Op

/-- The number of calls of `rt_tick_increase`. -/
def ticks : Op τ σ υ → Nat
  | .tickIncrease _ => 1
  | _ => 0

/-- The semaphore a blocking operation waits for. -/
def awaits : Op τ σ υ → Option σ
  | .semTake s _ => some s
  | _ => none

/-- A tick, or an operation of a thread other than `t`, that leaves `t` alone. -/
def ByOthers [Fintype τ] [Fintype υ] (t : τ) (awaited : Option σ) (k : RtKernel τ σ υ)
    (op : Op τ σ υ) : Prop :=
  (op.ticks = 0 → k.env.rtCurrentThread ≠ some t) ∧ op.Meets (fun _ c => c.Leaves t awaited) k

instance [Fintype τ] [Fintype υ] (t : τ) (awaited : Option σ) (k : RtKernel τ σ υ)
    (op : Op τ σ υ) : Decidable (op.ByOthers t awaited k) :=
  inferInstanceAs (Decidable ((_ → _) ∧ _))

section
omit [DecidableEq τ] [DecidableEq σ] [DecidableEq υ]

theorem eq_tickIncrease {op : Op τ σ υ} (h : op.ticks ≠ 0) :
    ∃ script, op = .tickIncrease script := by
  cases op with
  | tickIncrease script => exact ⟨script, rfl⟩
  | _ => exact absurd rfl h

end

end Op

/-- Runs of ticks and of the operations of others than `t`, with the ticks counted. -/
def amongOthers [Fintype τ] [Fintype υ] (t : τ) (awaited : Option σ) :
    Observer τ σ υ (Op τ σ υ) Nat where
  perform := some
  note _ n op := n + op.ticks
  ok k _ op := op.Timed k ∧ op.ByOthers t awaited k

instance [Fintype τ] [Fintype υ] (t : τ) (awaited : Option σ) (k : RtKernel τ σ υ) (n : Nat)
    (op : Op τ σ υ) : Decidable ((amongOthers t awaited).ok k n op) :=
  inferInstanceAs (Decidable (_ ∧ _))

/-- `k'` comes `m` ticks after `k` in such a run. -/
def Later [Fintype τ] [Fintype υ] (t : τ) (awaited : Option σ) (k k' : RtKernel τ σ υ) (m : Nat) :
    Prop :=
  Run.Reach (amongOthers t awaited).exec (amongOthers t awaited).Allowed (k, 0) (k', m)

/-- A blocking operation with the timeout `n`. -/
inductive BlocksFor (k : RtKernel τ σ υ) (n : BitVec 32) : Op τ σ υ → Prop where
  | sleep : BlocksFor k n (.threadSleep n)
  | take (s : σ) (h : (k.env.sem s).value = 0) : BlocksFor k n (.semTake s n)

/-! ## What is to happen to the thread -/

section Outcome
variable [Fintype τ] [Fintype υ]

/-- From `k` to `k'` the suspended thread `t` times out: it goes from any waiting list to
the end of its ready list, and the semaphores stay as they are. -/
structure TimesOut (t : τ) (k k' : RtKernel τ σ υ) : Prop where
  suspended : (k.env.thread t).stat = .suspend
  record : k'.env.thread t = { k.env.thread t with error := -RT_ETIMEOUT, stat := .ready }
  appended : k'.readyList (k.env.thread t).currentPriority =
    k.readyList (k.env.thread t).currentPriority ++ [t]
  apart : ∀ s, t ∉ k'.waiters s
  sem : k'.env.sem = k.env.sem

/-- The firing of another timer, with `t` suspended before and after. -/
def TimerFiring.Passes (t : τ) (f : TimerFiring τ σ υ) : Prop :=
  f.timer ≠ threadTimer t ∧ (f.before.env.thread t).stat = .suspend ∧
    (f.after.env.thread t).stat = .suspend

/-- `t` is suspended in `k`, and the firings of the tick that follows pass it over. -/
structure Suspended (t : τ) (awaited : Option σ) (k : RtKernel τ σ υ) (m : Nat) : Prop where
  stat : (k.env.thread t).stat = .suspend
  tick : ∀ script k', (amongOthers t awaited).Allowed (k, m) (.tickIncrease script) →
    kernelTick script k = some k' → ∀ f ∈ tickFirings script k, f.Passes t

/-- `t`, which has blocked for `n` ticks, as it stands in `k`, `m` ticks later. -/
structure WakesAfter (t : τ) (awaited : Option σ) (n : Nat) (k : RtKernel τ σ υ) (m : Nat) :
    Prop where
  waiting : m < n → (k.env.thread t).stat = .suspend
  before : m + 1 < n → Suspended t awaited k m
  tick : m + 1 = n → ∀ script k',
    (amongOthers t awaited).Allowed (k, m) (.tickIncrease script) →
    kernelTick script k = some k' →
      ∃ f ∈ tickFirings script k, f.timer = threadTimer t ∧ TimesOut t f.before f.after
  woken : n ≤ m → (k.env.thread t).stat = .ready ∧ (k.env.thread t).error = -RT_ETIMEOUT ∧
    rtSemTakeReturn k.env t = -RT_ETIMEOUT

end Outcome

/-! ## A blocked thread -/

/-- `t` is suspended, not current, and waits at most for `awaited`. -/
structure Blocked (t : τ) (awaited : Option σ) (e : SchedSys τ σ (ThreadRings τ σ)) : Prop where
  suspended : (e.thread t).stat = .suspend
  apart : ∀ s, t ∈ e.waiters s → s ∈ awaited
  current : e.rtCurrentThread ≠ some t

section Untouched
variable {e e' : SchedSys τ σ (ThreadRings τ σ)} {a a' : SeqKernel τ σ υ} {t u : τ} {s : σ}
  {awaited : Option σ}

section
omit [DecidableEq τ] [DecidableEq σ] [DecidableEq υ]

/-- A call that leaves `t` alone does not wake it. -/
theorem Call.Leaves.not_wokenBy {c : Call τ σ υ} (hc : c.Leaves t awaited)
    (hapart : ∀ s, t ∈ e.waiters s → s ∈ awaited) :
    t ∉ wokenBy (υ := υ) e.thread e.waiters (.call c) := by
  obtain ⟨havoids, hsignals⟩ := hc
  intro hmem
  cases c with
  | threadStartup u => exact havoids (List.mem_singleton.mp hmem).symm
  | threadResume u =>
    simp only [wokenBy] at hmem
    split at hmem
    · exact havoids (List.mem_singleton.mp hmem).symm
    · cases hmem
  | semRelease q => exact hsignals q (hapart q (List.mem_of_mem_take hmem)) rfl
  | semControl q cmd arg =>
    simp only [wokenBy] at hmem
    split at hmem
    · rename_i hcmd
      exact hsignals q (hapart q hmem) ⟨rfl, hcmd⟩
    · cases hmem
  | semDetach q => exact hsignals q (hapart q hmem) rfl
  | _ => cases hmem

end

section
omit [DecidableEq σ]

/-- A thread that is not ready does not become the current one. -/
theorem Settles.current_ne (h : Settles e e') (hcur : e.rtCurrentThread ≠ some t)
    (hst : (e'.thread t).stat ≠ .ready) : e'.rtCurrentThread ≠ some t := by
  cases h with
  | kept hcur' hlock => rwa [hcur']
  | nested hcur' hlock hpos => rwa [hcur']
  | opened hnone hcur' hlock => simp [hcur']
  | scheduled f hw hcur' hlock hrun =>
    obtain ⟨u, hready, hdisp⟩ := schedule_dispatch hw hrun
    rw [hdisp]
    split
    · intro hut
      cases hut
      exact hst hready
    · rwa [hcur']

end

section
omit [DecidableEq σ] [DecidableEq υ]

theorem Sleeps.bystander (h : Sleeps a u a') (htu : t ≠ u) : Bystander t a.env a'.env :=
  .update htu h.thread h.waiters

end

section
omit [DecidableEq υ]

theorem Waits.bystander {time : BitVec 32} (h : Waits a s u time a') (htu : t ≠ u) :
    Bystander t a.env a'.env := by
  refine ⟨by simp [h.thread, htu], fun q => ?_⟩
  by_cases hq : q = s
  · subst hq
    rcases h.joins with ⟨-, -, heq⟩ | ⟨xs, ys, hold, hnew, -⟩
    · rw [heq]
    · simp [hold, hnew, htu]
  · rw [h.waiters_ne q hq]

end

/-- The slice of another thread. -/
theorem Bystander.tickSlice (hw : SchedWf e) (hcur : e.rtCurrentThread ≠ some t)
    (h : Abs.tickSlice e = some e') : Bystander t e e' := by
  have hwaiters : e'.waiters = e.waiters := funext (tickSlice_waiters hw h)
  obtain ⟨u, hu, hslice⟩ := tickSlice_spec hw h
  have htu : t ≠ u := fun htu => hcur (htu ▸ hu)
  rcases hslice with ⟨-, rfl⟩ | ⟨-, ⟨rfl, -⟩ | ⟨-, hsched⟩⟩
  · exact update htu rfl hwaiters
  · exact update htu rfl hwaiters
  · exact update htu ((schedule_same hsched).thread.trans rfl) hwaiters

theorem Bystander.timeout (htu : t ≠ u) (h : Abs.timeout e u = some e') : Bystander t e e' :=
  (relist htu).trans (schedule (timeout_spec h).2)

namespace Blocked

section
omit [DecidableEq τ] [DecidableEq σ]

theorem of_bystander (h : Blocked t awaited e) (hb : Bystander t e e')
    (hcur : e'.rtCurrentThread ≠ some t) : Blocked t awaited e' :=
  ⟨by rw [hb.thread]; exact h.suspended, fun s hs => h.apart s ((hb.waiters s).mp hs), hcur⟩

end

section
omit [DecidableEq σ]

theorem settles (h : Blocked t awaited e) (hb : Bystander t e e') (hset : Settles e e') :
    Blocked t awaited e' := by
  refine h.of_bystander hb (hset.current_ne h.current ?_)
  rw [hb.thread, h.suspended]
  simp

end

theorem call [Fintype τ] (h : Blocked t awaited a.env) (hw : KernelWf a) {c : Call τ σ υ}
    (hc : c.Leaves t awaited) (hrun : Abs.execCall a c = some a') : Blocked t awaited a'.env := by
  have hb := Bystander.call hw hc.1 (hc.not_wokenBy h.apart) hrun
  by_cases hlocks : c = .enterCritical
  · subst hlocks
    cases hrun
    refine h.of_bystander hb ?_
    have hsame : a.env.rtEnterCritical.rtCurrentThread = a.env.rtCurrentThread := by
      unfold SchedSys.rtEnterCritical
      split <;> rfl
    rw [hsame]
    exact h.current
  · exact h.settles hb (Settles.call hw hlocks hrun)

end Blocked

end Untouched

/-! ## While the timer runs, and after -/

/-- `t` is blocked, with so many ticks left if it has a timeout. -/
structure Dormant (t : τ) (awaited : Option σ) (n : Option Nat) (a : SeqKernel τ σ υ) : Prop where
  ordered : Ordered (alone a.timers)
  blocked : Blocked t awaited a.env
  timer : CountsDown a.timers t n

/-- `t` has timed out, and its timer is not running. -/
structure Woken (t : τ) (a : SeqKernel τ σ υ) : Prop where
  ready : (a.env.thread t).stat = .ready
  error : (a.env.thread t).error = -RT_ETIMEOUT
  timer : .inl t ∉ a.timers.queue

/-- What the callbacks of the others do. -/
def OthersCall (t : τ) (awaited : Option σ) (k : RtKernel τ σ υ) (c : Call τ σ υ) : Prop :=
  c.Timed k ∧ c.Leaves t awaited

section Phases
variable {a a' : SeqKernel τ σ υ} {k : RtKernel τ σ υ} {t : τ} {x : τ ⊕ υ} {awaited : Option σ}
  {n : Option Nat}

/-- The firing of another timer does nothing to the timer of `t`. -/
theorem SameTimer.deactivate {m : SeqTimers τ υ} (hxt : x ≠ threadTimer t) :
    SameTimer (.inl t) m (m.deactivate x) :=
  setTimer (Ne.symm hxt)

theorem SameTimer.restart {m m' : SeqTimers τ υ} (hv : m.timerList.Valid) (hxt : x ≠ threadTimer t)
    (hstart : Abs.timerStart (m.deactivate x) x = some m') : SameTimer (.inl t) m m' :=
  (deactivate hxt).trans (start hv (Ne.symm hxt) hstart)

/-- `t` stays blocked through the firing of another timer. -/
theorem dormant_fireKeeps [Fintype τ] [Fintype υ] (hxt : x ≠ threadTimer t) :
    FireKeeps (OthersCall t awaited) RestartTimed x (Dormant (υ := υ) t awaited n) where
  unlink hw h :=
    ⟨(ordered_fireKeeps x).unlink hw h.ordered, h.blocked,
      (SameTimer.erase hw.timers.valid (Ne.symm hxt)).countsDown h.timer⟩
  timeout {a u e} hx hw hact h htimeout := by
    subst hx
    have htu : t ≠ u := fun htu => hxt (by rw [htu])
    exact ⟨h.ordered, h.blocked.settles (.timeout htu htimeout)
      (Settles.timeout hw.sched hact htimeout), h.timer⟩
  call hk hw hc hallowed h hrun :=
    ⟨(ordered_fireKeeps x).call hk hw hc.1 hallowed h.ordered hrun,
      h.blocked.call hw hc.2 hrun, (SameTimer.execCall hw hallowed hc.2.1 hrun).countsDown h.timer⟩
  restart hk hw hQ hper hact h hstart :=
    ⟨(ordered_fireKeeps x).restart hk hw hQ hper hact h.ordered hstart, h.blocked,
      (SameTimer.restart hw.timers.valid hxt hstart).countsDown h.timer⟩
  finish h :=
    ⟨(ordered_fireKeeps x).finish h.ordered, h.blocked,
      (SameTimer.deactivate hxt).countsDown h.timer⟩

section
omit [DecidableEq τ] [DecidableEq σ]

/-- Who is ready waits for nothing. -/
theorem SchedWf.apart_of_ready {e : SchedSys τ σ (ThreadRings τ σ)} (hw : SchedWf e)
    (hst : (e.thread t).stat = .ready) (s : σ) : t ∉ e.waiters s :=
  fun hs => by simp [hw.waiting t s hs] at hst

end

section
omit [DecidableEq τ] [DecidableEq σ] [DecidableEq υ]

theorem Woken.of_bystander (h : Woken t a) (hb : Bystander t a.env a'.env)
    (hm : SameTimer (.inl t) a.timers a'.timers) : Woken t a' :=
  ⟨by rw [hb.thread]; exact h.ready, by rw [hb.thread]; exact h.error,
    fun hmem => h.timer (hm.mem.mp hmem)⟩

end

theorem Woken.call [Fintype τ] (h : Woken t a) (hw : KernelWf a) {c : Call τ σ υ}
    (hc : c.Leaves t awaited) (hallowed : Abs.CallAllowed a c)
    (hrun : Abs.execCall a c = some a') : Woken t a' := by
  have hapart : ∀ s, t ∈ a.env.waiters s → s ∈ awaited := fun s hs =>
    absurd hs (hw.sched.apart_of_ready h.ready s)
  exact h.of_bystander (.call hw hc.1 (hc.not_wokenBy hapart) hrun)
    (.execCall hw hallowed hc.1 hrun)

/-- Who has timed out stays ready through the firing of another timer. -/
theorem woken_fireKeeps [Fintype τ] [Fintype υ] (hxt : x ≠ threadTimer t) :
    FireKeeps (OthersCall t awaited) RestartTimed x (Woken (σ := σ) (υ := υ) t) where
  unlink hw h := h.of_bystander (.refl t _) (.erase hw.timers.valid (Ne.symm hxt))
  timeout {a u e} hx hw hact h htimeout := by
    subst hx
    have htu : t ≠ u := fun htu => hxt (by rw [htu])
    have hb : Bystander t a.env ({ a with env := e } : SeqKernel τ σ υ).env :=
      .timeout htu htimeout
    exact h.of_bystander hb (.refl _ _)
  call _ hw hc hallowed h hrun := h.call hw hc.2 hallowed hrun
  restart _ hw _ _ _ h hstart :=
    ⟨h.ready, h.error, fun hmem =>
      h.timer ((SameTimer.restart hw.timers.valid hxt hstart).mem.mp hmem)⟩
  finish h := ⟨h.ready, h.error, h.timer⟩

end Phases

/-! ## The tick that wakes -/

section Tick
variable [Fintype τ] [Fintype υ] {a a' : SeqKernel τ σ υ} {k k' : RtKernel τ σ υ} {t : τ}
  {x : τ ⊕ υ} {awaited : Option σ} {n : Option Nat}

section
omit [Fintype υ]

/-- The effect of the timeout on the lists. -/
theorem timesOut_of_timeout (hk : KernelRel k a) (hk' : KernelRel k' a') (hw : SchedWf a.env)
    (hst : (a.env.thread t).stat = .suspend) (h : Abs.timeout a.env t = some a'.env) :
    TimesOut t k k' := by
  have hsame := schedule_same (timeout_spec h).2
  have hnot : t ∉ a.env.readyList (a.env.thread t).currentPriority := fun hmem => by
    simp [((hw.ready_iff t _).mp hmem).1] at hst
  refine ⟨by rw [hk.env.thread, hst], ?_, ?_, fun s => ?_, ?_⟩
  · rw [hk.env.thread, hk'.env.thread, hsame.thread]
    simp [RtThread.timedOut]
  · rw [hk.env.thread, hk.readyList, hk'.readyList, hsame.readyList,
      SchedSys.relistReady_readyList, List.erase_of_not_mem hnot]
    simp [RtThread.timedOut]
  · rw [hk'.waiters, hsame.waiters, SchedSys.relistReady_waiters]
    exact (hw.valid.nodup _).not_mem_erase
  · rw [hk.env.sem, hk'.env.sem, hsame.sem]
    rfl

/-- The timer of a blocked thread fires. -/
theorem fire_wakes (hk : KernelRel k a) (hk' : KernelRel k' a') (hw : KernelWf a)
    (hblocked : Blocked t awaited a.env) {c : List (Call τ σ υ)}
    (hrun : Abs.timerFire Abs.callback c (.inl t) a = some a') :
    TimesOut t k k' ∧ Woken t a' := by
  obtain ⟨hlive, f, a₁, hf, hcallback, hend⟩ := Abs.timerFire_spec hrun
  have hok := hw.timers.ok (.inl t) hlive
  obtain rfl : f = .rtThreadTimeout t := Option.some.inj (hf.symm.trans hok.1)
  obtain ⟨htimeout, htimers⟩ := onSched_spec (show (a.unlinked (.inl t)).onSched
    (fun e => Abs.timeout e t) = some a₁ from hcallback)
  have hthread := (schedule_same (timeout_spec htimeout).2).thread
  rcases hend with ⟨hper, -⟩ | ⟨-, rfl⟩
  · rw [htimers] at hper
    exact absurd hper hok.2
  · refine ⟨timesOut_of_timeout hk hk' hw.sched hblocked.suspended htimeout, ?_, ?_, ?_⟩
    · simp [hthread, RtThread.timedOut]
    · simp [hthread, RtThread.timedOut]
    · rw [htimers]
      exact hw.timers.not_mem_erase (.inl t)

end

section
omit [DecidableEq τ] [DecidableEq σ] [DecidableEq υ] [Fintype τ] [Fintype υ]

/-- A timer with more than one tick left is not the one that is due. -/
theorem Dormant.ne_timer (h : Dormant t awaited n a) (hn : ∀ l ∈ n, 1 < l)
    (hx : a.timers.queue.head? = some x) (hdue : (a.timers.timer x).due a.timers.rtTick) :
    x ≠ threadTimer t := by
  rintro rfl
  have hmem : .inl t ∈ a.timers.queue := List.mem_of_mem_head? hx
  cases n with
  | none => exact h.timer hmem
  | some l =>
    have hle := (due_iff_left (h.ordered.soon _ hmem)).mp hdue
    have hlt := hn l rfl
    have hleft : left (alone a.timers).timers (.inl t) = l := h.timer.2
    omega

end

theorem Dormant.of_timer_ne (h : Dormant t awaited n a) (hn : ∀ l ∈ n, 1 < l)
    {script : List (List (Call τ σ υ))} (hk : KernelRel k a) (hw : KernelWf a)
    (hP : timerCheckMeets (OthersCall t awaited) script k)
    (hQ : timerCheckReturns RestartTimed script k)
    (hrun : Abs.timerCheck Abs.callback script a = some a') :
    Dormant t awaited n a' ∧ ∀ f ∈ timerCheckFirings script k, f.Passes t := by
  obtain ⟨h', -, hall⟩ := check_keeps
    (fun hI hx hdue => dormant_fireKeeps (hI.ne_timer hn hx hdue)) script hk hw hP hQ h hrun
  refine ⟨h', fun f hf => ?_⟩
  obtain ⟨b, b', hb, hb', hI, hI', hx, hdue⟩ := hall f hf
  exact ⟨hI.ne_timer hn hx hdue, by rw [hb.env.thread]; exact hI.blocked.suspended,
    by rw [hb'.env.thread]; exact hI'.blocked.suspended⟩

theorem Woken.check (h : Woken t a) {script : List (List (Call τ σ υ))} (hk : KernelRel k a)
    (hw : KernelWf a) (hP : timerCheckMeets (OthersCall t awaited) script k)
    (hQ : timerCheckReturns RestartTimed script k)
    (hrun : Abs.timerCheck Abs.callback script a = some a') : Woken t a' := by
  have hkeeps : ∀ {a : SeqKernel τ σ υ} {x}, Woken t a → a.timers.queue.head? = some x →
      (a.timers.timer x).due a.timers.rtTick →
      FireKeeps (OthersCall t awaited) RestartTimed x (Woken t) := by
    intro a x h hx _
    refine woken_fireKeeps ?_
    rintro rfl
    exact h.timer (List.mem_of_mem_head? hx)
  exact (check_keeps hkeeps script hk hw hP hQ h hrun).1

/-- With its last tick come, the timer of `t` fires in the check. -/
theorem check_wakes (script : List (List (Call τ σ υ))) :
    ∀ {k : RtKernel τ σ υ} {a : SeqKernel τ σ υ}, KernelRel k a → KernelWf a →
      timerCheckMeets (OthersCall t awaited) script k → timerCheckReturns RestartTimed script k →
      Dormant t awaited (some 1) a → Abs.timerCheck Abs.callback script a = some a' →
      (∃ f ∈ timerCheckFirings script k, f.timer = threadTimer t ∧ TimesOut t f.before f.after) ∧
        Woken t a' := by
  have hquiet : ∀ {a : SeqKernel τ σ υ}, Dormant t awaited (some 1) a → ¬ Quiet a := by
    intro a h hq
    have hlt := h.ordered.none_due (fun x hx => hq x hx) h.timer.1
    exact absurd h.timer.2 hlt.ne'
  induction script with
  | nil =>
    intro k a hk hw _ _ h hrun
    rcases Abs.timerCheck_cases hrun with ⟨rfl, hq⟩ | ⟨c, rest, x, a₁, hnil, -⟩
    · exact absurd hq (hquiet h)
    · cases hnil
  | cons c script ih =>
    intro k a hk hw hP hQ h hrun
    rcases Abs.timerCheck_cases hrun with ⟨rfl, hq⟩ | ⟨c', rest, x, a₁, hcons, hx, hdue, hf, hrest⟩
    · exact absurd hq (hquiet h)
    · cases hcons
      obtain ⟨k₁, h₁, hw₁, hmeets, hreturns, hP₁, hQ₁, hfirings⟩ :=
        check_round hk hw hP hQ hx hdue hf
      have hmem := List.mem_of_mem_head? hx
      rw [hfirings]
      by_cases hxt : x = threadTimer t
      · -- woken here, it stays ready through what else is due
        subst hxt
        obtain ⟨hout, hwoken⟩ := fire_wakes hk h₁ hw h.blocked hf
        exact ⟨⟨_, List.mem_cons_self .., rfl, hout⟩, hwoken.check h₁ hw₁ hP₁ hQ₁ hrest⟩
      · obtain ⟨⟨f, hfmem, hft, hout⟩, hwoken⟩ := ih h₁ hw₁ hP₁ hQ₁
          ((dormant_fireKeeps hxt).fire hk hw hmem hmeets hreturns h hf) hrest
        exact ⟨⟨f, List.mem_cons_of_mem _ hfmem, hft, hout⟩, hwoken⟩

end Tick

/-! ## One operation -/

section Exec
variable [Fintype τ] [Fintype υ] {a a' : SeqKernel τ σ υ} {k k' : RtKernel τ σ υ} {t : τ}
  {awaited : Option σ} {n : Option Nat} {m : Nat} {op : Op τ σ υ}
  {script : List (List (Call τ σ υ))}

/-- An operation of another thread that leaves `t` alone does nothing to it. -/
theorem exec_others (hk : KernelRel k a) (hw : KernelWf a) (hop : Abs.Allowed a op)
    (hticks : op.ticks = 0) (hothers : op.ByOthers t awaited k)
    (hapart : ∀ s, t ∈ a.env.waiters s → s ∈ awaited)
    (hrun : Abs.exec a op = some a') :
    Bystander t a.env a'.env ∧ SameTimer (.inl t) a.timers a'.timers := by
  have hcurrent := hothers.1 hticks
  rw [hk.env.current] at hcurrent
  unfold Abs.exec at hrun
  cases op with
  | call c =>
    have hc : c.Leaves t awaited := hothers.2
    exact ⟨.call hw hc.1 (hc.not_wokenBy hapart) hrun, .execCall hw hop hc.1 hrun⟩
  | threadSleep tick =>
    obtain ⟨u, hcur, hcan⟩ := hop
    have htu : t ≠ u := fun htu => hcurrent (htu ▸ hcur)
    have hs := threadSleep_sleeps hw hcan hcur hrun
    exact ⟨hs.bystander htu, .of_others hs.timers htu⟩
  | semTake s time =>
    obtain ⟨_, hr⟩ := returned_of_map hrun
    rcases semTake_spec hr with ⟨-, -, rfl⟩ | ⟨-, -, -, rfl⟩ | ⟨hb, u, hcur, -, hwait⟩
    · exact ⟨.of_eq rfl rfl, .refl _ _⟩
    · exact ⟨.refl t _, .refl _ _⟩
    · obtain ⟨u', hcur', hcan⟩ := hop hb
      obtain rfl : u = u' := Option.some.inj (hcur.symm.trans hcur')
      have htu : t ≠ u := fun htu => hcurrent (htu ▸ hcur)
      have hwaits := takeWait_waits hw hcan hwait
      exact ⟨hwaits.bystander htu, .of_others hwaits.timers htu⟩
  | tickIncrease script => cases hticks
  | schedulerStart =>
    obtain ⟨hstart, htimers⟩ := onSched_spec hrun
    obtain ⟨u, -, henv⟩ := schedStart_spec hstart
    rw [htimers, henv]
    exact ⟨.of_eq rfl rfl, .refl _ _⟩

theorem Blocked.exec (h : Blocked t awaited a.env) (hk : KernelRel k a) (hw : KernelWf a)
    (hop : Abs.Allowed a op) (hticks : op.ticks = 0) (hothers : op.ByOthers t awaited k)
    (hrun : Abs.exec a op = some a') : Blocked t awaited a'.env := by
  have hw' : SchedWf a'.env := (hw.exec hop hrun).sched
  obtain ⟨hb, -⟩ := exec_others hk hw hop hticks hothers h.apart hrun
  unfold Abs.exec at hrun
  cases op with
  | call c => exact h.call hw hothers.2 hrun
  | threadSleep tick => exact h.settles hb (.threadSleep hw.sched hw' hrun)
  | semTake s time =>
    obtain ⟨_, hr⟩ := returned_of_map hrun
    exact h.settles hb (.semTake hw hw' hr)
  | tickIncrease script => cases hticks
  | schedulerStart =>
    obtain ⟨u, hhead, henv⟩ := schedStart_spec (onSched_spec hrun).1
    refine h.of_bystander hb fun hcur => ?_
    rw [henv] at hcur
    cases hcur
    have hready := ((hw.sched.ready_iff t _).mp (List.mem_of_mem_head? hhead)).1
    simp [h.suspended] at hready

/-- `t` stays blocked through an operation of another thread. -/
theorem Dormant.exec (h : Dormant t awaited n a) (hs : OnSchedule a'.timers) (hk : KernelRel k a)
    (hw : KernelWf a) (hop : Abs.Allowed a op) (hticks : op.ticks = 0)
    (hothers : op.ByOthers t awaited k) (hrun : Abs.exec a op = some a') : Dormant t awaited n a' :=
  ⟨hs.ordered, h.blocked.exec hk hw hop hticks hothers hrun,
    (exec_others hk hw hop hticks hothers h.blocked.apart hrun).2.countsDown h.timer⟩

theorem Woken.exec (h : Woken t a) (hk : KernelRel k a) (hw : KernelWf a)
    (hop : Abs.Allowed a op) (hticks : op.ticks = 0) (hothers : op.ByOthers t awaited k)
    (hrun : Abs.exec a op = some a') : Woken t a' := by
  have hapart : ∀ s, t ∈ a.env.waiters s → s ∈ awaited := fun s hs =>
    absurd hs (hw.sched.apart_of_ready h.ready s)
  obtain ⟨hb, hm⟩ := exec_others hk hw hop hticks hothers hapart hrun
  exact h.of_bystander hb hm

/-! ## One tick -/

section
omit [DecidableEq υ] [Fintype τ] [Fintype υ]

/-- The tick advances, and with it the slice of the current thread. -/
theorem Dormant.tickStart (h : Dormant t awaited n a) (hs : OnSchedule a.timers) (hw : KernelWf a)
    (hstart : Abs.tickStart a = some a') : Dormant t awaited (n.map (· - 1)) a' := by
  obtain ⟨hslice, -⟩ := onSched_spec hstart
  obtain ⟨hordered, htimers⟩ := hs.tickStart hstart
  refine ⟨hordered, h.blocked.settles (.tickSlice hw.sched h.blocked.current hslice)
    (.tickSlice hw.sched hslice), ?_⟩
  rw [htimers]
  exact hs.countsDown_tick h.timer

theorem Woken.tickStart (h : Woken t a) (hw : KernelWf a) (hstart : Abs.tickStart a = some a') :
    Woken t a' := by
  obtain ⟨hslice, htimers⟩ := onSched_spec hstart
  have hslice : Abs.tickSlice a.env = some a'.env := hslice
  refine ⟨(Waking.tickSlice hw.sched hslice).ready t h.ready, ?_, ?_⟩
  · rw [(tickSlice_calm hw.sched hslice).1 t, h.error]
  · rw [htimers]
    exact h.timer

end

/-- What a run among others lets the callbacks of a tick do. -/
theorem others_tick (hok : (amongOthers t awaited).ok k m (.tickIncrease script)) :
    tickMeets (OthersCall t awaited) script k ∧ tickReturns RestartTimed script k := by
  obtain ⟨⟨htimed, hreturns⟩, -, hcalls⟩ := hok
  exact ⟨tickMeets_and htimed hcalls, hreturns⟩

/-- The two parts of a tick, on both levels. -/
theorem tick_parts (hk : KernelRel k a) (hw : KernelWf a) (hrun : Abs.tick script a = some a') :
    ∃ k₁ a₁, Abs.tickStart a = some a₁ ∧ KernelRel k₁ a₁ ∧ KernelWf a₁ ∧
      Abs.timerCheck Abs.callback script a₁ = some a' ∧
      tickFirings script k = timerCheckFirings script k₁ ∧
      (∀ {P}, tickMeets P script k → timerCheckMeets P script k₁) ∧
      ∀ {Q}, tickReturns Q script k → timerCheckReturns Q script k₁ := by
  obtain ⟨a₁, hstart, hcheck⟩ := Option.bind_eq_some_iff.mp hrun
  obtain ⟨k₁, hk₁, h₁⟩ := Lockstep.exists_of_right (tickStart_rel hk hw.sched) hstart
  refine ⟨k₁, a₁, hstart, h₁, hw.tickStart hstart, hcheck, ?_, fun hP => hP k₁ hk₁,
    fun hQ => hQ k₁ hk₁⟩
  rw [tickFirings, hk₁, Option.elim_some]

/-- **A tick before the last** leaves `t` blocked. -/
theorem Dormant.tick (h : Dormant t awaited n a) (hn : ∀ l ∈ n, 2 < l) (hs : OnSchedule a.timers)
    (hk : KernelRel k a) (hw : KernelWf a)
    (hok : (amongOthers t awaited).ok k m (.tickIncrease script))
    (hrun : Abs.tick script a = some a') :
    Dormant t awaited (n.map (· - 1)) a' ∧ ∀ f ∈ tickFirings script k, f.Passes t := by
  obtain ⟨k₁, a₁, hstart, h₁, hw₁, hcheck, hfirings, hmeets, hreturns⟩ := tick_parts hk hw hrun
  obtain ⟨hP, hQ⟩ := others_tick hok
  rw [hfirings]
  refine (h.tickStart hs hw hstart).of_timer_ne (fun l hl => ?_) h₁ hw₁ (hmeets hP) (hreturns hQ)
    hcheck
  obtain ⟨l', hl', rfl⟩ := Option.map_eq_some_iff.mp hl
  have hlt := hn l' hl'
  omega

/-- **The last tick** fires the timer of `t`. -/
theorem Dormant.wakes (h : Dormant t awaited (some 2) a) (hs : OnSchedule a.timers)
    (hk : KernelRel k a) (hw : KernelWf a)
    (hok : (amongOthers t awaited).ok k m (.tickIncrease script))
    (hrun : Abs.tick script a = some a') :
    (∃ f ∈ tickFirings script k, f.timer = threadTimer t ∧ TimesOut t f.before f.after) ∧
      Woken t a' := by
  obtain ⟨k₁, a₁, hstart, h₁, hw₁, hcheck, hfirings, hmeets, hreturns⟩ := tick_parts hk hw hrun
  obtain ⟨hP, hQ⟩ := others_tick hok
  rw [hfirings]
  exact check_wakes script h₁ hw₁ (hmeets hP) (hreturns hQ) (h.tickStart hs hw hstart) hcheck

theorem Woken.tick (h : Woken t a) (hk : KernelRel k a) (hw : KernelWf a)
    (hok : (amongOthers t awaited).ok k m (.tickIncrease script))
    (hrun : Abs.tick script a = some a') : Woken t a' := by
  obtain ⟨k₁, a₁, hstart, h₁, hw₁, hcheck, -, hmeets, hreturns⟩ := tick_parts hk hw hrun
  obtain ⟨hP, hQ⟩ := others_tick hok
  exact (h.tickStart hw hstart).check h₁ hw₁ (hmeets hP) (hreturns hQ) hcheck

end Exec

/-! ## Runs -/

section Runs
variable [Fintype τ] [Fintype υ] {a a' : SeqKernel τ σ υ} {k k' : RtKernel τ σ υ} {t : τ} {s : σ}
  {awaited : Option σ} {n m : Nat} {op : Op τ σ υ}

/-- `t` with a timeout of `n` ticks, `m` ticks later. -/
def Awaiting (t : τ) (awaited : Option σ) (n m : Nat) (a : SeqKernel τ σ υ) : Prop :=
  m < n ∧ Dormant t awaited (some (n + 1 - m)) a ∨ n ≤ m ∧ Woken t a

/-- One operation of a run among others, ticks included. -/
theorem Awaiting.step (h : Awaiting t awaited n m a) (hs : OnSchedule a.timers)
    (hs' : OnSchedule a'.timers) (hk : KernelRel k a) (hw : KernelWf a) (hop : Abs.Allowed a op)
    (hok : (amongOthers t awaited).ok k m op) (hrun : Abs.exec a op = some a') :
    Awaiting t awaited n (m + op.ticks) a' := by
  by_cases hticks : op.ticks = 0
  · rw [hticks]
    exact h.imp (fun h => ⟨h.1, h.2.exec hs' hk hw hop hticks hok.2 hrun⟩)
      fun h => ⟨h.1, h.2.exec hk hw hop hticks hok.2 hrun⟩
  · obtain ⟨script, rfl⟩ := op.eq_tickIncrease hticks
    have htick : Abs.tick script a = some a' := hrun
    rcases h with ⟨hlt, hdormant⟩ | ⟨hle, hwoken⟩
    · by_cases hlast : m + 1 = n
      · subst hlast
        rw [show m + 1 + 1 - m = 2 by omega] at hdormant
        exact .inr ⟨le_rfl, (hdormant.wakes hs hk hw hok htick).2⟩
      · have hstay := (hdormant.tick (fun l hl => by cases hl; omega) hs hk hw hok htick).1
        rw [Option.map_some, Nat.sub_sub, Nat.add_sub_add_right] at hstay
        refine .inl ⟨?_, ?_⟩
        · simp only [Op.ticks]
          omega
        · have hleft : n + 1 - (m + Op.ticks (.tickIncrease script)) = n - m := by
            simp only [Op.ticks]
            omega
          rw [hleft]
          exact hstay
    · exact .inr ⟨Nat.le_succ_of_le hle, hwoken.tick hk hw hok htick⟩

/-- Without a timeout `t` stays blocked. -/
theorem Dormant.step (h : Dormant t awaited none a) (hs : OnSchedule a.timers)
    (hs' : OnSchedule a'.timers) (hk : KernelRel k a) (hw : KernelWf a) (hop : Abs.Allowed a op)
    (hok : (amongOthers t awaited).ok k m op) (hrun : Abs.exec a op = some a') :
    Dormant t awaited none a' := by
  by_cases hticks : op.ticks = 0
  · exact h.exec hs' hk hw hop hticks hok.2 hrun
  · obtain ⟨script, rfl⟩ := op.eq_tickIncrease hticks
    exact (h.tick (by simp) hs hk hw hok hrun).1

/-- What every operation of a run among others keeps, with the timers on schedule, holds
throughout. -/
theorem Later.invariant {I : Nat → SeqKernel τ σ υ → Prop}
    (hstep : ∀ {m k a op a'}, I m a → OnSchedule a.timers → OnSchedule a'.timers → KernelRel k a →
      KernelWf a → Abs.Allowed a op → (amongOthers t awaited).ok k m op →
      Abs.exec a op = some a' → I (m + op.ticks) a')
    (hk : KernelRel k a) (hw : KernelWf a) (hs : OnSchedule a.timers) (h : I 0 a)
    (hlater : Later t awaited k k' m) :
    ∃ a', KernelRel k' a' ∧ KernelWf a' ∧ OnSchedule a'.timers ∧ I m a' := by
  refine Observer.invariant_from (I := fun a m => OnSchedule a.timers ∧ I m a)
    (fun k a m op _ _ _ _ hnone => by cases hnone) (fun k a m e op a' hk hw hI hok hop => ?_)
    hk hw ⟨hs, h⟩ hlater
  cases hop
  intro hallowed hrun
  have hs' := hI.1.exec hk hw hallowed hok.1 hrun
  exact ⟨hs', hstep hI.2 hI.1 hs' hk hw hallowed hok hrun⟩

/-! ## Blocking -/

section
omit [DecidableEq τ] [DecidableEq σ] [DecidableEq υ] [Fintype τ] [Fintype υ]

theorem blocked_of_dispatch (hst : (a'.env.thread t).stat = .suspend)
    (hapart : ∀ s, t ∈ a'.env.waiters s → s ∈ awaited) (hlock : a.env.rtSchedulerLockNest = 0)
    (hdisp : Dispatches a.env a'.env) : Blocked t awaited a'.env := by
  refine ⟨hst, hapart, ?_⟩
  obtain ⟨u, hready, hcur⟩ := hdisp
  rw [hcur, if_pos hlock]
  intro hut
  cases hut
  simp [hst] at hready

end

section
omit [Fintype υ]

theorem dormant_of_sleep (hw : KernelWf a) (hs : OnSchedule a.timers)
    (hlock : a.env.rtSchedulerLockNest = 0) (hcur : a.env.rtCurrentThread = some t)
    (hst : (a.env.thread t).stat = .ready) {tick : Tick} (htick : InRange tick)
    (hrun : Abs.threadSleep a tick = some a') :
    OnSchedule a'.timers ∧ Dormant t awaited (some (tick.toNat + 1)) a' := by
  obtain ⟨hs', hcounts⟩ := hs.threadSleep hw (.inl hst) hcur htick hrun
  have hsleeps := threadSleep_sleeps hw (.inl hst) hcur hrun
  refine ⟨hs', hs'.ordered, blocked_of_dispatch ?_ (fun q hq => ?_) hlock hsleeps.dispatch, hcounts⟩
  · simp [hsleeps.thread]
  · rw [hsleeps.waiters] at hq
    exact absurd hq (hw.sched.apart_of_ready hst q)

theorem dormant_of_take (hw : KernelWf a) (hs : OnSchedule a.timers)
    (hlock : a.env.rtSchedulerLockNest = 0) (hst : (a.env.thread t).stat = .ready)
    {time : BitVec 32} (htime : 0 < time.toInt → InRange time)
    (hrun : Abs.takeWait a s t time = some a') :
    OnSchedule a'.timers ∧
      Dormant t (some s) (if 0 < time.toInt then some (time.toNat + 1) else none) a' := by
  obtain ⟨hs', hcounts⟩ := hs.takeWait hw (.inl hst) htime hrun
  have hwaits := takeWait_waits hw (.inl hst) hrun
  refine ⟨hs', hs'.ordered, blocked_of_dispatch ?_ (fun q hq => ?_) hlock hwaits.dispatch, ?_⟩
  · simp [hwaits.thread]
  · by_cases hqs : q = s
    · rw [hqs]
      rfl
    · rw [hwaits.waiters_ne q hqs] at hq
      exact absurd hq (hw.sched.apart_of_ready hst q)
  · split
    · rename_i hpos
      exact hcounts hpos
    · rename_i hpos
      exact hwaits.unarmed hpos hst

end

theorem InRange.toInt_pos {n : BitVec 32} (h : InRange n) : 0 < n.toInt := by
  have hone : 1 ≤ n.toNat := h.1
  have hhalf : n.toNat < halfRange := h.2
  have hrange := two_mul_halfRange_lt
  rw [BitVec.toInt_eq_toNat_of_lt (by omega)]
  omega

/-- What a thread with a timeout finds, wherever the run has come to. -/
theorem Awaiting.wakesAfter (h : Awaiting t awaited n m a) (hs : OnSchedule a.timers)
    (hk : KernelRel k a) (hw : KernelWf a) : WakesAfter t awaited n k m := by
  have hdormant : m < n → Dormant t awaited (some (n + 1 - m)) a := fun hlt =>
    (h.resolve_right fun hle => by omega).2
  have hstat : m < n → (k.env.thread t).stat = .suspend := fun hlt => by
    rw [hk.env.thread]
    exact (hdormant hlt).blocked.suspended
  refine ⟨hstat, fun hlt => ⟨hstat (by omega), fun script k' hok hrun => ?_⟩,
    fun hlast script k' hok hrun => ?_, fun hle => ?_⟩
  · obtain ⟨a', ha', -⟩ := Lockstep.exists_of_left (kernelTick_rel hk hw script) hrun
    exact ((hdormant (by omega)).tick (fun l hl => by cases hl; omega) hs hk hw hok.2 ha').2
  · obtain ⟨a', ha', -⟩ := Lockstep.exists_of_left (kernelTick_rel hk hw script) hrun
    have hnow := hdormant (by omega)
    rw [show n + 1 - m = 2 by omega] at hnow
    exact (hnow.wakes hs hk hw hok.2 ha').1
  · obtain ⟨-, hwoken⟩ := h.resolve_left fun hlt => by omega
    rw [rtSemTakeReturn, hk.env.thread]
    exact ⟨hwoken.ready, hwoken.error, by rw [hwoken.error]; rfl⟩

/-- What a thread without a timeout finds. -/
theorem Dormant.stays (h : Dormant t awaited none a) (hs : OnSchedule a.timers)
    (hk : KernelRel k a) (hw : KernelWf a) : Suspended t awaited k m := by
  refine ⟨by rw [hk.env.thread]; exact h.blocked.suspended, fun script k' hok hrun => ?_⟩
  obtain ⟨a', ha', -⟩ := Lockstep.exists_of_left (kernelTick_rel hk hw script) hrun
  exact (h.tick (by simp) hs hk hw hok.2 ha').2

/-- **Blocking with and without a timeout.** A ready current thread that blocks for `n` ticks
stays suspended through `n - 1` of them, times out in the next and is ready from then on,
with the error that `rt_sem_take` returns. With a negative timeout it stays suspended. -/
theorem blocked_for_ticks {idle : τ} (hk : Reachable idle (fun k op => op.Timed k) k)
    (hlock : k.env.rtSchedulerLockNest = 0) (hcur : k.env.rtCurrentThread = some t)
    (hst : (k.env.thread t).stat = .ready) :
    (∀ n op k₁, InRange n → BlocksFor k n op → op.exec k = some k₁ →
        ∀ k' m, Later t op.awaits k₁ k' m → WakesAfter t op.awaits n.toNat k' m) ∧
      ∀ (s : σ) (n : BitVec 32) k₁, (k.env.sem s).value = 0 → n.toInt < 0 →
        (Op.semTake s n).exec k = some k₁ →
        ∀ k' m, Later t (some s) k₁ k' m → Suspended t (some s) k' m := by
  obtain ⟨a, h, hw, hs⟩ := onSchedule_of_reachable hk
  rw [h.env.lockNest] at hlock
  rw [h.env.current] at hcur
  rw [h.env.thread] at hst
  have hmay : Abs.MayBlock a := ⟨t, hcur, .inl hst⟩
  -- the two levels of a blocking call
  have hblock : ∀ {op k₁}, Abs.Allowed a op → op.exec k = some k₁ →
      ∃ a₁, Abs.exec a op = some a₁ ∧ KernelRel k₁ a₁ ∧ KernelWf a₁ := by
    intro op k₁ hop hrun
    obtain ⟨a₁, ha₁, h₁⟩ := Lockstep.exists_of_left (exec_rel h hw hop) hrun
    exact ⟨a₁, ha₁, h₁, hw.exec hop ha₁⟩
  have htake : ∀ {s time k₁}, (k.env.sem s).value = 0 → time ≠ 0 →
      (0 < time.toInt → InRange time) → (Op.semTake s time).exec k = some k₁ →
      ∃ a₁, KernelRel k₁ a₁ ∧ KernelWf a₁ ∧ OnSchedule a₁.timers ∧
        Dormant t (some s) (if 0 < time.toInt then some (time.toNat + 1) else none) a₁ := by
    intro s time k₁ hzero hne htime hrun
    have hallowed : Abs.Allowed a (.semTake s time) := fun _ => hmay
    obtain ⟨a₁, ha₁, h₁, hw₁⟩ := hblock hallowed hrun
    obtain ⟨_, hr⟩ := returned_of_map ha₁
    rw [h.env.sem] at hzero
    rcases semTake_spec hr with ⟨hpos, -⟩ | ⟨-, hzero', -⟩ | ⟨-, u, hu, -, hwait⟩
    · simp [hzero] at hpos
    · exact absurd hzero' hne
    · obtain rfl : u = t := Option.some.inj (hu.symm.trans hcur)
      obtain ⟨hs₁, hdormant⟩ := dormant_of_take hw hs hlock hst htime hwait
      exact ⟨a₁, h₁, hw₁, hs₁, hdormant⟩
  refine ⟨fun n op k₁ hn hop hrun k' m hlater => ?_,
    fun s n k₁ hzero hneg hrun k' m hlater => ?_⟩
  · obtain ⟨a₁, h₁, hw₁, hs₁, hdormant⟩ : ∃ a₁, KernelRel k₁ a₁ ∧ KernelWf a₁ ∧
        OnSchedule a₁.timers ∧ Dormant t op.awaits (some (n.toNat + 1)) a₁ := by
      cases hop with
      | sleep =>
        have hallowed : Abs.Allowed a (.threadSleep n) := hmay
        obtain ⟨a₁, ha₁, h₁, hw₁⟩ := hblock hallowed hrun
        obtain ⟨hs₁, hdormant⟩ := dormant_of_sleep hw hs hlock hcur hst hn ha₁
        exact ⟨a₁, h₁, hw₁, hs₁, hdormant⟩
      | take s hzero =>
        have hpos := hn.toInt_pos
        have hfound := htake hzero (by rintro rfl; simp at hpos) (fun _ => hn) hrun
        rwa [if_pos hpos] at hfound
    have hstart : Awaiting t op.awaits n.toNat 0 a₁ := .inl ⟨hn.1, hdormant⟩
    obtain ⟨a', h', hw', hs', hawaiting⟩ := Later.invariant
      (fun hI hs hs' hk hw hop hok hrun => hI.step hs hs' hk hw hop hok hrun) h₁ hw₁ hs₁ hstart
      hlater
    exact hawaiting.wakesAfter hs' h' hw'
  · have hnot : ¬ 0 < n.toInt := by omega
    obtain ⟨a₁, h₁, hw₁, hs₁, hdormant⟩ :=
      htake hzero (by rintro rfl; simp at hneg) (fun hpos => absurd hpos hnot) hrun
    rw [if_neg hnot] at hdormant
    obtain ⟨a', h', hw', hs', hdormant'⟩ := Later.invariant
      (I := fun _ a => Dormant t (some s) none a)
      (fun hI hs hs' hk hw hop hok hrun => hI.step hs hs' hk hw hop hok hrun) h₁ hw₁ hs₁ hdormant
      hlater
    exact hdormant'.stays hs' h' hw'

end Runs

end Timeout

/-- Threads 1 and 2 are ready, 1 the more urgent, and nobody has released the semaphore. -/
def twoReady : List (Op (Fin 3) (Fin 1) Empty) :=
  [.call (.threadInit 1 3 10), .call (.threadInit 2 5 10), .call (.threadStartup 1),
    .call (.threadStartup 2), .call (.semInit 0 0 RT_IPC_FLAG_FIFO), .schedulerStart]

/-- Two ticks, and thread 2 yields in between. -/
def twoTicks : List (Op (Fin 3) (Fin 1) Empty) :=
  [.tickIncrease [], .call .threadYield, .tickIncrease [[]]]

/-- Thread 1 waits for two ticks, and the second wakes it. -/
theorem wakes_at_second_tick : ∃ k, runFrom 0 (fun k op => op.Timed k) twoReady = some k ∧
    ∃ k₁, (Op.semTake 0 2).exec k = some k₁ ∧ ∃ k', Later 1 (some 0) k₁ k' 2 ∧
      (k'.env.thread 1).stat = .ready ∧ rtSemTakeReturn k'.env 1 = -RT_ETIMEOUT := by
  obtain ⟨k, hk, hreach, hp⟩ := reachable_of_runFrom 0 (fun k op => op.Timed k) twoReady
    (fun k => decide (k.env.rtSchedulerLockNest = 0) &&
      decide (k.env.rtCurrentThread = some 1) && decide ((k.env.thread 1).stat = .ready) &&
      decide ((k.env.sem 0).value = 0) &&
      ((Op.semTake 0 2).exec k).any fun k₁ =>
        (Run.exec (amongOthers 1 (some 0)).exec (amongOthers 1 (some 0)).Allowed twoTicks
          (k₁, 0)).any fun y : RtKernel (Fin 3) (Fin 1) Empty × Nat => decide (y.2 = 2))
    (by decide +kernel)
  simp only [Bool.and_eq_true, decide_eq_true_eq, Option.any_eq_true] at hp
  obtain ⟨⟨⟨⟨hlock, hcur⟩, hst⟩, hzero⟩, k₁, hk₁, ⟨k', m⟩, hrun, rfl⟩ := hp
  have hlater : Later 1 (some 0) k₁ k' 2 := Run.exec_reach hrun
  have hwakes := (blocked_for_ticks hreach hlock hcur hst).1 2 _ k₁ (by decide)
    (.take 0 hzero) hk₁ k' 2 hlater
  obtain ⟨hready, -, hreturn⟩ := hwakes.woken (by decide)
  exact ⟨k, hk, k₁, hk₁, k', hlater, hready, hreturn⟩

end SampleRtos
