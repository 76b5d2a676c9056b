import SampleRtos.Kernel.Interleave

/-!
# Preemption by priority between sections

Between the section of a function and its `rt_schedule` a thread may run on although it has
suspended itself or has woken a more urgent one. It owes the reschedule, though, and nobody
else is ever current in such a state: whoever is current and owes nothing is the most urgent
ready thread, at every point at which an interrupt can come in.
-/

namespace SampleRtos

open Intrusive

section Owed
variable {τ σ υ : Type} [DecidableEq τ] [DecidableEq σ] [DecidableEq υ]
  {pending pending' : τ → Option (Rest τ)} {k k' : RtKernel τ σ υ} {a a' : SeqKernel τ σ υ}
  {e e' : SchedSys τ σ (ThreadRings τ σ)} {s s' : Interleaved τ σ υ}

/-- Once the scheduler has started, the current thread owes a reschedule, or it is the most
urgent ready thread unless the scheduler is locked. -/
structure Owed (pending : τ → Option (Rest τ)) (e : SchedSys τ σ (ThreadRings τ σ)) : Prop where
  nonneg : 0 ≤ e.rtSchedulerLockNest
  runs : e.rtCurrentThread ≠ none →
    (∃ t, e.rtCurrentThread = some t ∧ pending t ≠ none) ∨ Preemptive e

namespace Owed

section
omit [DecidableEq τ] [DecidableEq σ]

theorem of_preemptive (h : Preemptive e) : Owed pending e := ⟨h.nonneg, fun _ => .inr h⟩

/-- A current thread that owes nothing is the most urgent. -/
theorem preemptive (h : Owed pending e) (hcur : e.rtCurrentThread ≠ none)
    (hnone : ∀ t ∈ e.rtCurrentThread, pending t = none) : Preemptive e := by
  rcases h.runs hcur with ⟨t, ht, hpend⟩ | hpre
  · exact absurd (hnone t ht) hpend
  · exact hpre

end

section
omit [DecidableEq σ]

/-- What settles the current thread leaves it owing or makes the most urgent one current. -/
theorem settles (h : Owed pending e) {t : τ} (hcur : e.rtCurrentThread = some t)
    (hpend : pending t ≠ none) (hs : Settles e e') : Owed pending e' := by
  have hnonneg := h.nonneg
  cases hs with
  | kept hcur' hlock =>
    exact ⟨by rw [hlock]; exact hnonneg, fun _ => .inl ⟨t, hcur'.trans hcur, hpend⟩⟩
  | nested hcur' hlock hpos =>
    exact ⟨le_of_lt hpos, fun _ => .inl ⟨t, hcur'.trans hcur, hpend⟩⟩
  | opened hnone => rw [hcur] at hnone; cases hnone
  | scheduled f hw hcur' hlock hrun =>
    refine of_preemptive (.schedule hw (by rw [hcur', hcur]; simp) ?_ hrun)
    rcases hlock with hlock | hlock <;> rw [hlock]
    exact hnonneg

end

section
omit [DecidableEq τ] [DecidableEq σ]

theorem enterCritical (h : Owed pending e) {t : τ} (hcur : e.rtCurrentThread = some t)
    (hpend : pending t ≠ none) : Owed pending e.rtEnterCritical := by
  have hnonneg := h.nonneg
  unfold SchedSys.rtEnterCritical
  split
  · exact ⟨by dsimp only; omega, fun _ => .inl ⟨t, hcur, hpend⟩⟩
  · exact h

end

/-- Someone is current, and that thread owes a reschedule or is the most urgent. -/
def Running (pending : τ → Option (Rest τ)) (e : SchedSys τ σ (ThreadRings τ σ)) : Prop :=
  e.rtCurrentThread ≠ none ∧ Owed pending e

section
omit [DecidableEq τ] [DecidableEq σ]

theorem Running.of_preemptive (h : Preemptive e) : Running pending e :=
  ⟨h.started, Owed.of_preemptive h⟩

end

section
omit [DecidableEq σ]

/-- A step that settles the current thread and keeps the most urgent one running. -/
theorem Running.step (h : Running pending e) (hs : Settles e e')
    (hpre : Preemptive e → Preemptive e') : Running pending e' := by
  obtain ⟨hcur, howed⟩ := h
  rcases howed.runs hcur with ⟨t, ht, hpend⟩ | hpre₀
  · have howed' := howed.settles ht hpend hs
    refine ⟨?_, howed'⟩
    cases hs with
    | kept hcur' => rw [hcur']; exact hcur
    | nested hcur' => rw [hcur']; exact hcur
    | opened hnone => exact absurd hnone hcur
    | scheduled f hw hcur' hlock hrun =>
      obtain ⟨u, -, rfl⟩ := schedule_spec hrun
      rw [SchedSys.switchTo_current]
      split
      · simp
      · rw [hcur']; exact hcur
  · exact .of_preemptive (hpre hpre₀)

end

theorem Running.call [Fintype τ] [Fintype υ] (h : Running pending a.env) (hk : KernelRel k a)
    (hw : KernelWf a) {c : Call τ σ υ} (hc : c.Reschedules ∧ c.WakesBelow k)
    (hallowed : Abs.CallAllowed a c) (hrun : Abs.execCall a c = some a') :
    Running pending a'.env := by
  by_cases hcrit : c = .enterCritical
  · subst hcrit
    cases hrun
    obtain ⟨hcur, howed⟩ := h
    have hcur' : a.env.rtEnterCritical.rtCurrentThread = a.env.rtCurrentThread := by
      unfold SchedSys.rtEnterCritical
      split <;> rfl
    refine ⟨by rw [hcur']; exact hcur, ?_⟩
    rcases howed.runs hcur with ⟨t, ht, hpend⟩ | hpre
    · exact howed.enterCritical ht hpend
    · exact .of_preemptive hpre.enterCritical
  · exact h.step (Settles.call hw hcrit hrun) fun hpre => hpre.call hk hw hc hallowed hrun

theorem Running.tickSlice (h : Running pending e) (hw : SchedWf e)
    (hrun : Abs.tickSlice e = some e') : Running pending e' :=
  h.step (.tickSlice hw hrun) fun hpre => hpre.tickSlice hw hrun

theorem Running.timeout (h : Running pending e) (hw : SchedWf e) {t : τ}
    (hact : (e.thread t).Active) (hrun : Abs.timeout e t = some e') : Running pending e' :=
  h.step (.timeout hw hact hrun) fun hpre => hpre.timeout hw hact hrun

section
omit [DecidableEq τ] [DecidableEq σ]

/-- A thread that becomes current at the start is the most urgent. -/
theorem start (h : Owed pending e) (hw : SchedWf e) (hrun : Abs.schedStart e = some e') :
    Preemptive e' := by
  obtain ⟨t, hhead, rfl⟩ := schedStart_spec hrun
  have hready : (e.thread t).stat = .ready :=
    ((hw.ready_iff t _).mp (List.mem_of_mem_head? hhead)).1
  obtain ⟨-, -, t', ts, hlist, -, hmin⟩ := highestReadyThread_spec hw ⟨t, hready⟩
  obtain rfl : t' = t := by
    rw [Abs.highestReadyThread, hlist] at hhead
    exact Option.some.inj hhead
  exact ⟨by simp [SchedSys.startAt], h.nonneg, fun _ => ⟨t', rfl, hready, hmin⟩⟩

end

/-- Preparing, `main` leaves the scheduler as it is. -/
theorem prepares [Fintype τ] (h : Owed pending a.env) {c : Call τ σ υ} (hc : c.Prepares)
    (hnone : a.env.rtCurrentThread = none) (hrun : Abs.execCall a c = some a') :
    a'.env.rtCurrentThread = none ∧ Owed pending a'.env := by
  have hkept : a'.env.rtCurrentThread = a.env.rtCurrentThread ∧
      a'.env.rtSchedulerLockNest = a.env.rtSchedulerLockNest := by
    unfold Abs.execCall at hrun
    cases c with
    | threadInit t priority tick => cases hrun; exact ⟨rfl, rfl⟩
    | threadStartup t =>
      obtain ⟨-, ⟨-, henv⟩ | ⟨hstarted, -⟩⟩ := startup_spec (onSched_spec hrun).1
      · rw [henv]; exact ⟨rfl, rfl⟩
      · exact absurd hnone hstarted
    | semInit s value flag => cases hrun; exact ⟨rfl, rfl⟩
    | timerInit u time flag => cases hrun; exact ⟨rfl, rfl⟩
    | timerControl u cmd => cases hrun; exact ⟨rfl, rfl⟩
    | timerStart u => rw [(onTimers_spec hrun).2]; exact ⟨rfl, rfl⟩
    | timerStop u => rw [(onTimers_spec hrun).2]; exact ⟨rfl, rfl⟩
    | _ => exact hc.elim
  have hnone' := hkept.1.trans hnone
  exact ⟨hnone', by rw [hkept.2]; exact h.nonneg, fun hcur => absurd hnone' hcur⟩

end Owed

/-! ## Runs -/

variable [Fintype τ] [Fintype υ]

/-- The calls made in pieces, with interrupts disabled and by handlers reschedule when they wake,
and detach no semaphore with a waiter more urgent than the current thread. -/
def KernelMove.Preempts (s : Interleaved τ σ υ) : KernelMove τ σ υ → Prop
  | .piece => ∀ c ∈ s.underway, c.Reschedules ∧ c.WakesBelow s.kernel
  | .masked c => c.Reschedules ∧ c.WakesBelow s.kernel
  | .tick script => tickMeets (fun k c => c.Reschedules ∧ c.WakesBelow k) script s.kernel
  | .handler cs => callsMeet (fun k c => c.Reschedules ∧ c.WakesBelow k) cs s.kernel
  | _ => True

instance (s : Interleaved τ σ υ) (m : KernelMove τ σ υ) : Decidable (m.Preempts s) := by
  rcases m <;> dsimp only [KernelMove.Preempts] <;> infer_instance

section
omit [DecidableEq τ] [DecidableEq σ] [DecidableEq υ] [Fintype υ]

/-- None of the functions of threads is among the calls that forget to reschedule. -/
theorem atOnce_preempts {f : Service σ} {c : Call τ σ υ} (hc : f.atOnce = some c)
    (k : RtKernel τ σ υ) : c.Reschedules ∧ c.WakesBelow k := by
  cases f <;> cases hc <;> exact ⟨trivial, trivial⟩

end

section
omit [Fintype υ]

/-- A piece keeps the most urgent thread running, or it is the last one and leaves a reschedule. -/
theorem Preemptive.piece (h : Preemptive a.env) (hk : KernelRel k a)
    {p : Piece τ σ υ} {n : Piece τ σ υ ⊕ Rest τ}
    (hc : p.call.Reschedules ∧ p.call.WakesBelow k) (heff : PieceEffect a p n a') :
    Preemptive a'.env ∨ leftAfter n ≠ none := by
  cases heff with
  | nothing => exact .inl h
  | @resumes t b hwake =>
    cases b with
    | false => exact hc.1.elim
    | true => exact .inr (by simp [leftAfter, resumed, Rest.left])
  | suspends => exact hc.1.elim
  | timerDetached => exact .inl h
  | unlinks => exact .inl (h.keep rfl rfl fun _ => ⟨rfl, rfl⟩)
  | @writes p q t r hp hq hst hr hunarmed hwf =>
    -- neither before nor after is the thread one that may run
    have hother : ∀ u, ((a.env.setThread t r).thread u).stat = .ready →
        u ≠ t ∧ (a.env.thread u).stat = .ready := by
      intro u hu
      have hut : u ≠ t := by
        rintro rfl
        simp [hr] at hu
      exact ⟨hut, by simpa [hut] using hu⟩
    refine .inl ⟨h.started, h.nonneg, fun hlock => ?_⟩
    obtain ⟨c, hcur, hready, hmin⟩ := h.urgent hlock
    have hct : c ≠ t := by
      rintro rfl
      exact hst hready
    refine ⟨c, hcur, by simpa [hct] using hready, fun u hu => ?_⟩
    obtain ⟨hut, hu⟩ := hother u hu
    simpa [hct, hut] using hmin u hu
  | @fails s t ts hwaiters hwake =>
    refine .inl (h.wakes hwake rfl rfl fun hlock c hcur u hu hnot => ?_)
    have hut : u = t := by
      by_contra hne
      exact hnot (by simpa [hne] using hu)
    have hbelow := hc.2
    simp only [Piece.call, Call.WakesBelow, hk.env.lockNest, hk.env.current, hk.env.thread,
      hk.waiters] at hbelow
    exact hbelow hlock c hcur u (by simp [hut, hwaiters])
  | disarms => exact .inl h
  | sets => exact .inl h

end

/-- **One move** keeps what is owed. -/
theorem Owed.move (hs : s.InOrder a) (hone : s.Single) (h : Owed s.pending a.env)
    {m : KernelMove τ σ υ} (hm : m.Allowed s) (hpre : m.Preempts s) (hrun : m.exec s = some s') :
    ∃ a', s'.InOrder a' ∧ Owed s'.pending a'.env := by
  obtain ⟨a', hs', heff⟩ := hs.move hm hrun
  refine ⟨a', hs', ?_⟩
  obtain ⟨hk, hw, -⟩ := hs
  have hcurrent : s.kernel.env.rtCurrentThread = a.env.rtCurrentThread := hk.env.current
  have hfree : KernelMove.Between s → ∀ t ∈ a.env.rtCurrentThread, s.pending t = none :=
    fun hbetween t ht => (hbetween t (hcurrent.trans ht)).1
  cases heff with
  | @leaves f t r _ _ hcur hr heff =>
    have hleaves := heff.leaves hw
    refine ⟨?_, fun _ => .inl ⟨t, hleaves.current.trans hcur, ?_⟩⟩
    · rcases hleaves.lockNest with hlock | hlock <;> rw [hlock]
      exact h.nonneg
    · simpa using hr
  | returns hcur hcall hallowed hrun =>
    have hpre₀ := h.preemptive (by rw [hcur]; simp) (hfree hm.1)
    exact .of_preemptive (hpre₀.call hk hw (atOnce_preempts hcall _) hallowed hrun)
  | finishes hcur hsched =>
    exact .of_preemptive
      (.schedule hw.sched (by rw [hcur]; simp) h.nonneg (onSched_spec hsched).1)
  | invokes => exact h
  | @pieces t p n _ _ hcur hp heff =>
    have hunderway : p.call ∈ s.underway := by
      simp [Interleaved.underway, hcurrent.trans hcur, hp]
    have hpre₀ := h.preemptive (by rw [hcur]; simp) fun u hu => by
      obtain rfl : t = u := Option.some.inj (hcur.symm.trans hu)
      exact hone t p hp
    rcases hpre₀.piece hk (hpre _ hunderway) heff with hpre' | hleft
    · exact .of_preemptive hpre'
    · have hleaves := heff.leaves hw
      refine ⟨?_, fun _ => .inl ⟨t, hleaves.current.trans hcur, by simpa using hleft⟩⟩
      rcases hleaves.lockNest with hlock | hlock <;> rw [hlock]
      exact h.nonneg
  | call hallowed hprepares hrun =>
    by_cases hcur : a.env.rtCurrentThread = none
    · exact (h.prepares (hprepares hcur) hcur hrun).2
    · have hpre₀ := h.preemptive hcur (hfree hm.1)
      exact .of_preemptive (hpre₀.call hk hw hpre hallowed hrun)
  | @tick script _ _ hrun =>
    have hcur : a.env.rtCurrentThread ≠ none := by
      obtain ⟨a₁, hstart, -⟩ := Option.bind_eq_some_iff.mp hrun
      obtain ⟨t, hcur, -⟩ := tickSlice_spec hw.sched (onSched_spec hstart).1
      rw [show a.env.rtCurrentThread = some t from hcur]
      simp
    have hrunning : Running s.pending a'.env := by
      refine tick_meets_invariant (I := Running s.pending) ?_ ?_ ?_ hk hw hpre ⟨hcur, h⟩ hrun
      · exact fun hw h hslice => h.tickSlice hw hslice
      · exact fun hw hact h htimeout => h.timeout hw.sched hact htimeout
      · exact fun hk hw hc hallowed h hcall => h.call hk hw hc hallowed hcall
    exact hrunning.2
  | @handler cs _ _ hcur hrun =>
    have hrunning : Running s.pending a'.env :=
      runCalls_meets_invariant (I := Running s.pending)
        (fun hk hw hc hallowed h hcall => h.call hk hw hc hallowed hcall) cs hk hw hpre
        ⟨hcur, h⟩ hrun
    exact hrunning.2
  | start hcur hsched => exact .of_preemptive (h.start hw.sched (onSched_spec hsched).1)

section
omit [Fintype τ] [Fintype υ]

theorem Owed.most_urgent (h : Owed s.pending a.env) (hs : s.InOrder a) {t : τ}
    (hcur : s.kernel.env.rtCurrentThread = some t) (hlock : s.kernel.env.rtSchedulerLockNest = 0)
    (howes : s.pending t = none) : MostUrgentRuns s.kernel := by
  obtain ⟨hk, -, -⟩ := hs
  rw [hk.env.current] at hcur
  rw [hk.env.lockNest] at hlock
  rw [MostUrgentRuns, hk.env.current, hk.env.thread]
  refine (h.preemptive (by rw [hcur]; simp) fun u hu => ?_).urgent hlock
  obtain rfl : t = u := Option.some.inj (hcur.symm.trans hu)
  exact howes

theorem Owed.booted {idle : τ} (h : Abs.boot idle = some a) : Owed pending a.env := by
  have hbooted := boot_spec h
  exact ⟨le_of_eq hbooted.lockNest.symm, fun hcur => absurd hbooted.current hcur⟩

end

theorem InterleavedReachable.owed {idle : τ}
    (hs : InterleavedReachable idle (fun s m => m.Preempts s) s) :
    ∃ a, s.InOrder a ∧ Owed s.pending a.env := by
  obtain ⟨k₀, hboot, hrun⟩ := hs
  obtain ⟨a₀, h₀, ha₀⟩ := Interleaved.InOrder.boot hboot
  refine (Run.invariant (I := fun s => s.Single ∧ ∃ a, s.InOrder a ∧ Owed s.pending a.env)
    (fun s m s' hI hm hrun => ?_) ⟨fun _ _ _ => rfl, a₀, h₀, .booted ha₀⟩ hrun).2
  obtain ⟨hone, a, hs, h⟩ := hI
  exact ⟨hone.move hm.1 hrun, h.move hs hone hm.1 hm.2 hrun⟩

/-- **Between sections, too, the most urgent ready thread runs**: whatever allowed ticks, handlers
and other threads have come in between, none of them making a call that leaves a reschedule due
(`KernelMove.Preempts`), if the scheduler is unlocked and the current thread has no reschedule
before it, then it is ready and no ready thread is more urgent. -/
theorem most_urgent_unless_owed {idle : τ}
    (hs : InterleavedReachable idle (fun s m => m.Preempts s) s) {t : τ}
    (hcur : s.kernel.env.rtCurrentThread = some t) (hlock : s.kernel.env.rtSchedulerLockNest = 0)
    (howes : s.pending t = none) : MostUrgentRuns s.kernel := by
  obtain ⟨a, hs, h⟩ := hs.owed
  exact h.most_urgent hs hcur hlock howes

end Owed

/-- Once thread 1 has called `rt_schedule`, thread 2 is current, owes nothing and is the most
urgent. -/
theorem urgent_after_sleep : ∃ s : Interleaved (Fin 3) (Fin 1) Empty,
    InterleavedReachable 0 (fun s m => m.Preempts s) s ∧ s.pending 1 = none ∧
      s.kernel.env.rtCurrentThread = some 2 ∧ MostUrgentRuns s.kernel := by
  obtain ⟨s, hs, hp⟩ := interleaved_of_run 0 (fun s m => m.Preempts s)
    (asleepAndTicked ++ [.finish])
    (fun s => decide (s.kernel.env.rtCurrentThread = some 2) &&
      decide (s.kernel.env.rtSchedulerLockNest = 0) && decide (s.pending 2 = none) &&
      decide (s.pending 1 = none)) (by decide +kernel)
  simp only [Bool.and_eq_true, decide_eq_true_eq] at hp
  obtain ⟨⟨⟨hcur, hlock⟩, howes⟩, hnone⟩ := hp
  exact ⟨s, hs, hnone, hcur, most_urgent_unless_owed hs hcur hlock howes⟩

end SampleRtos
