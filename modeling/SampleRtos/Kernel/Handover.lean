import SampleRtos.Kernel.Dispatch
import SampleRtos.Kernel.Settle

/-!
# Who runs after a tick

`rt_tick_increase` reaches `rt_schedule` in two ways: `rt_thread_yield` at the end of a
slice, which acts on a ready thread only, and the callbacks of the timers that are due.
A ready current thread is therefore followed by a ready one. A current thread that has
suspended or detached itself is not looked at, and runs on until a callback reschedules.
-/

namespace SampleRtos

open Intrusive

section Handover
variable {τ σ υ : Type} [DecidableEq τ] [DecidableEq σ] [DecidableEq υ]

/-- The current thread is ready. -/
def ReadyRuns {L : Type} (e : SchedSys τ σ L) : Prop :=
  ∃ t ∈ e.rtCurrentThread, (e.thread t).stat = .ready

instance {L : Type} (e : SchedSys τ σ L) : Decidable (ReadyRuns e) :=
  inferInstanceAs (Decidable (∃ t ∈ e.rtCurrentThread, _))

theorem SchedRel.readyRuns {k : SchedSys τ σ (ThreadLinks τ σ)}
    {a : SchedSys τ σ (ThreadRings τ σ)} (h : SchedRel k a) : ReadyRuns k ↔ ReadyRuns a := by
  rw [ReadyRuns, ReadyRuns, h.current, h.thread]

/-- The call neither suspends nor detaches the current thread. -/
def Call.SparesCurrent (k : RtKernel τ σ υ) (c : Call τ σ υ) : Prop :=
  ∀ t ∈ k.env.rtCurrentThread, c.Spares t

instance (k : RtKernel τ σ υ) (c : Call τ σ υ) : Decidable (c.SparesCurrent k) :=
  inferInstanceAs (Decidable (∀ t ∈ k.env.rtCurrentThread, _))

/-! ## One step -/

section Step
variable {e e' : SchedSys τ σ (ThreadRings τ σ)} {t : τ}

section
omit [DecidableEq σ]

/-- A reschedule of an unlocked scheduler puts a ready thread on. -/
theorem ReadyRuns.schedule (hw : SchedWf e) (hlock : e.rtSchedulerLockNest = 0)
    (h : Abs.schedule e = some e') : ReadyRuns e' := by
  obtain ⟨u, hready, hcur⟩ := schedule_dispatch hw h
  rw [if_pos hlock] at hcur
  exact ⟨u, hcur, hready⟩

end

theorem ReadyRuns.timeout (hw : SchedWf e) (hact : (e.thread t).Active)
    (hlock : e.rtSchedulerLockNest = 0) (h : Abs.timeout e t = some e') : ReadyRuns e' := by
  have hw₁ : SchedWf (e.relistReady t (e.thread t).timedOut) := hw.wake hact rfl rfl rfl rfl
  exact schedule hw₁ hlock (timeout_spec h).2

section
omit [DecidableEq σ]

/-- The current thread stays ready or gives way to a ready one. -/
theorem ReadyRuns.settles (h : ReadyRuns e) (hset : Settles e e')
    (hready : ∀ t ∈ e.rtCurrentThread, (e.thread t).stat = .ready →
      (e'.thread t).stat = .ready) : ReadyRuns e' := by
  obtain ⟨t, ht, hst⟩ := h
  have hst' := hready t ht hst
  cases hset with
  | kept hcur hlock => exact ⟨t, hcur.trans ht, hst'⟩
  | nested hcur hlock hpos => exact ⟨t, hcur.trans ht, hst'⟩
  | opened hcur hcur' hlock =>
    rw [hcur] at ht
    cases ht
  | scheduled f hw hcur hlock hrun =>
    by_cases hzero : f.rtSchedulerLockNest = 0
    · exact schedule hw hzero hrun
    · obtain ⟨u, -, hcur'⟩ := schedule_dispatch hw hrun
      rw [if_neg hzero] at hcur'
      exact ⟨t, hcur'.trans (hcur.trans ht), hst'⟩

theorem ReadyRuns.waking (h : ReadyRuns e) (hset : Settles e e') (hwake : Waking e e') :
    ReadyRuns e' :=
  h.settles hset fun t _ => hwake.ready t

end

theorem ReadyRuns.call [Fintype τ] {k : RtKernel τ σ υ} {a a' : SeqKernel τ σ υ}
    (h : ReadyRuns a.env) (hk : KernelRel k a) (hw : KernelWf a) {c : Call τ σ υ}
    (hspare : c.SparesCurrent k) (hc : Abs.CallAllowed a c) (hrun : Abs.execCall a c = some a') :
    ReadyRuns a'.env := by
  have heff := execCall_effect hw hc hrun
  by_cases hlocks : c = .enterCritical
  · subst hlocks
    cases hrun
    obtain ⟨t, ht, hst⟩ := h
    have hsame : a.env.rtEnterCritical.rtCurrentThread = a.env.rtCurrentThread := by
      unfold SchedSys.rtEnterCritical
      split <;> rfl
    have hwake := Waking.enterCritical hw.sched
    exact ⟨t, hsame.trans ht, hwake.ready t hst⟩
  · refine h.settles (Settles.call hw hlocks hrun) fun t ht hst => ?_
    have hspared : c.Spares t := hspare t (hk.env.current.trans ht)
    exact (ReadyAt.call ⟨hst, rfl⟩ hspared heff).1

section
omit [DecidableEq σ]

/-- An unlocked scheduler stays unlocked. -/
theorem Settles.unlocked (hset : Settles e e') (hlock : e.rtSchedulerLockNest = 0) :
    e'.rtSchedulerLockNest = 0 := by
  cases hset with
  | kept hcur hkept => exact hkept.trans hlock
  | nested hcur hdown hpos => omega
  | opened hcur hcur' hzero => exact hzero
  | scheduled f hw hcur hf hrun =>
    rw [(schedule_same hrun).lockNest]
    rcases hf with hf | hf
    · exact hf.trans hlock
    · exact hf

end

end Step

/-! ## One tick -/

section Tick
variable [Fintype τ] [Fintype υ]

/-- The check fires the timer of some thread. -/
def timerCheckExpires : List (List (Call τ σ υ)) → RtKernel τ σ υ → Prop
  | [], _ => False
  | c :: script, k =>
      ∃ x ∈ k.queue.head?, (k.timers.timer x).due k.timers.rtTick ∧
        ((∃ t, x = threadTimer t) ∨
          ∃ k' ∈ rtTimerFire kernelCallback c x k, timerCheckExpires script k')

/-- The tick times some thread out. -/
def tickExpires (script : List (List (Call τ σ υ))) (k : RtKernel τ σ υ) : Prop :=
  ∃ k' ∈ Sys.onSched { k with timers := { k.timers with rtTick := k.timers.rtTick + 1 } }
    rtTickSlice, timerCheckExpires script k'

instance decidableTimerCheckExpires : ∀ (script : List (List (Call τ σ υ))) (k : RtKernel τ σ υ),
    Decidable (timerCheckExpires script k)
  | [], _ => .isFalse id
  | _ :: script, k =>
      have := decidableTimerCheckExpires script
      inferInstanceAs (Decidable (∃ x ∈ k.queue.head?, _ ∧ (_ ∨ ∃ k' ∈ _, _)))

instance (script : List (List (Call τ σ υ))) (k : RtKernel τ σ υ) :
    Decidable (tickExpires script k) :=
  inferInstanceAs (Decidable (∃ k' ∈ Sys.onSched _ _, _))

/-- The call takes no lock and spares the current thread. -/
def Call.LeavesScheduling (k : RtKernel τ σ υ) (c : Call τ σ υ) : Prop :=
  c.SparesCurrent k ∧ c ≠ .enterCritical

variable {k : RtKernel τ σ υ} {a a' : SeqKernel τ σ υ}

/-- From a ready current thread to a ready current thread. -/
theorem check_readyRuns {script : List (List (Call τ σ υ))} (hk : KernelRel k a) (hw : KernelWf a)
    (hspare : timerCheckMeets (fun k c => c.SparesCurrent k) script k) (h : ReadyRuns a.env)
    (hrun : Abs.timerCheck Abs.callback script a = some a') : ReadyRuns a'.env := by
  refine timerCheck_meets_invariant (I := ReadyRuns) (Q := fun _ _ => True) ?_ ?_ script hk hw
    hspare (timerCheckTimeouts_true script) h hrun
  · intro k a t e _ hw hact _ h he
    exact h.waking (Settles.timeout hw.sched hact he) (Waking.timeout hw.sched hact he)
  · intro k a c a' hk hw hc hallowed h hrun
    exact h.call hk hw hc hallowed hrun

/-- The timeout of a thread puts a ready thread on, whoever ran before. -/
theorem check_times_out (script : List (List (Call τ σ υ))) :
    ∀ {k : RtKernel τ σ υ} {a : SeqKernel τ σ υ}, KernelRel k a → KernelWf a →
      a.env.rtSchedulerLockNest = 0 → timerCheckExpires script k →
      timerCheckMeets (fun k c => c.LeavesScheduling k) script k →
      Abs.timerCheck Abs.callback script a = some a' → ReadyRuns a'.env := by
  induction script with
  | nil => intro k a _ _ _ hexp; exact hexp.elim
  | cons c script ih =>
    intro k a hk hw hlock hexp hP hrun
    obtain ⟨x, hx, hdue, hfires⟩ := hexp
    obtain ⟨hfireMeets, hlater⟩ := hP x hx hdue
    rw [hk.queue] at hx
    rw [hk.timers.timer, hk.timers.rtTick] at hdue
    obtain ⟨b, hfire, hrest⟩ : ∃ b, Abs.timerFire Abs.callback c x a = some b ∧
        Abs.timerCheck Abs.callback script b = some a' := by
      rw [Abs.timerCheck_due hx hdue] at hrun
      exact Option.bind_eq_some_iff.mp hrun
    obtain ⟨k₁, hk₁, h₁⟩ := Lockstep.exists_of_right (kernelFire_rel hk hw c x) hfire
    have hw₁ := hw.fire hx hfire
    have hspare := timerCheckMeets_mono (Q := fun k c => c.SparesCurrent k)
      (fun _ _ h => h.1) script (hlater k₁ hk₁)
    by_cases hthread : ∃ t, x = threadTimer t
    · -- the timeout ends in a switch, and nothing the loop does later undoes that
      obtain ⟨t, rfl⟩ := hthread
      have hmem : .inl t ∈ a.timers.queue := List.mem_of_mem_head? hx
      obtain ⟨hlive, f, a₁, hf, hcallback, hend⟩ := Abs.timerFire_spec hfire
      have hok := hw.timers.ok (.inl t) hlive
      obtain rfl : .rtThreadTimeout t = f := Option.some.inj (hok.1.symm.trans hf)
      obtain ⟨he, -⟩ := onSched_spec (show (a.unlinked (.inl t)).onSched
        (fun e => Abs.timeout e t) = some a₁ from hcallback)
      have hready : ReadyRuns b.env := by
        have h₂ : ReadyRuns a₁.env :=
          ReadyRuns.timeout hw.sched (hw.linked t hmem) hlock he
        rcases hend with ⟨-, -, -, henv⟩ | ⟨-, rfl⟩
        · rw [henv]; exact h₂
        · exact h₂
      exact check_readyRuns h₁ hw₁ hspare hready hrest
    · -- a timer of the program: the timeout is still to come
      obtain ⟨k₂, hk₂, hexp⟩ := hfires.resolve_left hthread
      obtain rfl : k₁ = k₂ := Option.some.inj (hk₁.symm.trans hk₂)
      have hlock₁ : b.env.rtSchedulerLockNest = 0 := by
        refine fire_meets_invariant (I := fun e => e.rtSchedulerLockNest = 0)
          (Q := fun _ _ => True) (P := fun k c => c.LeavesScheduling k) ?_ ?_ hk hw hx hfireMeets
          (fun _ _ => trivial) hlock hfire
        · intro k a t e _ hw hact _ hzero he
          exact (Settles.timeout hw.sched hact he).unlocked hzero
        · intro k a c a' _ hw hc _ hzero hrun
          exact (Settles.call hw hc.2 hrun).unlocked hzero
      exact ih h₁ hw₁ hlock₁ hexp (hlater k₁ hk₁) hrest

section
omit [Fintype τ]

/-- A current thread that is not ready is left alone by a slice. -/
theorem tickSlice_unready {e e' : SchedSys τ σ (ThreadRings τ σ)} (hw : SchedWf e)
    (hnot : ¬ ReadyRuns e) (h : Abs.tickSlice e = some e') :
    e'.rtCurrentThread = e.rtCurrentThread ∧ ¬ ReadyRuns e' := by
  obtain ⟨t, hcur, hcase⟩ := tickSlice_spec hw h
  have hst : (e.thread t).stat ≠ .ready := fun hst => hnot ⟨t, hcur, hst⟩
  have hkeep : ∀ n, ¬ ReadyRuns (e.setThread t ((e.thread t).withRemaining n)) := by
    rintro n ⟨u, hu, hready⟩
    obtain rfl : t = u := Option.some.inj (hcur.symm.trans hu)
    exact hst (by simpa [RtThread.withRemaining] using hready)
  rcases hcase with ⟨-, rfl⟩ | ⟨-, ⟨rfl, -⟩ | ⟨hready, -⟩⟩
  · exact ⟨rfl, hkeep _⟩
  · exact ⟨rfl, hkeep _⟩
  · exact absurd hready hst

end

/-- **Who runs after a tick.** A ready current thread is followed by a ready one, unless a
callback suspends or detaches the thread then current; so is any other if the tick times a
thread out and no callback interferes with the scheduling. Without a timer that is due a
current thread that is not ready runs on. -/
theorem tick_hands_over {idle : τ} {k k' : RtKernel τ σ υ}
    (hk : ReachableLocked idle (fun k op => op.LinksOnce k) k)
    (hlock : k.env.rtSchedulerLockNest = 0) {script : List (List (Call τ σ υ))}
    (hrun : kernelTick script k = some k') :
    (tickMeets (fun k c => c.SparesCurrent k) script k → ReadyRuns k.env → ReadyRuns k'.env) ∧
      (tickMeets (fun k c => c.LeavesScheduling k) script k → tickExpires script k →
        ReadyRuns k'.env) ∧
      (¬ ReadyRuns k.env →
        (∀ x ∈ k.queue.head?, ¬ (k.timers.timer x).due (k.timers.rtTick + 1)) →
        k'.env.rtCurrentThread = k.env.rtCurrentThread ∧ ¬ ReadyRuns k'.env) := by
  obtain ⟨a, h, hw⟩ := hk.wf
  obtain ⟨k₁, hk₁, hcheck⟩ := Option.bind_eq_some_iff.mp hrun
  obtain ⟨a₁, hstart, h₁⟩ := Lockstep.exists_of_left (tickStart_rel h hw.sched) hk₁
  have hw₁ := hw.tickStart hstart
  obtain ⟨a', ha', h'⟩ := Lockstep.exists_of_left (kernelCheck_rel h₁ hw₁ script) hcheck
  obtain ⟨hslice, htimers⟩ := onSched_spec hstart
  have hset := Settles.tickSlice hw.sched hslice
  rw [h.env.lockNest] at hlock
  refine ⟨fun hspare hready => ?_, fun hP hexp => ?_, fun hnot hquiet => ?_⟩
  · have hready₁ : ReadyRuns a₁.env :=
      (h.env.readyRuns.mp hready).waking hset (Waking.tickSlice hw.sched hslice)
    exact h'.env.readyRuns.mpr (check_readyRuns h₁ hw₁ (hspare k₁ hk₁) hready₁ ha')
  · obtain ⟨k₂, hk₂, hexp⟩ := hexp
    obtain rfl : k₁ = k₂ := Option.some.inj (hk₁.symm.trans hk₂)
    exact h'.env.readyRuns.mpr
      (check_times_out script h₁ hw₁ (hset.unlocked hlock) hexp (hP k₁ hk₁) ha')
  · rw [h.env.readyRuns] at hnot
    obtain ⟨hcur, hnot₁⟩ := tickSlice_unready hw.sched hnot hslice
    -- nothing is due after the slice either, so the check changes nothing
    have hquiet₁ : Quiet a₁ := by
      intro x hx
      rw [htimers] at hx ⊢
      rw [h.queue, h.timers.timer, h.timers.rtTick] at hquiet
      exact hquiet x hx
    rw [Abs.timerCheck_quiet hw₁.timers.head_live hquiet₁] at ha'
    cases ha'
    rw [h'.env.current, h'.env.readyRuns, h.env.current]
    exact ⟨hcur, hnot₁⟩

end Tick

end Handover

/-- Thread 1 runs, and thread 2, the more urgent, sleeps for one tick. -/
def oneSleeps : List (Op (Fin 3) (Fin 1) Empty) :=
  [.call (.threadInit 1 5 10), .call (.threadInit 2 3 10), .call (.threadStartup 1),
    .call (.threadStartup 2), .schedulerStart, .threadSleep 1]

/-- Thread 1 has suspended itself and runs on; the tick times thread 2 out. -/
theorem suspended_until_expiry : ∃ k k', runLocked 0 (fun k op => op.LinksOnce k)
    (oneSleeps ++ [.call (.threadSuspend 1)]) = some k ∧ ¬ ReadyRuns k.env ∧
    kernelTick [[]] k = some k' ∧ ReadyRuns k'.env := by
  obtain ⟨k, hk, hreach, hp⟩ := reachableLocked_of_run 0 (fun k op => op.LinksOnce k)
    (oneSleeps ++ [.call (.threadSuspend 1)])
    (fun k => decide (k.env.rtSchedulerLockNest = 0) && decide (¬ ReadyRuns k.env) &&
      decide (tickExpires [[]] k) && (kernelTick [[]] k).isSome) (by decide +kernel)
  simp only [Bool.and_eq_true, decide_eq_true_eq, Option.isSome_iff_exists] at hp
  obtain ⟨⟨⟨hlock, hnot⟩, hexp⟩, k', hk'⟩ := hp
  refine ⟨k, k', hk, hnot, hk', ?_⟩
  refine (tick_hands_over hreach hlock hk').2.1 (tickMeets_of_forall ?_) hexp
  simp

/-- Without a timer it runs on past the tick. -/
theorem suspended_runs_on :
    ¬ ∀ (k k' : RtKernel (Fin 3) (Fin 1) Empty) (script : List (List (Call (Fin 3) (Fin 1) Empty))),
      ReachableLocked 0 (fun k op => op.LinksOnce k) k → k.env.rtCurrentThread ≠ none →
      k.env.rtSchedulerLockNest = 0 → kernelTick script k = some k' → ReadyRuns k'.env := by
  intro hclaim
  obtain ⟨k, -, hreach, hp⟩ := reachableLocked_of_run 0 (fun k op => op.LinksOnce k)
    ([.call (.threadInit 1 5 10), .call (.threadStartup 1), .schedulerStart,
      .call (.threadSuspend 1)] : List (Op (Fin 3) (Fin 1) Empty))
    (fun k => decide (k.env.rtCurrentThread ≠ none) &&
      decide (k.env.rtSchedulerLockNest = 0) &&
      (kernelTick [] k).any fun k : RtKernel (Fin 3) (Fin 1) Empty => decide (¬ ReadyRuns k.env))
    (by decide +kernel)
  simp only [Bool.and_eq_true, decide_eq_true_eq, Option.any_eq_true] at hp
  obtain ⟨⟨hcur, hlock⟩, k', hk', hnot⟩ := hp
  exact hnot (hclaim k k' [] hreach hcur hlock hk')

end SampleRtos
