import SampleRtos.Kernel.ReadyTable
import SampleRtos.Kernel.Step

/-!
# Dispatching

As long as nobody takes the idle thread off the ready lists there is always a
ready thread, so what `rt_schedule` and `rt_system_scheduler_start` read under
the highest priority is a thread and no ready thread is more urgent.
-/

namespace SampleRtos

open Intrusive

section Dispatch
variable {τ σ υ : Type} [DecidableEq τ] [DecidableEq σ] [DecidableEq υ]

/-- A call that neither suspends nor detaches `u`. -/
def Call.Spares (u : τ) : Call τ σ υ → Prop
  | .threadSuspend t => t ≠ u
  | .threadDetach t => t ≠ u
  | _ => True

instance (u : τ) (c : Call τ σ υ) : Decidable (c.Spares u) := by
  rcases c <;> dsimp only [Call.Spares] <;> infer_instance

/-- An operation that neither suspends nor detaches `u` nor blocks in it, in
callbacks included. -/
def Op.Spares {LT LS : Type} (u : τ) (k : Kernel τ σ υ LT LS) : Op τ σ υ → Prop
  | .call c => c.Spares u
  | .threadSleep _ => k.env.rtCurrentThread ≠ some u
  | .semTake s time => TakeBlocks k s time → k.env.rtCurrentThread ≠ some u
  | .tickIncrease script => ∀ cs ∈ script, ∀ c ∈ cs, c.Spares u
  | .schedulerStart => True

instance {LT LS : Type} (u : τ) (k : Kernel τ σ υ LT LS) (op : Op τ σ υ) :
    Decidable (op.Spares u k) := by
  rcases op <;> dsimp only [Op.Spares] <;> infer_instance

/-! ## A ready thread stays ready -/

/-- `u` is ready with priority `p`. -/
def ReadyAt (u : τ) (p : Nat) (e : SchedSys τ σ (ThreadRings τ σ)) : Prop :=
  (e.thread u).stat = .ready ∧ (e.thread u).currentPriority = p

namespace ReadyAt
variable {a a' : SeqKernel τ σ υ} {e e' : SchedSys τ σ (ThreadRings τ σ)} {u : τ} {p : Nat}

section
omit [DecidableEq τ] [DecidableEq σ]

theorem of_thread (h : ReadyAt u p e) (hu : e'.thread u = e.thread u) : ReadyAt u p e' := by
  unfold ReadyAt
  rw [hu]
  exact h

theorem waking (h : ReadyAt u p e) (hwake : Waking e e') : ReadyAt u p e' :=
  ⟨hwake.ready u h.1, (hwake.prio u).trans h.2⟩

end

theorem call (h : ReadyAt u p a.env) {c : Call τ σ υ} (hs : c.Spares u)
    (heff : CallEffect a c e) : ReadyAt u p e := by
  cases heff with
  | waking hwake => exact h.waking hwake
  | init t priority tick hst =>
    have hut : u ≠ t := by
      rintro rfl
      rcases hst with hst | hst <;> simp [h.1] at hst
    exact h.of_thread (by simp [Abs.threadInit, hut])
  | suspend t => exact h.of_thread (by simp [Ne.symm hs])
  | discard t => exact h.of_thread (by simp [Ne.symm hs])
  | detach t => exact h.of_thread (by simp [Ne.symm hs])
  | semInit => exact h
  | taken => exact h

/-- **An operation that spares a ready thread leaves it ready.** -/
theorem exec [Fintype τ] (h : ReadyAt u p a.env) (hw : KernelWf a) {op : Op τ σ υ}
    (hop : Abs.Allowed a op) (hs : op.Spares u a) (hrun : Abs.exec a op = some a') :
    ReadyAt u p a'.env := by
  unfold Abs.exec at hrun
  cases op with
  | call c => exact h.call hs (execCall_effect hw hop hrun)
  | threadSleep tick =>
    obtain ⟨t, hcur, hcan⟩ := hop
    have hut : u ≠ t := fun hut => hs (hut ▸ hcur)
    exact h.of_thread (by rw [(threadSleep_sleeps hw hcan hcur hrun).thread]; simp [hut])
  | semTake s time =>
    obtain ⟨_, hr⟩ := returned_of_map hrun
    rcases semTake_spec hr with ⟨-, -, rfl⟩ | ⟨-, -, -, rfl⟩ | ⟨hb, t, hcur, -, hwait⟩
    · exact h
    · exact h
    · have hut : u ≠ t := fun hut => hs hb (hut ▸ hcur)
      obtain ⟨t', hcur', hmay⟩ := hop hb
      obtain rfl : t = t' := Option.some.inj (hcur.symm.trans hcur')
      exact h.of_thread (by rw [(takeWait_waits hw hmay hwait).thread]; simp [hut])
  | tickIncrease script =>
    exact tick_invariant (I := ReadyAt u p) (C := Call.Spares u) (fun _ _ _ h => h.waking)
      (fun _ _ _ hs _ h => h.call hs) hw h hs hrun
  | schedulerStart => exact h.waking (Waking.schedStart hw.sched (onSched_spec hrun).1)

/-- The idle thread is ready after initialisation. -/
theorem boot {idle : τ} (h : Abs.boot idle = some a) :
    ReadyAt idle (RT_THREAD_PRIORITY_MAX - 1) a.env := by
  unfold ReadyAt
  rw [(boot_spec h).thread]
  simp [RtThread.started, Abs.threadInit]

end ReadyAt

/-! ## Dispatching -/

/-- **Dispatching.** While the idle thread is spared, the scheduler always finds a
ready thread and none is more urgent. `rt_schedule` makes it the current thread
unless the scheduler is locked, `rt_system_scheduler_start` in any case. -/
theorem dispatch_correct [Fintype τ] [Fintype υ] {idle : τ} {k : RtKernel τ σ υ}
    (hk : Reachable idle (fun k op => op.Spares idle k) k) :
    k.env.rtThreadReadyPriorityGroup ≠ 0 ∧
      k.env.highestReadyPriority < RT_THREAD_PRIORITY_MAX ∧
      ∃ t ts, ThreadRing k (.ready k.env.highestReadyPriority) (t :: ts) ∧
        (k.env.thread t).stat = .ready ∧
        (∀ u, (k.env.thread u).stat = .ready →
          (k.env.thread t).currentPriority ≤ (k.env.thread u).currentPriority) ∧
        (∃ e, rtSchedule k.env = some e ∧ e.rtCurrentThread =
          if k.env.rtSchedulerLockNest = 0 then some t else k.env.rtCurrentThread) ∧
        ∃ e, rtSystemSchedulerStart k.env = some e ∧ e.rtCurrentThread = some t := by
  obtain ⟨a, h, hw, hidle⟩ := hk.invariant
    (I := fun a => ReadyAt idle (RT_THREAD_PRIORITY_MAX - 1) a.env)
    (fun a ha _ => ReadyAt.boot ha) fun k a op a' h hw hI hop hs hrun => by
      refine hI.exec hw hop ?_ hrun
      cases op with
      | call c => exact hs
      | threadSleep tick => exact fun hcur => hs (h.env.current.trans hcur)
      | semTake s time =>
        exact fun hb hcur => hs ((takeBlocks_iff h s time).mpr hb) (h.env.current.trans hcur)
      | tickIncrease script => exact hs
      | schedulerStart => trivial
  obtain ⟨hne, hlt, t, ts, hlist, hst, hmin⟩ :=
    highestReadyThread_spec hw.sched ⟨idle, hidle.1⟩
  have hfirst : highestReadyThread k.env = some t := by
    rw [highestReadyThread_rel h.env, Abs.highestReadyThread, hlist]
    rfl
  rw [h.env.group, h.env.highestReadyPriority, h.env.thread]
  refine ⟨hne, hlt, t, ts, hlist ▸ threadRing_ready h hw.sched hlt, hst, hmin,
    ⟨_, by rw [rtSchedule, hfirst]; rfl, SchedSys.switchTo_current _ _⟩,
    ⟨_, by rw [rtSystemSchedulerStart, hfirst]; rfl, rfl⟩⟩

end Dispatch

/-- Two threads beside the idle one, started and dispatched, one of them asleep. -/
def dispatchAndSleep : List (Op (Fin 3) (Fin 1) (Fin 1)) :=
  [.call (.threadInit 1 3 10), .call (.threadInit 2 5 10), .call (.threadStartup 1),
    .call (.threadStartup 2), .schedulerStart, .threadSleep 7]

theorem dispatch_after_sleep :
    ∃ k, runFrom 0 (fun k op => op.Spares 0 k) dispatchAndSleep = some k ∧
      k.env.highestReadyPriority < RT_THREAD_PRIORITY_MAX ∧
      ∃ t ts, ThreadRing k (.ready k.env.highestReadyPriority) (t :: ts) := by
  obtain ⟨k, hk, hreach, -⟩ := reachable_of_runFrom 0 (fun k op => op.Spares 0 k)
    dispatchAndSleep (fun _ => true) (by decide +kernel)
  obtain ⟨-, hlt, t, ts, hring, -⟩ := dispatch_correct hreach
  exact ⟨k, hk, hlt, t, ts, hring⟩

/-- `rt_system_scheduler_start` does not look at the scheduler lock: taken before
the start, it does not keep the current thread. -/
theorem schedulerStart_ignores_lock :
    ¬ ∀ k : RtKernel (Fin 3) (Fin 1) (Fin 1), Reachable 0 (fun k op => op.Spares 0 k) k →
      k.env.rtSchedulerLockNest ≠ 0 → ∀ e, rtSystemSchedulerStart k.env = some e →
        e.rtCurrentThread = k.env.rtCurrentThread := by
  intro hclaim
  obtain ⟨k, -, hreach, hk⟩ := reachable_of_runFrom 0 (fun k op => op.Spares 0 k)
    ([.call .enterCritical] : List (Op (Fin 3) (Fin 1) (Fin 1)))
    (fun k => k.env.rtSchedulerLockNest = 1 && k.env.rtCurrentThread = none &&
      (rtSystemSchedulerStart k.env).any fun e => e.rtCurrentThread = some 0) (by decide +kernel)
  simp only [Bool.and_eq_true, decide_eq_true_eq, Option.any_eq_true] at hk
  obtain ⟨⟨hlock, hcur⟩, e, he, hstart⟩ := hk
  have hkept := hclaim k hreach (by simp [hlock]) e he
  rw [hcur, hstart] at hkept
  cases hkept

end SampleRtos
