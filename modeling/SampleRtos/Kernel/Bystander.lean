import SampleRtos.Sched.FailAll
import SampleRtos.Kernel.ResumeTick

/-!
# Bystanders

A call that is not about a thread and does not wake it leaves its record as it is and
where it waits.
-/

namespace SampleRtos

open Intrusive

section Bystander
variable {τ σ υ : Type} [DecidableEq τ] [DecidableEq σ] [DecidableEq υ]

/-- From `e` to `e'` nothing has happened to `t`. -/
structure Bystander (t : τ) (e e' : SchedSys τ σ (ThreadRings τ σ)) : Prop where
  thread : e'.thread t = e.thread t
  waiters : ∀ s, t ∈ e'.waiters s ↔ t ∈ e.waiters s

namespace Bystander
variable {e e' e'' : SchedSys τ σ (ThreadRings τ σ)} {t u : τ} {s : σ}

section
omit [DecidableEq τ] [DecidableEq σ]

theorem refl (t : τ) (e : SchedSys τ σ (ThreadRings τ σ)) : Bystander t e e :=
  ⟨rfl, fun _ => Iff.rfl⟩

theorem trans (h : Bystander t e e') (h' : Bystander t e' e'') : Bystander t e e'' :=
  ⟨h'.thread.trans h.thread, fun s => (h'.waiters s).trans (h.waiters s)⟩

theorem of_eq (hthread : e'.thread = e.thread) (hwaiters : e'.waiters = e.waiters) :
    Bystander t e e' :=
  ⟨by rw [hthread], fun s => by rw [hwaiters]⟩

end

section
omit [DecidableEq σ]

theorem schedule (h : Abs.schedule e = some e') : Bystander t e e' :=
  have hsame := schedule_same h
  of_eq hsame.thread hsame.waiters

/-- Another thread gets a new record. -/
theorem update {r : RtThread} (htu : t ≠ u) (hthread : e'.thread = Function.update e.thread u r)
    (hwaiters : e'.waiters = e.waiters) : Bystander t e e' :=
  ⟨by simp [hthread, htu], fun s => by rw [hwaiters]⟩

end

/-- Another thread goes to the end of its ready list. -/
theorem relist {r : RtThread} (htu : t ≠ u) : Bystander t e (e.relistReady u r) :=
  ⟨by simp [htu], fun s => by simp [List.mem_erase_of_ne htu]⟩

section
omit [DecidableEq σ]

/-- Another thread goes off its list. -/
theorem unlist {r : RtThread} (htu : t ≠ u) : Bystander t e (e.unlist u r) :=
  ⟨by simp [htu], fun s => by simp [List.mem_erase_of_ne htu]⟩

end

/-- A ready thread goes to the end of its ready list. -/
theorem rotate (hw : SchedWf e) (hst : (e.thread u).stat = .ready) :
    Bystander t e (e.relistReady u (e.thread u)) := by
  by_cases htu : t = u
  · subst htu
    have hfree : ∀ s, t ∉ e.waiters s := fun s ht => by simp [hw.waiting t s ht] at hst
    exact ⟨by simp, fun s => by simp [List.erase_of_not_mem (hfree s)]⟩
  · exact relist htu

theorem yield (hw : SchedWf e) (h : Abs.yield e = some e') : Bystander t e e' := by
  obtain ⟨u, -, ⟨rfl, -⟩ | ⟨hst, hsched⟩⟩ := yield_spec hw h
  · exact refl t _
  · exact (rotate hw hst).trans (schedule hsched)

/-- All waiters of `s` are woken, and `t` is none of them. -/
theorem failAll (hw : SchedWf e) (ht : t ∉ e.waiters s) :
    Bystander t e (e.failAll (e.waiters s)) := by
  refine ⟨failAll_thread_of_not_mem ht e, fun q => ?_⟩
  by_cases hq : q = s
  · subst hq
    simp [(hw.failAll rfl).2, ht]
  · rw [failAll_waiters hq _ hw rfl]

variable {a a' : SeqKernel τ σ υ}

/-- **What a call does to the threads it is not about and does not wake.** -/
theorem call [Fintype τ] (hw : KernelWf a) {c : Call τ σ υ} (hc : c.Avoids t)
    (hnot : t ∉ wokenBy (υ := υ) a.env.thread a.env.waiters (.call c))
    (hrun : Abs.execCall a c = some a') : Bystander t a.env a'.env := by
  unfold Abs.execCall at hrun
  cases c with
  | threadInit u priority tick => cases hrun; exact update (Ne.symm hc) rfl rfl
  | threadStartup u =>
    have hmoved : Bystander t a.env (a.env.relistReady u (a.env.thread u).started) :=
      relist (Ne.symm hc)
    obtain ⟨-, ⟨-, henv⟩ | ⟨-, hsched⟩⟩ := startup_spec (onSched_spec hrun).1
    · rw [henv]
      exact hmoved
    · exact hmoved.trans (schedule hsched)
  | threadResume u =>
    obtain ⟨_, hr⟩ := returned_of_map (onSched_spec hrun).1
    rcases resume_spec hr with ⟨-, -, henv⟩ | ⟨-, -, -, henv⟩ <;> rw [henv]
    · exact refl t _
    · exact relist (Ne.symm hc)
  | threadSuspend u =>
    obtain ⟨_, hr⟩ := returned_of_map hrun
    rcases threadSuspend_spec hw.sched hr with ⟨-, -, rfl⟩ | ⟨-, -, henv, -⟩
    · exact refl t _
    · rw [henv]
      exact unlist (Ne.symm hc)
  | threadYield => exact yield hw.sched (onSched_spec hrun).1
  | threadDetach u =>
    obtain ⟨-, -, ⟨-, henv⟩ | ⟨-, henv⟩⟩ := threadDetach_spec hw.sched hrun <;> rw [henv]
    · exact update (Ne.symm hc) rfl rfl
    · exact unlist (Ne.symm hc)
  | semInit s value flag => cases hrun; exact of_eq rfl rfl
  | semTrytake s =>
    obtain ⟨_, hr⟩ := returned_of_map hrun
    rcases semTake_spec hr with ⟨-, -, rfl⟩ | ⟨-, -, -, rfl⟩ | ⟨hb, -⟩
    · exact of_eq rfl rfl
    · exact refl t _
    · exact absurd rfl hb.2
  | semRelease s =>
    rcases semRelease_spec hw.sched (onSched_spec hrun).1 with
      ⟨-, henv⟩ | ⟨u, us, hus, -, hsched⟩
    · rw [henv]
      exact of_eq rfl rfl
    · have htu : t ≠ u := fun htu => hnot (by simp [wokenBy, hus, htu])
      exact (relist htu).trans (schedule hsched)
  | semControl s cmd arg =>
    obtain ⟨_, hr⟩ := returned_of_map (onSched_spec hrun).1
    rcases semControl_spec hw.sched hr with ⟨-, -, henv⟩ | ⟨hcmd, -, hsched⟩
    · rw [henv]
      exact refl t _
    · have hfail : Bystander t a.env (a.env.failAll (a.env.waiters s)) :=
        failAll hw.sched (by simpa [wokenBy, hcmd] using hnot)
      have hset : Bystander t (a.env.failAll (a.env.waiters s))
          ((a.env.failAll (a.env.waiters s)).setSem s
            { (a.env.failAll (a.env.waiters s)).sem s with value := arg.setWidth 16 }) :=
        of_eq rfl rfl
      exact (hfail.trans hset).trans (schedule hsched)
  | semDetach s =>
    rw [semDetach_spec hw.sched (onSched_spec hrun).1]
    exact failAll hw.sched hnot
  | enterCritical =>
    cases hrun
    refine of_eq ?_ ?_ <;> simp only [SchedSys.rtEnterCritical] <;> split <;> rfl
  | exitCritical =>
    obtain ⟨n, henv | hsched⟩ := exitCritical_spec (onSched_spec hrun).1
    · rw [henv]
      exact of_eq rfl rfl
    · have hlock : Bystander t a.env { a.env with rtSchedulerLockNest := n } := of_eq rfl rfl
      exact hlock.trans (schedule hsched)
  | schedule => exact schedule (onSched_spec hrun).1
  | timerInit v time flag => cases hrun; exact refl t _
  | timerControl v cmd => cases hrun; exact refl t _
  | _ => rw [(onTimers_spec hrun).2]; exact refl t _

end Bystander

end Bystander

end SampleRtos
