import SampleRtos.Timer.AmidTick
import SampleRtos.Kernel.DetachTick
import SampleRtos.Kernel.Sections
import SampleRtos.Kernel.WakeAll

/-!
# Functions in several pieces

The functions with which a thread wakes, starts, suspends or detaches another one, detaches a
semaphore or sets a timer of the program open the mask between what they do, and some of what
they do they do unmasked. Each is a sequence of pieces: one masked section, or one test or write
that the source makes with the mask open. A piece relies on what the pieces before it have found or
left; what comes in between may not undo that.
-/

namespace SampleRtos

open Intrusive

/-- The unmasked writes of `rt_thread_startup`, the next one of which is to be made. -/
inductive StartupPoint where
  | priority
  | mask
  | stat
  deriving DecidableEq, Repr

/-- What is next in such a function. `rt_thread_resume` may have been called by
`rt_thread_startup`; `rt_thread_suspend` has made its test or has not. -/
inductive Piece (τ σ υ : Type) where
  | resume (t : τ) (p : ResumePoint) (starting : Bool)
  | startup (t : τ) (p : StartupPoint)
  | suspend (t : τ) (tested : Bool)
  | detach (t : τ) (p : DetachPoint)
  | semDetach (s : σ) (p : LoopPoint)
  | timer (u : υ) (p : TimerPoint)
  | timerDetach (u : υ)
  deriving DecidableEq, Repr

section Pieces
variable {τ σ υ : Type} [DecidableEq τ] [DecidableEq σ] [DecidableEq υ]

/-- Where the function starts that runs in pieces. -/
def Call.first : Call τ σ υ → Option (Piece τ σ υ)
  | .threadStartup t => some (.startup t .priority)
  | .threadResume t => some (.resume t .entry false)
  | .threadSuspend t => some (.suspend t false)
  | .threadDetach t => some (.detach t .entry)
  | .semDetach s => some (.semDetach s .test)
  | .timerStart u => some (.timer u .start)
  | .timerStop u => some (.timer u .stop)
  | .timerDetach u => some (.timerDetach u)
  | _ => none

/-- `rt_thread_suspend` after its test. -/
def rtThreadSuspendSection (k : RtKernel τ σ υ) (t : τ) : Option (RtKernel τ σ υ) := do
  let k ← k.onSched fun e => rtScheduleRemoveThread (e.setStat t .suspend) t
  let (_, tm) ← rtTimerStop k.timers (threadTimer t)
  return { k with timers := tm }

/-- The write of `rt_thread_startup` at this point. -/
def StartupPoint.write (r : RtThread) : StartupPoint → RtThread
  | .priority => { r with currentPriority := r.initPriority }
  | .mask => { r with numberMask := 1#32 <<< r.currentPriority }
  | .stat => { r with stat := .suspend }

/-- What comes after the write. -/
def StartupPoint.next (t : τ) : StartupPoint → Piece τ σ υ
  | .priority => .startup t .mask
  | .mask => .startup t .stat
  | .stat => .resume t .entry true

/-- What is left after `rt_thread_resume`, whose code `rt_thread_startup` drops. -/
def resumed (starting : Bool) (e : Int) : Rest τ := if starting then .exits else .returned e

namespace Piece

/-- One piece, and the next one or what is left when there is none. -/
def step [Fintype τ] [Fintype υ] (k : RtKernel τ σ υ) :
    Piece τ σ υ → Option ((Piece τ σ υ ⊕ Rest τ) × RtKernel τ σ υ)
  | .resume t .entry b =>
      if (k.env.thread t).stat = .suspend then some (.inl (.resume t .checked b), k)
      else some (.inr (resumed b (-RT_ERROR)), k)
  | .resume t .checked b => do
      let k ← k.onSched fun e => rtThreadResumeUnlink e t
      return (.inl (.resume t .unlinked b), k)
  | .resume t .unlinked b => do
      let k ← k.onSched fun e => rtScheduleInsertThread e t
      return (.inr (resumed b RT_EOK), k)
  | .resume _ .inserted b => some (.inr (resumed b RT_EOK), k)
  | .startup t p =>
      some (.inl (p.next t), { k with env := k.env.setThread t (p.write (k.env.thread t)) })
  | .suspend t false =>
      if (k.env.thread t).stat = .ready then some (.inl (.suspend t true), k)
      else some (.inr (.returned (-RT_ERROR)), k)
  | .suspend t true => (rtThreadSuspendSection k t).map (.inr (.returned RT_EOK), ·)
  | .detach t .entry =>
      some (.inl (.detach t (if (k.env.thread t).stat ≠ .init then .checked else .removed)), k)
  | .detach t .checked => (rtThreadDetachUnlist k t).map (.inl (.detach t .removed), ·)
  | .detach t .removed => (rtThreadDetachDisarm k t).map (.inl (.detach t .disarmed), ·)
  | .detach t .disarmed => some (.inl (.detach t .closed), rtThreadDetachClose k t)
  | .detach t .closed => (rtThreadDetachFinish k t).map (.inr (.returned RT_EOK), ·)
  | .semDetach s .test =>
      if rtListIsempty k.env.list (.head (.suspend s)) then some (.inr (.returned RT_EOK), k)
      else some (.inl (.semDetach s .body), k)
  | .semDetach s .body => do
      let k ← k.onSched fun e => rtIpcListResumeNext e s
      return (.inl (.semDetach s .test), k)
  | .semDetach _ .left => some (.inr (.returned RT_EOK), k)
  | .timer u .stop =>
      if (k.timers.timer (.inr u)).activated then some (.inl (.timer u .stopTested), k)
      else some (.inr (.returned (-RT_ERROR)), k)
  | .timer _ .done => some (.inr (.returned RT_EOK), k)
  | .timer u p => do
      let (p, s) ← timerStep (.inr u) (p, { timers := k.timers, env := [] })
      return (if p = .done then .inr (.returned RT_EOK) else .inl (.timer u p),
        { k with timers := s.timers })
  | .timerDetach u => do
      let k ← k.onTimers fun tm => rtTimerDetach tm (.inr u)
      return (.inr (.returned RT_EOK), k)

/-- The pieces from this one to the last, if there are no more than `fuel`. -/
def run [Fintype τ] [Fintype υ] : Nat → Piece τ σ υ → RtKernel τ σ υ →
    Option (Rest τ × RtKernel τ σ υ)
  | 0, _, _ => none
  | fuel + 1, p, k => do
      let (n, k) ← p.step k
      match n with
      | .inl p => run fuel p k
      | .inr r => return (r, k)

theorem run_inl [Fintype τ] [Fintype υ] {n : Nat} {p q : Piece τ σ υ} {k k₁ : RtKernel τ σ υ}
    (h : p.step k = some (.inl q, k₁)) : run (n + 1) p k = run n q k₁ := by
  simp [run, h]

theorem run_inr [Fintype τ] [Fintype υ] {n : Nat} {p : Piece τ σ υ} {r : Rest τ}
    {k k₁ : RtKernel τ σ υ} (h : p.step k = some (.inr r, k₁)) :
    run (n + 1) p k = some (r, k₁) := by
  simp [run, h]

/-- The pieces of `rt_timer_start` and `rt_timer_stop` touch nothing but the timers. -/
theorem timer_env [Fintype τ] [Fintype υ] {k k' : RtKernel τ σ υ} {u : υ} {p : TimerPoint}
    {n : Piece τ σ υ ⊕ Rest τ} (h : (Piece.timer u p).step k = some (n, k')) : k'.env = k.env := by
  cases p with
  | stop =>
    rw [step] at h
    split at h <;> cases h <;> rfl
  | start =>
    obtain ⟨_, -, hret⟩ := Option.bind_eq_some_iff.mp h
    cases hret
    rfl
  | startArmed =>
    obtain ⟨_, -, hret⟩ := Option.bind_eq_some_iff.mp h
    cases hret
    rfl
  | stopTested =>
    obtain ⟨_, -, hret⟩ := Option.bind_eq_some_iff.mp h
    cases hret
    rfl
  | _ =>
    cases h
    rfl

end Piece

/-! ## Undisturbed -/

section Undisturbed
variable [Fintype τ] [Fintype υ] {k k' : RtKernel τ σ υ} {e e' : SchedSys τ σ (ThreadLinks τ σ)}
  {t : τ}

/-- `rt_thread_resume`, called by a thread or by `rt_thread_startup`. -/
theorem resume_run {n : Int} (b : Bool)
    (h : rtThreadResume k.env t = some (n, e')) :
    (Piece.resume t .entry b).run 3 k =
      some (resumed b n, { k with env := e' }) := by
  unfold rtThreadResume at h
  split at h
  · rename_i hst
    cases h
    exact Piece.run_inr (by rw [Piece.step, if_neg hst])
  · rename_i hst
    have hst := not_not.mp hst
    obtain ⟨l, hl, h⟩ := Option.bind_eq_some_iff.mp h
    obtain ⟨e₁, he₁, hret⟩ := Option.bind_eq_some_iff.mp h
    cases hret
    have hunlink : (Piece.resume t .checked b).step k =
        some (.inl (.resume t .unlinked b), { k with env := { k.env with list := l } }) := by
      simp [Piece.step, Sys.onSched, rtThreadResumeUnlink, hl]
    have hinsert : (Piece.resume t .unlinked b).step
        { k with env := { k.env with list := l } } =
          some (.inr (resumed b RT_EOK), { k with env := e' }) := by
      simp [Piece.step, Sys.onSched, he₁]
    rw [Piece.run_inl (by rw [Piece.step, if_pos hst]), Piece.run_inl hunlink,
      Piece.run_inr hinsert]

theorem startup_run (h : rtThreadStartup k.env t = some e') :
    ∃ k₁, (Piece.startup t .priority).run 6 k = some (.exits, k₁) ∧
      Rest.finish k₁ (.exits : Rest τ) = some { k with env := e' } := by
  obtain ⟨⟨n, e₁⟩, hresume, hret⟩ := Option.bind_eq_some_iff.mp h
  refine ⟨{ k with env := e₁ }, ?_, ?_⟩
  · rw [Piece.run_inl rfl, Piece.run_inl rfl, Piece.run_inl rfl, StartupPoint.next, resume_run]
    · rfl
    · simpa [StartupPoint.write, SchedSys.setThread] using hresume
  · dsimp only at hret
    simp only [Rest.finish, Sys.onSched]
    by_cases hcur : e₁.rtCurrentThread.isSome = true
    · rw [if_pos hcur] at hret ⊢
      rw [hret]
      rfl
    · rw [if_neg hcur] at hret ⊢
      cases hret
      rfl

theorem resumeAll_run (s : σ) (fuel : Nat) : ∀ {k : RtKernel τ σ υ},
    rtIpcListResumeAll s fuel k.env = some e' →
      ∃ n, (Piece.semDetach s .test).run n k = some (.returned RT_EOK, { k with env := e' }) := by
  induction fuel with
  | zero => intro k h; cases h
  | succ fuel ih =>
    intro k h
    rw [rtIpcListResumeAll] at h
    split at h
    · rename_i hempty
      cases h
      exact ⟨1, Piece.run_inr (by rw [Piece.step, if_pos hempty])⟩
    · rename_i hempty
      obtain ⟨x, hx, h⟩ := Option.bind_eq_some_iff.mp h
      obtain ⟨u, hu, h⟩ := Option.bind_eq_some_iff.mp h
      obtain ⟨⟨_, e₁⟩, hresume, h⟩ := Option.bind_eq_some_iff.mp h
      obtain ⟨n, hn⟩ := ih (k := { k with env := e₁ }) h
      refine ⟨n + 2, ?_⟩
      have hnext : (Piece.semDetach s .body).step k =
          some (.inl (.semDetach s .test), { k with env := e₁ }) := by
        simp [Piece.step, Sys.onSched, rtIpcListResumeNext, hx, hu, hresume]
      rw [Piece.run_inl (by rw [Piece.step, if_neg hempty]), Piece.run_inl hnext, hn]

section
omit [Fintype τ] [Fintype υ]

/-- `rt_thread_suspend` of a ready thread is what comes after its test. -/
theorem rtThreadSuspend_ready (hst : (k.env.thread t).stat = .ready) :
    rtThreadSuspend k t = (rtThreadSuspendSection k t).map (RT_EOK, ·) := by
  simp [rtThreadSuspend, rtThreadSuspendSection, hst, Option.map_bind]

end

/-- **Undisturbed**, the pieces of a function and what is left after the last are the call. -/
theorem Call.first_run {c : Call τ σ υ} {p : Piece τ σ υ} (hp : c.first = some p)
    (h : c.exec k = some k') : ∃ n r k₁, p.run n k = some (r, k₁) ∧ r.finish k₁ = some k' := by
  cases c <;> simp only [Call.first, Option.some.injEq, reduceCtorEq] at hp <;> subst hp
  case threadResume t =>
    obtain ⟨e', he, hret⟩ := Option.bind_eq_some_iff.mp h
    obtain ⟨⟨n, e⟩, hresume, hsnd⟩ := Option.map_eq_some_iff.mp he
    cases hret
    cases hsnd
    exact ⟨3, _, _, resume_run false hresume, rfl⟩
  case threadStartup t =>
    obtain ⟨e', he, hret⟩ := Option.bind_eq_some_iff.mp h
    cases hret
    obtain ⟨k₁, hrun, hfin⟩ := startup_run he
    exact ⟨6, _, k₁, hrun, hfin⟩
  case threadSuspend t =>
    obtain ⟨⟨n, k'⟩, hsusp, rfl⟩ := Option.map_eq_some_iff.mp h
    by_cases hst : (k.env.thread t).stat = .ready
    · rw [rtThreadSuspend_ready hst] at hsusp
      obtain ⟨k', hsection, hret⟩ := Option.map_eq_some_iff.mp hsusp
      cases hret
      refine ⟨2, .returned RT_EOK, k', ?_, rfl⟩
      rw [Piece.run_inl (by rw [Piece.step, if_pos hst]),
        Piece.run_inr (by rw [Piece.step, hsection]; rfl)]
    · rw [rtThreadSuspend, if_pos hst] at hsusp
      cases hsusp
      exact ⟨1, .returned (-RT_ERROR), _, Piece.run_inr (by rw [Piece.step, if_neg hst]), rfl⟩
  case threadDetach t =>
    obtain ⟨k₁, hk₁, h⟩ := Option.bind_eq_some_iff.mp h
    obtain ⟨k₂, hk₂, h⟩ := Option.bind_eq_some_iff.mp h
    have hdisarm : (Piece.detach t .removed).step k₁ = some (.inl (.detach t .disarmed), k₂) := by
      simp [Piece.step, rtThreadDetachDisarm, hk₂]
    have hfinish : (Piece.detach t .closed).step (rtThreadDetachClose k₂ t) =
        some (.inr (.returned RT_EOK), k') := by
      rw [Piece.step, show rtThreadDetachFinish (rtThreadDetachClose k₂ t) t = some k' from h]
      rfl
    have hrest : (Piece.detach t .removed).run 3 k₁ = some (.returned RT_EOK, k') := by
      rw [Piece.run_inl hdisarm, Piece.run_inl rfl, Piece.run_inr hfinish]
    by_cases hst : (k.env.thread t).stat = .init
    · rw [if_neg (not_not.mpr hst)] at hk₁
      cases hk₁
      have htest : (Piece.detach t .entry).step k = some (.inl (.detach t .removed), k) := by
        simp [Piece.step, hst]
      exact ⟨4, .returned RT_EOK, k', by rw [Piece.run_inl htest, hrest], rfl⟩
    · rw [if_pos hst] at hk₁
      have htest : (Piece.detach t .entry).step k = some (.inl (.detach t .checked), k) := by
        simp [Piece.step, hst]
      have hunlist : (Piece.detach t .checked).step k = some (.inl (.detach t .removed), k₁) := by
        simp [Piece.step, rtThreadDetachUnlist, hk₁]
      exact ⟨5, .returned RT_EOK, k', by rw [Piece.run_inl htest, Piece.run_inl hunlist, hrest],
        rfl⟩
  case semDetach s =>
    obtain ⟨e', he, hret⟩ := Option.bind_eq_some_iff.mp h
    cases hret
    obtain ⟨n, hn⟩ := resumeAll_run s _ he
    exact ⟨n, _, _, hn, rfl⟩
  case timerStart u =>
    obtain ⟨tm, htm, hret⟩ := Option.bind_eq_some_iff.mp h
    obtain ⟨m, hm, hlink⟩ := Option.bind_eq_some_iff.mp htm
    cases hret
    have hlink' : rtTimerStartLink (m.setTimer (.inr u)
        { m.timer (.inr u) with timeoutTick := m.rtTick + (m.timer (.inr u)).initTick }) (.inr u) =
          some tm := hlink
    exact ⟨5, .returned RT_EOK, _, by simp [Piece.run, Piece.step, timerStep, hm, hlink'], rfl⟩
  case timerStop u =>
    obtain ⟨tm, htm, hret⟩ := Option.bind_eq_some_iff.mp h
    obtain ⟨⟨n, tm⟩, hstop, hsnd⟩ := Option.map_eq_some_iff.mp htm
    cases hret
    cases hsnd
    unfold rtTimerStop at hstop
    split at hstop
    · rename_i hact
      cases hstop
      exact ⟨1, .returned (-RT_ERROR), k, Piece.run_inr (by rw [Piece.step, if_neg hact]), rfl⟩
    · rename_i hact
      obtain ⟨m, hm, hret⟩ := Option.bind_eq_some_iff.mp hstop
      cases hret
      have hact := not_not.mp hact
      exact ⟨4, .returned RT_EOK, _, by
        simp [Piece.run, Piece.step, timerStep, hact, hm, TimerSys.deactivate,
          RtTimer.deactivate], rfl⟩
  case timerDetach u =>
    obtain ⟨tm, htm, hret⟩ := Option.bind_eq_some_iff.mp h
    cases hret
    exact ⟨1, .returned RT_EOK, _, Piece.run_inr (by simp [Piece.step, Sys.onTimers, htm]), rfl⟩

end Undisturbed

/-! ## What a piece relies on -/

/-- The node links to itself: it has been initialised and is on no list. -/
def OffList {H α : Type} [DecidableEq H] [DecidableEq α] (l : Links (Node H α)) (x : α) : Prop :=
  l.next (.item x) = some (.item x)

instance {H α : Type} [DecidableEq H] [DecidableEq α] (l : Links (Node H α)) (x : α) :
    Decidable (OffList l x) :=
  inferInstanceAs (Decidable (_ = _))

namespace Piece

/-- What a piece relies on that the pieces before it have found or left: `rt_thread_resume` on the
thread being suspended, and on no list once it has been taken off; `rt_thread_startup` on the
thread not being in use; `rt_thread_suspend` on its being ready; `rt_thread_detach` on its not
being ready, and on no list and without a timer once that is so; `rt_sem_detach` on somebody
waiting; `rt_timer_start` and `rt_timer_stop` on the timer being off the list they have taken it
off. -/
def Apt [Fintype τ] [Fintype υ] (k : RtKernel τ σ υ) : Piece τ σ υ → Prop
  | .resume t .checked _ => (k.env.thread t).stat = .suspend
  | .resume t .unlinked _ => (k.env.thread t).stat = .suspend ∧ OffList k.env.list t
  | .startup t p =>
      ((k.env.thread t).stat = .init ∨ (k.env.thread t).stat = .close) ∧ OffList k.env.list t ∧
        (p = .stat → (k.env.thread t).numberMask = 1#32 <<< (k.env.thread t).currentPriority)
  | .suspend t true => (k.env.thread t).stat = .ready
  | .detach t .checked => (k.env.thread t).stat ≠ .ready
  | .detach t .removed => (k.env.thread t).stat ≠ .ready ∧ OffList k.env.list t
  | .detach t .disarmed =>
      (k.env.thread t).stat ≠ .ready ∧ OffList k.env.list t ∧ ¬ k.Armed t
  | .semDetach s .body => k.waiters s ≠ []
  | .timer u (.startSum _) | .timer u .startArmed | .timer u (.stopFlag _) =>
      OffList k.timers.timerList (.inr u)
  | _ => True

instance [Fintype τ] [Fintype υ] (k : RtKernel τ σ υ) (p : Piece τ σ υ) : Decidable (p.Apt k) := by
  rcases p with ⟨t, p, r⟩ | ⟨t, p⟩ | ⟨t, b⟩ | ⟨t, p⟩ | ⟨s, p⟩ | ⟨u, p⟩ | u
  · cases p <;> dsimp only [Apt] <;> infer_instance
  · dsimp only [Apt]; infer_instance
  · cases b <;> dsimp only [Apt] <;> infer_instance
  · cases p <;> dsimp only [Apt] <;> infer_instance
  · cases p <;> dsimp only [Apt] <;> infer_instance
  · cases p <;> dsimp only [Apt] <;> infer_instance
  · dsimp only [Apt]; infer_instance

/-- The call that the piece is one of. -/
def call : Piece τ σ υ → Call τ σ υ
  | .resume t _ false => .threadResume t
  | .resume t _ true | .startup t _ => .threadStartup t
  | .suspend t _ => .threadSuspend t
  | .detach t _ => .threadDetach t
  | .semDetach s _ => .semDetach s
  | .timer u .stop | .timer u .stopTested | .timer u .stopUnlinked | .timer u (.stopFlag _) =>
      .timerStop u
  | .timer u _ => .timerStart u
  | .timerDetach u => .timerDetach u

/-- The thread that the function wakes, starts or closes. -/
def target : Piece τ σ υ → Option τ
  | .resume t _ _ | .startup t _ | .detach t _ => some t
  | _ => none

/-- The function has, or may have, taken `t` from where it could be found while suspended, and is
about to make it ready or to close it. -/
def Hides (t : τ) : Piece τ σ υ → Prop
  | .resume u .unlinked _ => u = t
  | .resume u .entry true | .resume u .checked true => u = t
  | .detach u .removed | .detach u .disarmed => u = t
  | _ => False

instance (t : τ) (p : Piece τ σ υ) : Decidable (p.Hides t) := by
  rcases p with ⟨u, p, r⟩ | ⟨u, p⟩ | ⟨u, b⟩ | ⟨u, p⟩ | ⟨s, p⟩ | ⟨u, p⟩ | u
  · cases p <;> cases r <;> dsimp only [Hides] <;> infer_instance
  · dsimp only [Hides]; infer_instance
  · dsimp only [Hides]; infer_instance
  · cases p <;> dsimp only [Hides] <;> infer_instance
  · dsimp only [Hides]; infer_instance
  · dsimp only [Hides]; infer_instance
  · dsimp only [Hides]; infer_instance

section
omit [DecidableEq τ] [DecidableEq σ] [DecidableEq υ]

theorem Hides.target {t : τ} {p : Piece τ σ υ} (h : p.Hides t) : p.target = some t := by
  rcases p with ⟨u, p, r⟩ | ⟨u, p⟩ | ⟨u, b⟩ | ⟨u, p⟩ | ⟨s, p⟩ | ⟨u, p⟩ | u
  · have hu : u = t := by cases p <;> cases r <;> first | exact h | exact h.elim
    rw [Piece.target, hu]
  · exact h.elim
  · exact h.elim
  · have hu : u = t := by cases p <;> first | exact h | exact h.elim
    rw [Piece.target, hu]
  · exact h.elim
  · exact h.elim
  · exact h.elim

end

end Piece

end Pieces

end SampleRtos
