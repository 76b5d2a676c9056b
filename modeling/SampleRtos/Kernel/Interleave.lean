import SampleRtos.Sched.FailAll
import SampleRtos.Kernel.PieceEffect
import SampleRtos.Kernel.Settle

/-!
# Threads interleaved section by section

A thread is preempted wherever the mask is open: between the section of a function and the
`rt_schedule` it ends in, between the pieces of another function, where a tick, another handler
or, once one of these has rescheduled, any number of other threads may run, each stopped in the
middle of a function of its own. What a thread has yet to do is kept with the kernel; the thread
that moves is the current one.

A function in several pieces goes on only as long as it finds what `Piece.Apt` says: nobody has
undone what its earlier pieces have found or left. That excludes the ticks inside
`rt_thread_resume`, `rt_thread_detach` and `rt_sem_detach` that break the lists, and a
`rt_thread_detach` of a ready thread, which is on no list and still ready between two of its
pieces. Such calls, and `rt_thread_init`, `rt_sem_init`, `rt_timer_init` and `rt_timer_control`,
are made with interrupts disabled around them, in a callback or in a handler.
-/

namespace SampleRtos

open Intrusive

/-- The kernel, and what each thread that is inside a function has yet to do in it: what is left
after a section, or the next piece. -/
structure Interleaved (τ σ υ : Type) where
  kernel : RtKernel τ σ υ
  pending : τ → Option (Rest τ)
  errand : τ → Option (Piece τ σ υ)

/-- What moves the system: the current thread enters a function that is over after one section
but for what is left, or does that; it begins a function in several pieces, or does the next one;
it makes any other call with interrupts disabled, as `main` does too; a tick or another handler
runs; the scheduler starts. -/
inductive KernelMove (τ σ υ : Type) where
  | enter (f : Service σ)
  | finish
  | invoke (c : Call τ σ υ)
  | piece
  | masked (c : Call τ σ υ)
  | tick (script : List (List (Call τ σ υ)))
  | handler (cs : List (Call τ σ υ))
  | start

/-- What of a function is still to be done after its section. -/
def Rest.left {τ : Type} : Rest τ → Option (Rest τ)
  | .returned _ => none
  | r => some r

/-- The call in the middle of which the current thread is. -/
def Interleaved.underway {τ σ υ : Type} (s : Interleaved τ σ υ) : Option (Call τ σ υ) := do
  let t ← s.kernel.env.rtCurrentThread
  let p ← s.errand t
  return p.call

/-- What is left after a piece, when there is no next one. -/
def leftAfter {τ σ υ : Type} : Piece τ σ υ ⊕ Rest τ → Option (Rest τ)
  | .inl _ => none
  | .inr r => r.left

/-- The call that a function comes to if nothing is left after its section: a take that does
not wait is a trytake, and a sleep always waits. -/
def Service.atOnce {τ σ υ : Type} : Service σ → Option (Call τ σ υ)
  | .threadSleep _ => none
  | .threadYield => some .threadYield
  | .semTake s _ => some (.semTrytake s)
  | .semRelease s => some (.semRelease s)
  | .semControl s cmd arg => some (.semControl s cmd arg)
  | .enterCritical => some .enterCritical
  | .exitCritical => some .exitCritical
  | .schedule => none

section Interleave
variable {τ σ υ : Type} [DecidableEq τ] [DecidableEq σ] [DecidableEq υ]

/-- The calls with which `main` prepares the system before the scheduler starts. -/
def Call.Prepares : Call τ σ υ → Prop
  | .threadInit .. | .threadStartup _ | .semInit .. | .timerInit .. | .timerControl .. => True
  | .timerStart _ | .timerStop _ => True
  | _ => False

instance (c : Call τ σ υ) : Decidable c.Prepares := by
  rcases c <;> dsimp only [Call.Prepares] <;> infer_instance

namespace KernelMove

def exec [Fintype τ] [Fintype υ] (s : Interleaved τ σ υ) :
    KernelMove τ σ υ → Option (Interleaved τ σ υ)
  | .enter f => do
      let t ← s.kernel.env.rtCurrentThread
      let (r, k) ← f.enter s.kernel
      return { s with kernel := k, pending := Function.update s.pending t r.left }
  | .finish => do
      let t ← s.kernel.env.rtCurrentThread
      let r ← s.pending t
      let k ← r.finish s.kernel
      return { s with kernel := k, pending := Function.update s.pending t none }
  | .invoke c => do
      let t ← s.kernel.env.rtCurrentThread
      let p ← c.first
      return { s with errand := Function.update s.errand t (some p) }
  | .piece => do
      let t ← s.kernel.env.rtCurrentThread
      let p ← s.errand t
      let (n, k) ← p.step s.kernel
      return {
        kernel := k
        pending := Function.update s.pending t (leftAfter n)
        errand := Function.update s.errand t n.getLeft? }
  | .masked c => do
      let k ← c.exec s.kernel
      return { s with kernel := k }
  | .tick script => do
      let k ← kernelTick script s.kernel
      return { s with kernel := k }
  | .handler cs => do
      let k ← runCalls cs s.kernel
      return { s with kernel := k }
  | .start => do
      let k ← s.kernel.onSched rtSystemSchedulerStart
      return { s with kernel := k }

/-- The current thread is not inside a function. -/
def Between (s : Interleaved τ σ υ) : Prop :=
  ∀ t ∈ s.kernel.env.rtCurrentThread, s.pending t = none ∧ s.errand t = none

instance (s : Interleaved τ σ υ) : Decidable (Between s) :=
  inferInstanceAs (Decidable (∀ t ∈ s.kernel.env.rtCurrentThread, _))

/-- The discipline: a thread enters a function when it is in none, blocks only while it is
ready or suspended and in no waiting list, initialises only what is out of use, and goes on with
a function in pieces if that finds what it relies on. Before the scheduler has started, `main`
prepares and no interrupt is taken. -/
def Allowed [Fintype τ] [Fintype υ] (s : Interleaved τ σ υ) : KernelMove τ σ υ → Prop
  | .enter f => Between s ∧ f.op.Allowed s.kernel
  | .finish => True
  | .invoke _ => Between s
  | .piece => ∀ t ∈ s.kernel.env.rtCurrentThread, ∀ p ∈ s.errand t, p.Apt s.kernel
  | .masked c => Between s ∧ c.Allowed s.kernel ∧
      (s.kernel.env.rtCurrentThread = none → c.Prepares)
  | .tick _ => True
  | .handler _ => s.kernel.env.rtCurrentThread ≠ none
  | .start => s.kernel.env.rtCurrentThread = none

instance [Fintype τ] [Fintype υ] (s : Interleaved τ σ υ) (m : KernelMove τ σ υ) :
    Decidable (m.Allowed s) := by
  rcases m <;> dsimp only [Allowed] <;> infer_instance

end KernelMove

/-- Once the kernel is initialised, nobody is inside a function. -/
def Interleaved.booted (k : RtKernel τ σ υ) : Interleaved τ σ υ :=
  ⟨k, fun _ => none, fun _ => none⟩

/-- The states of the interleaved system, whose moves meet `ok` besides. -/
def InterleavedReachable [Fintype τ] [Fintype υ] (idle : τ)
    (ok : Interleaved τ σ υ → KernelMove τ σ υ → Prop) (s : Interleaved τ σ υ) : Prop :=
  ∃ k₀ ∈ boot idle,
    Run.Reach KernelMove.exec (fun s m => m.Allowed s ∧ ok s m) (.booted k₀) s

/-- Initialisation followed by a list of moves. -/
def runInterleaved [Fintype τ] [Fintype υ] (idle : τ)
    (ok : Interleaved τ σ υ → KernelMove τ σ υ → Prop) [∀ s m, Decidable (ok s m)]
    (ms : List (KernelMove τ σ υ)) : Option (Interleaved τ σ υ) := do
  let k ← boot idle
  Run.exec KernelMove.exec (fun s m => m.Allowed s ∧ ok s m) ms (.booted k)

theorem interleaved_of_run [Fintype τ] [Fintype υ] (idle : τ)
    (ok : Interleaved τ σ υ → KernelMove τ σ υ → Prop) [∀ s m, Decidable (ok s m)]
    (ms : List (KernelMove τ σ υ)) (p : Interleaved τ σ υ → Bool)
    (h : (runInterleaved idle ok ms).map p = some true) :
    ∃ s, InterleavedReachable idle ok s ∧ p s = true := by
  obtain ⟨s, hs, hp⟩ := Option.map_eq_some_iff.mp h
  obtain ⟨k₀, hboot, hrun⟩ := Option.bind_eq_some_iff.mp hs
  exact ⟨s, ⟨k₀, hboot, Run.exec_reach hrun⟩, hp⟩

variable {k k' : RtKernel τ σ υ} {a a' : SeqKernel τ σ υ} {s : Interleaved τ σ υ}
  {f : Service σ}

/-! ## Sections that leave a reschedule -/

/-- What the section of `f` does if it leaves `rt_schedule` to do. -/
inductive SectionEffect (f : Service σ) (a : SeqKernel τ σ υ) : SeqKernel τ σ υ → Prop where
  /-- The current thread goes to sleep. -/
  | sleeps {t : τ} {tick : Tick} {e : Int} {a₁ a₂ : SeqKernel τ σ υ}
      (hcur : a.env.rtCurrentThread = some t) (hcan : CanBlock a t)
      (hsusp : Abs.threadSuspend a t = some (e, a₁))
      (htimer : Abs.threadTimerStart a₁ t tick = some a₂) (hf : f = .threadSleep tick) :
      SectionEffect f a a₂
  /-- The current thread joins the waiters of `s`, with a timeout or without. -/
  | waits {t : τ} {s : σ} {time : BitVec 32} {e : Int} {a₁ a₂ a₃ : SeqKernel τ σ υ}
      (hcur : a.env.rtCurrentThread = some t) (hcan : CanBlock a t)
      (hsusp : Abs.threadSuspend { a with env := a.env.setError t RT_EOK } t = some (e, a₁))
      (hins : a₁.onSched (fun e => Abs.ipcInsert e s t) = some a₂)
      (htimer : 0 < time.toInt ∧ Abs.threadTimerStart a₂ t time = some a₃ ∨
        ¬ 0 < time.toInt ∧ a₃ = a₂) (hf : f = .semTake s time) : SectionEffect f a a₃
  /-- The current thread goes to the end of its ready list. -/
  | yields {t : τ} (hwake : Waking a.env (a.env.relistReady t (a.env.thread t)))
      (hready : (a.env.thread t).stat = .ready) (hf : f = .threadYield) :
      SectionEffect f a { a with env := a.env.relistReady t (a.env.thread t) }
  /-- The first waiter of `s` becomes ready. -/
  | releases {s : σ} {t : τ} {ts : List τ}
      (hwake : Waking a.env (a.env.relistReady t { a.env.thread t with stat := .ready }))
      (hwaiters : a.env.waiters s = t :: ts) (hf : f = .semRelease s) :
      SectionEffect f a { a with env := a.env.relistReady t { a.env.thread t with stat := .ready } }
  /-- All waiters of `s` fail. -/
  | resets (s : σ) (r : RtSemaphore) (hflag : r.flag = (a.env.sem s).flag)
      (hf : ∃ cmd arg, f = .semControl s cmd arg) :
      SectionEffect f a { a with env := (a.env.failAll (a.env.waiters s)).setSem s r }
  /-- The scheduler is unlocked. -/
  | unlocks (hf : f = .exitCritical) :
      SectionEffect f a { a with env := { a.env with rtSchedulerLockNest := 0 } }
  | nothing (hf : f = .schedule) : SectionEffect f a a

/-- A section that leaves `rt_schedule` to do keeps the kernel in order, the current thread,
the port and which nodes are initialised; the lock stays or is given up. -/
structure Leaves (a a' : SeqKernel τ σ υ) : Prop where
  wf : KernelWf a'
  current : a'.env.rtCurrentThread = a.env.rtCurrentThread
  lockNest : a'.env.rtSchedulerLockNest = a.env.rtSchedulerLockNest ∨
    a'.env.rtSchedulerLockNest = 0
  port : a'.env.port = a.env.port
  live : a'.env.list.live = a.env.list.live

section
omit [DecidableEq σ]

theorem suspended_frame (hw : SchedWf a.env) {t : τ} {e : Int}
    (h : Abs.threadSuspend a t = some (e, a')) :
    a'.env.rtCurrentThread = a.env.rtCurrentThread ∧
      a'.env.rtSchedulerLockNest = a.env.rtSchedulerLockNest ∧ a'.env.port = a.env.port ∧
      a'.env.list.live = a.env.list.live := by
  rcases threadSuspend_spec hw h with ⟨-, -, rfl⟩ | ⟨-, -, henv, -⟩
  · exact ⟨rfl, rfl, rfl, rfl⟩
  · rw [henv]
    exact ⟨rfl, rfl, rfl, rfl⟩

end

theorem inserted_frame {e e' : SchedSys τ σ (ThreadRings τ σ)} {s : σ} {t : τ}
    (hlive : e.list.live (.item t) = true) (h : Abs.ipcInsert e s t = some e') :
    e'.port = e.port ∧ e'.list.live = e.list.live := by
  rcases ipcInsert_spec hlive h with ⟨-, -, rfl⟩ | ⟨xs, ys, -, -, rfl, -⟩ <;> exact ⟨rfl, rfl⟩

theorem failAll_port (ts : List τ) : ∀ e : SchedSys τ σ (ThreadRings τ σ),
    (e.failAll ts).port = e.port := by
  induction ts with
  | nil => exact fun _ => rfl
  | cons t ts ih => exact fun e => ih _

theorem SectionEffect.leaves (hw : KernelWf a) (h : SectionEffect f a a') : Leaves a a' := by
  cases h with
  | sleeps hcur hcan hsusp htimer =>
    obtain ⟨hw₁, hst, -⟩ := hw.suspendCurrent hcan hsusp
    obtain ⟨hw₂, henv⟩ := hw₁.startThread (.inr hst) htimer
    obtain ⟨hcur₁, hlock₁, hport₁, hlive₁⟩ := suspended_frame hw.sched hsusp
    rw [← henv] at hcur₁ hlock₁ hport₁ hlive₁
    exact ⟨hw₂, hcur₁, .inl hlock₁, hport₁, hlive₁⟩
  | @waits t s time e a₁ a₂ a₃ hcur hcan hsusp hins htimer =>
    have hw₀ := hw.setError t RT_EOK
    have h₁ := threadSuspend_suspends hw₀ ((canBlock_setError _).mpr hcan) hsusp
    obtain ⟨hw₂, hthread₂, h₂, -⟩ := h₁.inserted hins
    obtain ⟨hcur₁, hlock₁, hport₁, hlive₁⟩ := suspended_frame hw₀.sched hsusp
    obtain ⟨hport₂, hlive₂⟩ := inserted_frame h₁.live (onSched_spec hins).1
    have hleaves : Leaves a a₂ := ⟨hw₂, h₂.current.trans hcur₁, .inl (h₂.lockNest.trans hlock₁),
      hport₂.trans hport₁, hlive₂.trans hlive₁⟩
    rcases htimer with ⟨-, htimer⟩ | ⟨-, rfl⟩
    · have hact : (a₂.env.thread t).Active := .inr (by rw [hthread₂, h₁.thread]; simp)
      obtain ⟨hw₃, henv⟩ := hw₂.startThread hact htimer
      exact ⟨hw₃, by rw [henv, hleaves.current], .inl (by rw [henv, h₂.lockNest, hlock₁]; rfl),
        by rw [henv, hleaves.port], by rw [henv, hleaves.live]⟩
    · exact hleaves
  | yields hwake => exact ⟨hw.of_waking hwake, rfl, .inl rfl, rfl, rfl⟩
  | releases hwake => exact ⟨hw.of_waking hwake, rfl, .inl rfl, rfl, rfl⟩
  | resets s r hflag =>
    have hwf : SchedWf ((a.env.failAll (a.env.waiters s)).setSem s r) :=
      (hw.sched.failAll rfl).1.congr rfl rfl rfl
    have hwake := Waking.failAll hw.sched (s := s) rfl
    refine ⟨?_, ?_, .inl ?_, ?_, ?_⟩
    · exact hw.of_env hwf hwake.active fun n hn => (hwake.live n).trans hn
    · exact failAll_current _ _
    · exact failAll_lockNest _ _
    · exact failAll_port _ _
    · exact failAll_live _ _
  | unlocks =>
    exact ⟨hw.of_env (hw.sched.congr rfl rfl rfl) (fun _ => id) fun _ => id, rfl, .inr rfl, rfl,
      rfl⟩
  | nothing => exact ⟨hw, rfl, .inl rfl, rfl, rfl⟩

theorem sleepSection_effect [Fintype τ] [Fintype υ] (hk : KernelRel k a) (hmay : Abs.MayBlock a)
    {tick : Tick} {r : Rest τ} (h : sleepSection k tick = some (r, k')) :
    ∃ a', KernelRel k' a' ∧ SectionEffect (.threadSleep tick) a a' := by
  obtain ⟨t, hcur, h⟩ := Option.bind_eq_some_iff.mp h
  obtain ⟨⟨e, k₁⟩, hsusp, h⟩ := Option.bind_eq_some_iff.mp h
  obtain ⟨k₂, htimer, hret⟩ := Option.bind_eq_some_iff.mp h
  cases hret
  obtain ⟨⟨e', a₁⟩, hsusp, -, hk₁⟩ := Lockstep.exists_of_left (rtThreadSuspend_rel hk t) hsusp
  obtain ⟨a₂, htimer, hk₂⟩ := Lockstep.exists_of_left (rtThreadTimerStart_rel hk₁ t tick) htimer
  obtain ⟨t', hcur', hcan⟩ := hmay
  rw [hk.env.current] at hcur
  obtain rfl : t = t' := Option.some.inj (hcur.symm.trans hcur')
  exact ⟨a₂, hk₂, .sleeps hcur hcan hsusp htimer rfl⟩

theorem yieldSection_effect (hk : KernelRel k a) (hw : KernelWf a) {r : Rest τ}
    (h : yieldSection k = some (r, k')) (hr : r.left ≠ none) :
    ∃ a', KernelRel k' a' ∧ SectionEffect .threadYield a a' := by
  obtain ⟨t, hcur, h⟩ := Option.bind_eq_some_iff.mp h
  split at h
  · rename_i hc
    obtain ⟨l, hrem, h⟩ := Option.bind_eq_some_iff.mp h
    obtain ⟨l', hins, hret⟩ := Option.bind_eq_some_iff.mp h
    cases hret
    have hst : (a.env.thread t).stat = .ready := by rw [← hk.env.thread]; exact hc.1
    obtain ⟨r₁, hrem, hr₁⟩ := Lockstep.exists_of_left (rtListRemove_rep hk.env.rep t) hrem
    rw [hk.env.thread] at hins
    obtain ⟨r₂, hins, hr₂⟩ := Lockstep.exists_of_left
      (rtListInsertBefore_head hr₁ (.ready (a.env.thread t).currentPriority)
        (remove_free hk.env.rep.valid hrem)) hins
    have hlist : { a.env with list := r₂ } = a.env.relistReady t (a.env.thread t) := by
      have hlive := hw.sched.live t (by simp [hst])
      have hhead := (hw.sched.head_live _).mpr (hw.sched.prio_lt t)
      have hmark : (a.env.list.erase t).mark (.item t) = a.env.list.erase t :=
        Rings.mark_of_live hlive
      rw [relistReady_of_ready hw.sched hst]
      simp only [remove, hlive, if_true, Option.some.injEq] at hrem
      subst hrem
      simp only [pushBack, insertAt, Rings.erase_live, hhead, if_true, hmark,
        Option.some.injEq] at hins
      subst hins
      rfl
    have hwake := Waking.wake hw.sched (.inl hst) hst rfl rfl rfl
    refine ⟨{ a with env := a.env.relistReady t (a.env.thread t) }, ⟨hk.timers, ?_⟩,
      .yields hwake hst rfl⟩
    rw [← hlist]
    exact hk.env.setList hr₂
  · cases h
    exact absurd rfl hr

theorem takeSection_effect [Fintype τ] [Fintype υ] (hk : KernelRel k a) (hw : KernelWf a)
    {t : σ} {time : BitVec 32} (hmay : TakeBlocks a t time → Abs.MayBlock a) {r : Rest τ}
    (h : takeSection k t time = some (r, k')) (hr : r.left ≠ none) :
    ∃ a', KernelRel k' a' ∧ SectionEffect (.semTake t time) a a' := by
  unfold takeSection at h
  split at h
  · cases h
    exact absurd rfl hr
  · rename_i hpos
    split at h
    · cases h
      exact absurd rfl hr
    · rename_i htime
      obtain ⟨u, hcur, h⟩ := Option.bind_eq_some_iff.mp h
      obtain ⟨k₂, hmoved, h⟩ := Option.bind_eq_some_iff.mp h
      obtain ⟨k₃, hstarted, hret⟩ := Option.bind_eq_some_iff.mp h
      cases hret
      obtain ⟨⟨e, k₁⟩, hstopped, hmoved⟩ := Option.bind_eq_some_iff.mp hmoved
      have hzero : (a.env.sem t).value = 0 := by rw [hk.env.sem] at hpos; bv_omega
      obtain ⟨u', hcur', hcan⟩ := hmay ⟨hzero, htime⟩
      rw [hk.env.current] at hcur
      obtain rfl : u = u' := Option.some.inj (hcur.symm.trans hcur')
      -- suspended with its error reset, inserted, and its timer started or not
      have hk₀ : KernelRel { k with env := k.env.setError u RT_EOK }
          { a with env := a.env.setError u RT_EOK } := ⟨hk.timers, hk.env.setError u RT_EOK⟩
      have hw₀ := hw.setError u RT_EOK
      obtain ⟨⟨e', a₁⟩, hsusp, -, hk₁⟩ :=
        Lockstep.exists_of_left (rtThreadSuspend_rel hk₀ u) hstopped
      have h₁ := threadSuspend_suspends hw₀ ((canBlock_setError _).mpr hcan) hsusp
      have hlock := onSched_rel hk₁ (f := fun e => rtIpcListInsert e t u)
        (g := fun e => Abs.ipcInsert e t u) (rtIpcListInsert_rel hk₁.env t h₁.free)
      obtain ⟨a₂, hins, hk₂⟩ := Lockstep.exists_of_left hlock hmoved
      split at hstarted
      · rename_i hpositive
        obtain ⟨a₃, htimer, hk₃⟩ :=
          Lockstep.exists_of_left (rtThreadTimerStart_rel hk₂ u time) hstarted
        exact ⟨a₃, hk₃, .waits hcur hcan hsusp hins (.inl ⟨hpositive, htimer⟩) rfl⟩
      · rename_i hpositive
        cases hstarted
        exact ⟨a₂, hk₂, .waits hcur hcan hsusp hins (.inr ⟨hpositive, rfl⟩) rfl⟩

theorem releaseSection_effect (hk : KernelRel k a) (hw : KernelWf a) {t : σ} {r : Rest τ}
    (h : releaseSection k t = some (r, k')) (hr : r.left ≠ none) :
    ∃ a', KernelRel k' a' ∧ SectionEffect (.semRelease t) a a' := by
  unfold releaseSection at h
  split at h
  · obtain ⟨k₁, hres, hret⟩ := Option.bind_eq_some_iff.mp h
    cases hret
    have hlock := onSched_rel hk (f := fun e => rtIpcListResume e t)
      (g := fun e => Abs.ipcResume e t) (rtIpcListResume_rel hk.env t)
    obtain ⟨a₁, hres, hk₁⟩ := Lockstep.exists_of_left hlock hres
    obtain ⟨hres, htimers⟩ := onSched_spec hres
    obtain ⟨u, us, hus, hst, henv⟩ := ipcResume_spec hw.sched hres
    have hwake := Waking.wake (r := { a.env.thread u with stat := .ready }) hw.sched (.inr hst)
      rfl rfl rfl rfl
    obtain rfl : a₁ =
        { a with env := a.env.relistReady u { a.env.thread u with stat := .ready } } := by
      rw [← henv, ← htimers]
    exact ⟨_, hk₁, .releases hwake hus rfl⟩
  · cases h
    exact absurd rfl hr

theorem resetSection_effect [Fintype τ] (hk : KernelRel k a) (hw : KernelWf a) {t : σ} {cmd : Int}
    {arg : BitVec 32} {r : Rest τ} (h : resetSection k t arg = some (r, k')) :
    ∃ a', KernelRel k' a' ∧ SectionEffect (.semControl t cmd arg) a a' := by
  obtain ⟨k₁, hall, hret⟩ := Option.bind_eq_some_iff.mp h
  cases hret
  obtain ⟨a₁, hall, hk₁⟩ :=
    Lockstep.exists_of_left (onSched_rel hk (rtIpcListResumeAll_rel t _ hk.env)) hall
  obtain ⟨hall, htimers⟩ := onSched_spec hall
  have henv : a₁.env = a.env.failAll (a.env.waiters t) := ipcResumeAll_spec t _ hw.sched hall
  obtain rfl : a₁ = { a with env := a.env.failAll (a.env.waiters t) } := by rw [← henv, ← htimers]
  let r : RtSemaphore := { k₁.env.sem t with value := arg.setWidth 16 }
  refine ⟨{ a with env := (a.env.failAll (a.env.waiters t)).setSem t r },
    ⟨hk₁.timers, hk₁.env.setSem t r⟩, .resets t r ?_ ⟨cmd, arg, rfl⟩⟩
  show (k₁.env.sem t).flag = _
  rw [hk₁.env.sem]
  simp

theorem exitSection_effect (hk : KernelRel k a) (hr : (exitSection k).1.left ≠ none) :
    ∃ a', KernelRel (exitSection k).2 a' ∧ SectionEffect .exitCritical a a' := by
  unfold exitSection at hr ⊢
  dsimp only at hr ⊢
  split
  · exact ⟨{ a with env := { a.env with rtSchedulerLockNest := 0 } },
      ⟨hk.timers, hk.env.setLockNest 0⟩, .unlocks rfl⟩
  · rename_i hpos
    rw [if_neg hpos] at hr
    exact absurd rfl hr

/-- So does a piece. -/
theorem PieceEffect.leaves [Fintype τ] {p : Piece τ σ υ} {n : Piece τ σ υ ⊕ Rest τ}
    (hw : KernelWf a) (h : PieceEffect a p n a') : Leaves a a' := by
  cases h with
  | nothing => exact ⟨hw, rfl, .inl rfl, rfl, rfl⟩
  | resumes hwake => exact ⟨hw.of_waking hwake, rfl, .inl rfl, rfl, rfl⟩
  | suspends hrun =>
    have hw' := hw.execCall (c := .threadSuspend _) trivial hrun
    obtain ⟨_, hr⟩ := returned_of_map hrun
    obtain ⟨hcur, hlock, hport, hlive⟩ := suspended_frame hw.sched hr
    exact ⟨hw', hcur, .inl hlock, hport, hlive⟩
  | timerDetached => exact ⟨hw.eraseTimer _, rfl, .inl rfl, rfl, rfl⟩
  | unlinks hp hq hst hwf =>
    exact ⟨hw.of_env hwf (fun _ => id) fun _ => id, rfl, .inl rfl, rfl, rfl⟩
  | @writes p q t r hp hq hst hr hunarmed hwf =>
    refine ⟨⟨hwf, hw.timers, fun u hu => ?_, hw.node_live⟩, rfl, .inl rfl, rfl, rfl⟩
    have hut : u ≠ t := by
      rintro rfl
      exact hunarmed hu
    simpa [hut] using hw.linked u hu
  | fails hwaiters hwake => exact ⟨hw.of_waking hwake, rfl, .inl rfl, rfl, rfl⟩
  | disarms hst => exact ⟨hw.eraseTimer _, rfl, .inl rfl, rfl, rfl⟩
  | sets heff =>
    exact ⟨hw.of_timers (heff.wf hw.timers)
      (fun t ht => (heff.sameTimer hw.timers.valid t).mem.mp ht) heff.live, rfl, .inl rfl, rfl, rfl⟩

/-- **A section that leaves a reschedule** is one of these. -/
theorem enter_effect [Fintype τ] [Fintype υ] (hk : KernelRel k a) (hw : KernelWf a)
    {f : Service σ} (hf : f.op.Allowed k) {r : Rest τ} (h : f.enter k = some (r, k'))
    (hr : r.left ≠ none) : ∃ a', KernelRel k' a' ∧ SectionEffect f a a' := by
  cases f with
  | threadSleep tick => exact sleepSection_effect hk ((mayBlock_iff hk hw.sched).mp hf) h
  | threadYield => exact yieldSection_effect hk hw h hr
  | semTake t time =>
    refine takeSection_effect hk hw (fun hb => ?_) h hr
    exact (mayBlock_iff hk hw.sched).mp (hf ((takeBlocks_iff hk t time).mpr hb))
  | semRelease t => exact releaseSection_effect hk hw h hr
  | semControl t cmd arg =>
    simp only [Service.enter] at h
    split at h
    · exact resetSection_effect hk hw h
    · cases h
      exact absurd rfl hr
  | enterCritical =>
    cases h
    exact absurd rfl hr
  | exitCritical =>
    obtain ⟨rfl, rfl⟩ := Prod.ext_iff.mp (Option.some.inj h)
    exact exitSection_effect hk hr
  | schedule =>
    cases h
    exact ⟨a, hk, .nothing rfl⟩

/-! ## Every state in between is in order -/

/-- The kernel stands for sequences in order, and no thread has only to return. -/
def Interleaved.InOrder (s : Interleaved τ σ υ) (a : SeqKernel τ σ υ) : Prop :=
  KernelRel s.kernel a ∧ KernelWf a ∧ ∀ t e, s.pending t ≠ some (.returned e)

section
omit [DecidableEq τ]

theorem Rest.left_ne_returned (r : Rest τ) (e : Int) : r.left ≠ some (.returned e) := by
  cases r <;> simp [Rest.left]

end

section
omit [DecidableEq τ] [DecidableEq σ] [DecidableEq υ]

theorem leftAfter_ne_returned (n : Piece τ σ υ ⊕ Rest τ) (e : Int) :
    leftAfter n ≠ some (.returned e) := by
  cases n with
  | inl p => simp [leftAfter]
  | inr r => exact r.left_ne_returned e

end

section
omit [DecidableEq σ] [DecidableEq υ]

/-- The rest of a function is `rt_schedule`, if the scheduler has started. -/
theorem finish_schedule {r : Rest τ} (hr : ∀ e, r ≠ .returned e)
    (hcur : k.env.rtCurrentThread ≠ none) : r.finish k = k.onSched rtSchedule := by
  cases r with
  | returned e => exact absurd rfl (hr e)
  | exits => simp [Rest.finish, Option.isSome_iff_ne_none.mpr hcur]
  | schedules => rfl
  | waits t => rfl

theorem pending_update {s : Interleaved τ σ υ} (h : ∀ t e, s.pending t ≠ some (.returned e)) (t : τ)
    {r : Option (Rest τ)} (hr : ∀ e, r ≠ some (.returned e)) (u : τ) (e : Int) :
    Function.update s.pending t r u ≠ some (.returned e) := by
  by_cases hut : u = t
  · subst hut
    simpa using hr e
  · simpa [hut] using h u e

end

variable [Fintype τ] [Fintype υ]

/-- A function that leaves nothing to do after its section was a call. -/
theorem enter_returns {f : Service σ} {r : Rest τ} (h : f.enter k = some (r, k'))
    (hr : r.left = none) :
    ∃ c : Call τ σ υ, f.atOnce = some c ∧ c.Allowed k ∧ c.exec k = some k' := by
  have hop : f.op.exec k = some k' := by
    rw [← section_finish, h]
    cases r with
    | returned e => rfl
    | _ => cases hr
  cases f with
  | threadSleep tick =>
    obtain ⟨t, -, h⟩ := Option.bind_eq_some_iff.mp h
    obtain ⟨_, -, h⟩ := Option.bind_eq_some_iff.mp h
    obtain ⟨_, -, hret⟩ := Option.bind_eq_some_iff.mp h
    cases hret
    cases hr
  | semTake s time =>
    refine ⟨.semTrytake s, rfl, trivial, ?_⟩
    simp only [Service.enter, takeSection] at h
    rw [Call.exec, rtSemTake]
    split at h
    · rename_i hpos
      cases h
      rw [if_pos hpos]
      rfl
    · rename_i hpos
      rw [if_neg hpos]
      split at h
      · cases h
        rfl
      · obtain ⟨_, -, h⟩ := Option.bind_eq_some_iff.mp h
        obtain ⟨_, -, h⟩ := Option.bind_eq_some_iff.mp h
        obtain ⟨_, -, hret⟩ := Option.bind_eq_some_iff.mp h
        cases hret
        cases hr
  | schedule =>
    cases h
    cases hr
  | _ => exact ⟨_, rfl, trivial, hop⟩

/-- What a move comes to on the sequences, and what is left to do after it. -/
inductive MoveEffect (s : Interleaved τ σ υ) (a : SeqKernel τ σ υ) :
    KernelMove τ σ υ → Interleaved τ σ υ → SeqKernel τ σ υ → Prop where
  /-- The section of a function that has a reschedule to come. -/
  | leaves {f : Service σ} {t : τ} {r : Rest τ} {k : RtKernel τ σ υ} {a' : SeqKernel τ σ υ}
      (hcur : a.env.rtCurrentThread = some t) (hr : r.left ≠ none)
      (heff : SectionEffect f a a') :
      MoveEffect s a (.enter f)
        { s with kernel := k, pending := Function.update s.pending t r.left } a'
  /-- A function that is over with its section. -/
  | returns {f : Service σ} {c : Call τ σ υ} {t : τ} {k : RtKernel τ σ υ} {a' : SeqKernel τ σ υ}
      (hcur : a.env.rtCurrentThread = some t) (hcall : f.atOnce = some c)
      (hallowed : Abs.CallAllowed a c) (hrun : Abs.execCall a c = some a') :
      MoveEffect s a (.enter f)
        { s with kernel := k, pending := Function.update s.pending t none } a'
  | finishes {t : τ} {k : RtKernel τ σ υ} {a' : SeqKernel τ σ υ}
      (hcur : a.env.rtCurrentThread = some t) (hsched : a.onSched Abs.schedule = some a') :
      MoveEffect s a .finish
        { s with kernel := k, pending := Function.update s.pending t none } a'
  | invokes {c : Call τ σ υ} {t : τ} {p : Piece τ σ υ} (hcur : a.env.rtCurrentThread = some t)
      (hfree : s.errand t = none) (hfirst : c.first = some p) :
      MoveEffect s a (.invoke c) { s with errand := Function.update s.errand t (some p) } a
  | pieces {t : τ} {p : Piece τ σ υ} {n : Piece τ σ υ ⊕ Rest τ} {k : RtKernel τ σ υ}
      {a' : SeqKernel τ σ υ} (hcur : a.env.rtCurrentThread = some t)
      (hp : s.errand t = some p) (heff : PieceEffect a p n a') :
      MoveEffect s a .piece
        { kernel := k
          pending := Function.update s.pending t (leftAfter n)
          errand := Function.update s.errand t n.getLeft? } a'
  | call {c : Call τ σ υ} {k : RtKernel τ σ υ} {a' : SeqKernel τ σ υ}
      (hallowed : Abs.CallAllowed a c)
      (hprepares : a.env.rtCurrentThread = none → c.Prepares)
      (hrun : Abs.execCall a c = some a') : MoveEffect s a (.masked c) { s with kernel := k } a'
  | tick {script : List (List (Call τ σ υ))} {k : RtKernel τ σ υ} {a' : SeqKernel τ σ υ}
      (hrun : Abs.tick script a = some a') : MoveEffect s a (.tick script) { s with kernel := k } a'
  | handler {cs : List (Call τ σ υ)} {k : RtKernel τ σ υ} {a' : SeqKernel τ σ υ}
      (hcur : a.env.rtCurrentThread ≠ none) (hrun : Abs.runCalls cs a = some a') :
      MoveEffect s a (.handler cs) { s with kernel := k } a'
  | start {k : RtKernel τ σ υ} {a' : SeqKernel τ σ υ} (hcur : a.env.rtCurrentThread = none)
      (hsched : a.onSched Abs.schedStart = some a') :
      MoveEffect s a .start { s with kernel := k } a'

/-- **One move** leaves the kernel in order and is one of these. -/
theorem Interleaved.InOrder.move {s s' : Interleaved τ σ υ} (h : s.InOrder a) {m : KernelMove τ σ υ}
    (hm : m.Allowed s) (hrun : m.exec s = some s') :
    ∃ a', s'.InOrder a' ∧ MoveEffect s a m s' a' := by
  obtain ⟨hk, hw, hpend⟩ := h
  have hop : ∀ (op : Op τ σ υ) {k'}, op.Allowed s.kernel → op.exec s.kernel = some k' →
      ∃ a', KernelRel k' a' ∧ KernelWf a' ∧ Abs.Allowed a op ∧ Abs.exec a op = some a' := by
    intro op k' hop hrun
    have hop := (allowed_iff hk hw.sched op).mp hop
    obtain ⟨a', ha', hk'⟩ := Lockstep.exists_of_left (exec_rel hk hw hop) hrun
    exact ⟨a', hk', hw.exec hop ha', hop, ha'⟩
  have hcurrent : s.kernel.env.rtCurrentThread = a.env.rtCurrentThread := hk.env.current
  cases m with
  | enter f =>
    obtain ⟨t, hcur, hrun⟩ := Option.bind_eq_some_iff.mp hrun
    obtain ⟨⟨r, k'⟩, henter, hret⟩ := Option.bind_eq_some_iff.mp hrun
    cases hret
    have hpend' := pending_update hpend t r.left_ne_returned
    by_cases hr : r.left = none
    · obtain ⟨c, hcall, hc, hrun⟩ := enter_returns henter hr
      obtain ⟨a', hk', hw', hallowed, ha'⟩ := hop (.call c) hc hrun
      rw [hr] at hpend' ⊢
      refine ⟨a', ⟨hk', hw', hpend'⟩, ?_⟩
      exact .returns (hcurrent.symm.trans hcur) hcall hallowed ha'
    · obtain ⟨a', hk', heff⟩ := enter_effect hk hw hm.2 henter hr
      exact ⟨a', ⟨hk', (heff.leaves hw).wf, hpend'⟩, .leaves (hcurrent.symm.trans hcur) hr heff⟩
  | finish =>
    obtain ⟨t, hcur, hrun⟩ := Option.bind_eq_some_iff.mp hrun
    obtain ⟨r, hr, hrun⟩ := Option.bind_eq_some_iff.mp hrun
    obtain ⟨k', hfin, hret⟩ := Option.bind_eq_some_iff.mp hrun
    cases hret
    rw [finish_schedule (fun e he => hpend t e (he ▸ hr)) (by rw [hcur]; simp)] at hfin
    obtain ⟨a', ha', hk'⟩ := Lockstep.exists_of_left (onSched_rel hk (rtSchedule_rel hk.env)) hfin
    have hw' : KernelWf a' := hw.onSched (fun _ hs => Waking.schedule hw.sched hs) ha'
    exact ⟨a', ⟨hk', hw', pending_update hpend t (by simp)⟩,
      .finishes (hcurrent.symm.trans hcur) ha'⟩
  | invoke c =>
    obtain ⟨t, hcur, hrun⟩ := Option.bind_eq_some_iff.mp hrun
    obtain ⟨p, hfirst, hret⟩ := Option.bind_eq_some_iff.mp hrun
    cases hret
    exact ⟨a, ⟨hk, hw, hpend⟩, .invokes (hcurrent.symm.trans hcur) (hm t hcur).2 hfirst⟩
  | piece =>
    obtain ⟨t, hcur, hrun⟩ := Option.bind_eq_some_iff.mp hrun
    obtain ⟨p, hp, hrun⟩ := Option.bind_eq_some_iff.mp hrun
    obtain ⟨⟨n, k'⟩, hstep, hret⟩ := Option.bind_eq_some_iff.mp hrun
    cases hret
    obtain ⟨a', hk', heff⟩ := Piece.effect hk hw (hm t hcur p hp) hstep
    exact ⟨a', ⟨hk', (heff.leaves hw).wf, pending_update hpend t (leftAfter_ne_returned n)⟩,
      .pieces (hcurrent.symm.trans hcur) hp heff⟩
  | masked c =>
    obtain ⟨k', hc, hret⟩ := Option.bind_eq_some_iff.mp hrun
    cases hret
    obtain ⟨a', hk', hw', hallowed, ha'⟩ := hop (.call c) hm.2.1 hc
    exact ⟨a', ⟨hk', hw', hpend⟩, .call hallowed (fun hnone => hm.2.2 (hcurrent.trans hnone)) ha'⟩
  | tick script =>
    obtain ⟨k', htick, hret⟩ := Option.bind_eq_some_iff.mp hrun
    cases hret
    obtain ⟨a', hk', hw', -, ha'⟩ := hop (.tickIncrease script) trivial htick
    exact ⟨a', ⟨hk', hw', hpend⟩, .tick ha'⟩
  | handler cs =>
    obtain ⟨k', hcs, hret⟩ := Option.bind_eq_some_iff.mp hrun
    cases hret
    obtain ⟨a', ha', hk'⟩ := Lockstep.exists_of_left (runCalls_rel cs hk hw) hcs
    exact ⟨a', ⟨hk', hw.runCalls cs ha', hpend⟩, .handler (hcurrent ▸ hm) ha'⟩
  | start =>
    obtain ⟨k', hstart, hret⟩ := Option.bind_eq_some_iff.mp hrun
    cases hret
    obtain ⟨a', hk', hw', -, ha'⟩ := hop .schedulerStart hm hstart
    exact ⟨a', ⟨hk', hw', hpend⟩, .start (hcurrent ▸ hm) ha'⟩

section
omit [Fintype τ] [Fintype υ]

theorem Interleaved.InOrder.boot {idle : τ} {k₀ : RtKernel τ σ υ} (hboot : k₀ ∈ boot idle) :
    ∃ a, Interleaved.InOrder (.booted k₀) a ∧ Abs.boot idle = some a := by
  obtain ⟨a₀, ha₀, h₀⟩ := Lockstep.exists_of_left (boot_rel idle) hboot
  exact ⟨a₀, ⟨h₀, boot_wf ha₀, by simp [booted]⟩, ha₀⟩

end

theorem InterleavedReachable.inOrder {idle : τ} {ok : Interleaved τ σ υ → KernelMove τ σ υ → Prop}
    (hs : InterleavedReachable idle ok s) : ∃ a, s.InOrder a := by
  obtain ⟨k₀, hboot, hrun⟩ := hs
  obtain ⟨a₀, h₀, -⟩ := Interleaved.InOrder.boot hboot
  refine Run.invariant (I := fun s => ∃ a, s.InOrder a) (fun s m s' hI hm hrun => ?_) ⟨a₀, h₀⟩ hrun
  obtain ⟨a, h⟩ := hI
  obtain ⟨a', h', -⟩ := h.move hm.1 hrun
  exact ⟨a', h'⟩

/-- A thread with a piece to do has no reschedule before it. -/
def Interleaved.Single (s : Interleaved τ σ υ) : Prop :=
  ∀ t p, s.errand t = some p → s.pending t = none

theorem Interleaved.Single.move {s s' : Interleaved τ σ υ} (h : s.Single) {m : KernelMove τ σ υ}
    (hm : m.Allowed s) (hrun : m.exec s = some s') : s'.Single := by
  have hpending : ∀ {t : τ} {r : Option (Rest τ)}, (s.errand t ≠ none → r = none) →
      ∀ u q, s.errand u = some q → Function.update s.pending t r u = none := by
    intro t r hr u q hq
    by_cases hut : u = t
    · subst hut
      rw [Function.update_self]
      exact hr (by rw [hq]; simp)
    · simpa [hut] using h u q hq
  cases m with
  | enter f =>
    obtain ⟨t, hcur, hrun⟩ := Option.bind_eq_some_iff.mp hrun
    obtain ⟨⟨r, k'⟩, -, hret⟩ := Option.bind_eq_some_iff.mp hrun
    cases hret
    exact hpending fun herrand => absurd (hm.1 t hcur).2 herrand
  | finish =>
    obtain ⟨t, hcur, hrun⟩ := Option.bind_eq_some_iff.mp hrun
    obtain ⟨r, -, hrun⟩ := Option.bind_eq_some_iff.mp hrun
    obtain ⟨k', -, hret⟩ := Option.bind_eq_some_iff.mp hrun
    cases hret
    exact hpending fun _ => rfl
  | invoke c =>
    obtain ⟨t, hcur, hrun⟩ := Option.bind_eq_some_iff.mp hrun
    obtain ⟨p, -, hret⟩ := Option.bind_eq_some_iff.mp hrun
    cases hret
    intro u q hq
    by_cases hut : u = t
    · exact hut ▸ (hm t hcur).1
    · exact h u q (by simpa [hut] using hq)
  | piece =>
    obtain ⟨t, hcur, hrun⟩ := Option.bind_eq_some_iff.mp hrun
    obtain ⟨p, hp, hrun⟩ := Option.bind_eq_some_iff.mp hrun
    obtain ⟨⟨n, k'⟩, -, hret⟩ := Option.bind_eq_some_iff.mp hrun
    cases hret
    intro u q hq
    by_cases hut : u = t
    · subst hut
      cases n with
      | inl p => simp [leftAfter]
      | inr r => simp at hq
    · simpa [hut] using h u q (by simpa [hut] using hq)
  | masked c =>
    obtain ⟨k', -, hret⟩ := Option.bind_eq_some_iff.mp hrun
    cases hret
    exact h
  | tick script =>
    obtain ⟨k', -, hret⟩ := Option.bind_eq_some_iff.mp hrun
    cases hret
    exact h
  | handler cs =>
    obtain ⟨k', -, hret⟩ := Option.bind_eq_some_iff.mp hrun
    cases hret
    exact h
  | start =>
    obtain ⟨k', -, hret⟩ := Option.bind_eq_some_iff.mp hrun
    cases hret
    exact h

end Interleave

/-- Thread 1 suspends itself in `rt_thread_sleep` and is interrupted by a tick before its
`rt_schedule`. -/
def asleepAndTicked : List (KernelMove (Fin 3) (Fin 1) Empty) :=
  [.masked (.threadInit 1 3 10), .masked (.threadInit 2 5 10), .masked (.threadStartup 1),
    .masked (.threadStartup 2), .start, .enter (.threadSleep 5), .tick []]

/-- Thread 2 is to wake it, and a tick comes in between two pieces of its `rt_thread_resume`. -/
def resumedAndTicked : List (KernelMove (Fin 3) (Fin 1) Empty) :=
  asleepAndTicked ++ [.finish, .invoke (.threadResume 1), .piece, .piece, .tick []]

end SampleRtos
