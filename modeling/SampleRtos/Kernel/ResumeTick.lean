import SampleRtos.Kernel.Dispatch
import SampleRtos.Kernel.Guarded
import SampleRtos.Kernel.WakeTimer

/-!
# A tick inside `rt_thread_resume`

`rt_thread_resume` masks interrupts twice: once to take the thread off the list
it waits on, once to put it on its ready list. A tick may arrive before, between
and after. In between the thread is suspended and on no list, its timer still
running; if the tick fires that timer, the thread is made ready by its timeout
and then inserted a second time. So it is if a callback of the tick resumes it.
-/

namespace SampleRtos

open Intrusive

section ResumeTick
variable {τ σ υ : Type} [DecidableEq τ] [DecidableEq σ] [DecidableEq υ]

/-! ## The sections of `rt_thread_resume` -/

/-- The first masked section; the second is `rtScheduleInsertThread`. -/
def rtThreadResumeUnlink (e : SchedSys τ σ (ThreadLinks τ σ)) (t : τ) :
    Option (SchedSys τ σ (ThreadLinks τ σ)) := do
  let l ← rtListRemove e.list (.item t)
  return { e with list := l }

/-- The points of `rt_thread_resume` at which interrupts are enabled: before the
test of `stat`, after it, between the two sections, after both. -/
inductive ResumePoint where
  | entry
  | checked
  | unlinked
  | inserted
  deriving DecidableEq, Repr

namespace ResumePoint

/-- What `rt_thread_resume` has done when it is at this point. On a thread that is
not suspended it never gets past the test. -/
def before (e : SchedSys τ σ (ThreadLinks τ σ)) (t : τ) :
    ResumePoint → Option (SchedSys τ σ (ThreadLinks τ σ))
  | .entry => some e
  | .checked => if (e.thread t).stat = .suspend then some e else none
  | .unlinked => if (e.thread t).stat = .suspend then rtThreadResumeUnlink e t else none
  | .inserted => (rtThreadResume e t).map Prod.snd

/-- What it has yet to do. -/
def after (e : SchedSys τ σ (ThreadLinks τ σ)) (t : τ) :
    ResumePoint → Option (SchedSys τ σ (ThreadLinks τ σ))
  | .entry => (rtThreadResume e t).map Prod.snd
  | .checked => do
      let e ← rtThreadResumeUnlink e t
      rtScheduleInsertThread e t
  | .unlinked => rtScheduleInsertThread e t
  | .inserted => some e

/-- Undisturbed, the two parts are `rt_thread_resume`. -/
theorem before_after (p : ResumePoint) {e : SchedSys τ σ (ThreadLinks τ σ)} {t : τ}
    (hst : (e.thread t).stat = .suspend) :
    (do
      let e ← p.before e t
      p.after e t) = (rtThreadResume e t).map Prod.snd := by
  cases p with
  | entry => rfl
  | inserted => simp [before, after]
  | _ => simp [before, after, hst, rtThreadResume, rtThreadResumeUnlink, Option.map_bind,
      Option.bind_assoc]

end ResumePoint

/-! ## The calls of callbacks -/

/-- A call that is not about the thread `t`. -/
def Call.Avoids (t : τ) : Call τ σ υ → Prop
  | .threadInit u _ _ => u ≠ t
  | .threadStartup u => u ≠ t
  | .threadResume u => u ≠ t
  | .threadSuspend u => u ≠ t
  | .threadDetach u => u ≠ t
  | _ => True

instance (t : τ) (c : Call τ σ υ) : Decidable (c.Avoids t) := by
  rcases c <;> dsimp only [Call.Avoids] <;> infer_instance

section
omit [DecidableEq τ] [DecidableEq σ] [DecidableEq υ]

theorem Call.Avoids.spares {t : τ} {c : Call τ σ υ} (h : c.Avoids t) : c.Spares t := by
  cases c <;> first | exact h | trivial

theorem Call.Avoids.ne_detach {t : τ} {c : Call τ σ υ} (h : c.Avoids t) : c ≠ .threadDetach t := by
  rintro rfl
  exact h rfl

end

namespace ResumePoint

/-- The call, made by a callback while `rt_thread_resume` is at this point, closes the thread,
lists it before the second section does, or takes it off when that is done. -/
def Upsets (t : τ) (c : Call τ σ υ) : ResumePoint → Prop
  | .entry | .checked => c = .threadDetach t
  | .unlinked => c = .threadDetach t ∨ c = .threadStartup t ∨ c = .threadResume t
  | .inserted => ¬ c.Spares t

/-- The tick, arriving at this point, fires the timer of the thread between the two sections,
or runs a callback that upsets what `rt_thread_resume` does. -/
def Upset [Fintype τ] [Fintype υ] (p : ResumePoint) (script : List (List (Call τ σ υ)))
    (k : RtKernel τ σ υ) (t : τ) : Prop :=
  p = .unlinked ∧ threadTimer t ∈ tickFires script k ∨
    ¬ tickMeets (fun _ c => ¬ p.Upsets t c) script k

section
omit [DecidableEq τ] [DecidableEq σ] [DecidableEq υ]

theorem not_upsets_of_avoids {t : τ} {c : Call τ σ υ} (h : c.Avoids t) (p : ResumePoint) :
    ¬ p.Upsets t c := by
  cases p with
  | entry => exact h.ne_detach
  | checked => exact h.ne_detach
  | unlinked =>
    rintro (rfl | rfl | rfl) <;> exact h rfl
  | inserted => exact not_not.mpr h.spares

end

theorem not_upset [Fintype τ] [Fintype υ] {p : ResumePoint} {script : List (List (Call τ σ υ))}
    {k : RtKernel τ σ υ} {t : τ} (hcs : ∀ cs ∈ script, ∀ c ∈ cs, c.Avoids t)
    (hown : ¬ (p = .unlinked ∧ threadTimer t ∈ tickFires script k)) : ¬ p.Upset script k t :=
  not_or.mpr ⟨hown, not_not.mpr (tickMeets_of_forall fun cs hmem c hc _ =>
    not_upsets_of_avoids (hcs cs hmem c hc) p)⟩

end ResumePoint

/-! ## A suspended thread on no list -/

/-- `t` is suspended and waits for no semaphore. -/
structure Parked (t : τ) (e : SchedSys τ σ (ThreadRings τ σ)) : Prop where
  suspended : (e.thread t).stat = .suspend
  apart : ∀ s, t ∉ e.waiters s

namespace Parked
variable {a a' : SeqKernel τ σ υ} {e e' : SchedSys τ σ (ThreadRings τ σ)} {t : τ}

section
omit [DecidableEq τ] [DecidableEq σ]

theorem free (h : Parked t e) (hw : SchedWf e) : e.list.Free t := by
  intro hd hmem
  cases hd with
  | ready p =>
    have hst := ((hw.ready_iff t p).mp hmem).1
    simp [h.suspended] at hst
  | suspend s => exact h.apart s hmem
  | defunct => exact absurd (hw.valid.head_live (List.ne_nil_of_mem hmem)) (by simp [hw.defunct])

/-- A started thread that is not made ready stays parked. -/
theorem of_active (h : Parked t e) (hwaiters : ∀ s, (e'.waiters s).Sublist (e.waiters s))
    (hact : (e'.thread t).Active) (hready : (e'.thread t).stat ≠ .ready) : Parked t e' :=
  ⟨hact.resolve_left hready, fun s hs => h.apart s ((hwaiters s).subset hs)⟩

theorem not_ready (h : Parked t e) : (e.thread t).stat ≠ .ready := by simp [h.suspended]

end

theorem tickSlice (h : Parked t e) (hw : SchedWf e) (hslice : Abs.tickSlice e = some e') :
    Parked t e' :=
  have hwake := Waking.tickSlice hw hslice
  h.of_active hwake.waiters (hwake.active t (.inr h.suspended)) fun hst =>
    h.not_ready (tickSlice_ready hw hslice hst)

/-- A call that does not start, resume or detach `t` leaves it parked. -/
theorem call [Fintype τ] (h : Parked t a.env) (hw : KernelWf a) {c : Call τ σ υ}
    (hc : ¬ ResumePoint.unlinked.Upsets t c) (hok : Abs.CallAllowed a c)
    (hrun : Abs.execCall a c = some a') : Parked t a'.env := by
  simp only [ResumePoint.Upsets, not_or] at hc
  obtain ⟨hdetach, hstartup, hresume⟩ := hc
  have heff := execCall_effect hw hok hrun
  refine h.of_active heff.waiters (heff.active (.inr h.suspended) hdetach) fun hst => ?_
  rcases execCall_ready hw hrun hst with hmem | hst
  · cases c with
    | threadStartup u => exact hstartup (by rw [List.mem_singleton.mp hmem])
    | threadResume u =>
      simp only [wokenBy] at hmem
      split at hmem
      · exact hresume (by rw [List.mem_singleton.mp hmem])
      · cases hmem
    | semRelease s => exact h.apart s (List.mem_of_mem_take hmem)
    | semControl s cmd arg =>
      simp only [wokenBy] at hmem
      split at hmem
      · exact h.apart s hmem
      · cases hmem
    | semDetach s => exact h.apart s hmem
    | _ => cases hmem
  · exact h.not_ready hst

/-- The timeout of another thread leaves `t` parked. -/
theorem timeout {u : τ} (h : Parked t e) (hw : SchedWf e) (hact : (e.thread u).Active)
    (hut : u ≠ t) (htimeout : Abs.timeout e u = some e') : Parked t e' := by
  have hwake := Waking.timeout hw hact htimeout
  refine h.of_active hwake.waiters (hwake.active t (.inr h.suspended)) ?_
  rw [(schedule_same (timeout_spec htimeout).2).thread]
  simpa [Ne.symm hut] using h.not_ready

/-- A tick that neither fires its timer nor starts, resumes or detaches it leaves a parked
thread parked. -/
theorem tick [Fintype τ] [Fintype υ] {k : RtKernel τ σ υ} (h : Parked t a.env)
    (hk : KernelRel k a) (hw : KernelWf a) {script : List (List (Call τ σ υ))}
    (hcalls : tickMeets (fun _ c => ¬ ResumePoint.unlinked.Upsets t c) script k)
    (hnot : threadTimer t ∉ tickFires script k) (hrun : Abs.tick script a = some a') :
    Parked t a'.env :=
  tick_unfired_invariant (I := Parked t) (fun hw h hslice => h.tickSlice hw hslice)
    (fun hw hact hut h htimeout => h.timeout hw.sched hact hut htimeout)
    (fun _ hw hc hok h hrun => h.call hw hc hok hrun) hk hw hcalls hnot h hrun

end Parked

/-- A timeout leaves its thread ready. -/
theorem timeout_ready {t : τ} {e e' : SchedSys τ σ (ThreadRings τ σ)}
    (h : Abs.timeout e t = some e') : (e'.thread t).stat = .ready := by
  rw [(schedule_same (timeout_spec h).2).thread]
  simp [RtThread.timedOut]

section
omit [DecidableEq υ]

/-- A ready thread stays ready through the timeouts and calls of a tick that spare it. -/
theorem ready_of_timeout {a : SeqKernel τ σ υ} {t u : τ} {e : SchedSys τ σ (ThreadRings τ σ)}
    (hw : KernelWf a) (hact : (a.env.thread u).Active) (hst : (a.env.thread t).stat = .ready)
    (h : Abs.timeout a.env u = some e) : (e.thread t).stat = .ready :=
  (Waking.timeout hw.sched hact h).ready t hst

end

theorem ready_of_call [Fintype τ] {a a' : SeqKernel τ σ υ} {t : τ} {c : Call τ σ υ}
    (hw : KernelWf a) (hc : c.Spares t) (hok : Abs.CallAllowed a c)
    (hst : (a.env.thread t).stat = .ready) (h : Abs.execCall a c = some a') :
    (a'.env.thread t).stat = .ready :=
  (ReadyAt.call ⟨hst, rfl⟩ hc (execCall_effect hw hok h)).1

/-! ## Resuming amid a tick -/

/-- Every ready list is a ring, forward and backward, and `t` is once on that of its
priority. -/
def ReadyOnce (k : RtKernel τ σ υ) (t : τ) : Prop :=
  ∃ table : Nat → List τ,
    (∀ p < RT_THREAD_PRIORITY_MAX, ThreadRing k (.ready p) (table p)) ∧
      (table (k.env.thread t).currentPriority).count t = 1

section Resume
variable {k : RtKernel τ σ υ} {a : SeqKernel τ σ υ} {t : τ}

theorem readyOnce_of_ready (h : KernelRel k a) (hw : SchedWf a.env)
    (hst : (a.env.thread t).stat = .ready) : ReadyOnce k t := by
  refine ⟨a.env.readyList, fun p hp => threadRing_ready h hw hp, (ready_occurs h hw ?_).1⟩
  rw [h.env.thread]
  exact hst

/-- What ends, on sequences, with `t` ready leaves it once on its ready list. -/
theorem readyOnce_of_rel (h : KernelRel k a)
    {f : SchedSys τ σ (ThreadLinks τ σ) → Option (SchedSys τ σ (ThreadLinks τ σ))}
    {e : SchedSys τ σ (ThreadRings τ σ)} (hf : Option.Rel SchedRel (f k.env) (some e))
    (hw : SchedWf e) (hst : (e.thread t).stat = .ready) :
    ∃ k', k.onSched f = some k' ∧ ReadyOnce k' t := by
  obtain ⟨e', hf', he⟩ := Lockstep.exists_of_right hf rfl
  have h' : KernelRel { k with env := e' } { a with env := e } := ⟨h.timers, he⟩
  exact ⟨_, by rw [Sys.onSched, hf']; rfl, readyOnce_of_ready h' hw hst⟩

/-- Both masked sections, on the sequences. -/
theorem makeReady_sections (h : KernelRel k a) (hw : SchedWf a.env)
    (hlive : a.env.list.live (.item t) = true) :
    Option.Rel SchedRel (ResumePoint.checked.after k.env t)
      (some (a.env.relistReady t { a.env.thread t with stat := .ready })) := by
  have hrel := makeReady_rel h.env t
  rw [makeReady_eq hw hlive] at hrel
  simpa [ResumePoint.after, rtThreadResumeUnlink, Option.bind_assoc] using hrel

/-- They return on every thread that has been initialised. -/
theorem sections_return (h : KernelRel k a) (hw : SchedWf a.env)
    (hlive : a.env.list.live (.item t) = true) :
    ∃ k', k.onSched (ResumePoint.checked.after · t) = some k' := by
  obtain ⟨e, he, -⟩ := Lockstep.exists_of_right (makeReady_sections h hw hlive) rfl
  exact ⟨_, by rw [Sys.onSched, he]; rfl⟩

/-- Both masked sections on a started thread. -/
theorem readyOnce_makeReady (h : KernelRel k a) (hw : SchedWf a.env)
    (hact : (a.env.thread t).Active) :
    ∃ k', k.onSched (ResumePoint.checked.after · t) = some k' ∧ ReadyOnce k' t := by
  have hlive : a.env.list.live (.item t) = true :=
    hw.live t (by rcases hact with h | h <;> simp [h])
  exact readyOnce_of_rel h (makeReady_sections h hw hlive) (hw.wake hact rfl rfl rfl rfl) (by simp)

/-- The whole of `rt_thread_resume` on a started thread. -/
theorem readyOnce_resume (h : KernelRel k a) (hw : SchedWf a.env)
    (hact : (a.env.thread t).Active) :
    ∃ k', k.onSched (ResumePoint.entry.after · t) = some k' ∧ ReadyOnce k' t := by
  have hrel := Lockstep.map_snd (rtThreadResume_rel h.env t)
  rcases hact with hst | hst
  · have hkeep : (Abs.resume a.env t).map Prod.snd = some a.env := by simp [Abs.resume, hst]
    exact readyOnce_of_rel h (hkeep ▸ hrel) hw hst
  · rw [resume_eq hw hst] at hrel
    exact readyOnce_of_rel h hrel (hw.wake (.inr hst) rfl rfl rfl rfl) (by simp)

/-- The second section on a parked thread. -/
theorem readyOnce_insert (h : KernelRel k a) (hw : SchedWf a.env) (hpark : Parked t a.env) :
    ∃ k', k.onSched (ResumePoint.unlinked.after · t) = some k' ∧ ReadyOnce k' t := by
  have hfree := hpark.free hw
  have hlive := hw.live t (by simp [hpark.suspended])
  have hmake : Abs.insertThread a.env t = Abs.makeReady a.env t := by
    simp [Abs.makeReady, remove, hlive, Rings.erase_of_free hfree]
  have hrel := rtScheduleInsertThread_rel h.env hfree
  rw [hmake, makeReady_eq hw hlive] at hrel
  exact readyOnce_of_rel h hrel (hw.wake (.inr hpark.suspended) rfl rfl rfl rfl) (by simp)

/-- The second section on a thread that is ready already: it returns, and the ready
list of the thread is a ring no longer. -/
theorem insert_ready (h : KernelRel k a) (hw : SchedWf a.env)
    (hst : (a.env.thread t).stat = .ready) :
    ∃ k', k.onSched (ResumePoint.unlinked.after · t) = some k' ∧ ¬ ReadyOnce k' t := by
  obtain ⟨l, hl, hnone⟩ := rtListInsertBefore_listed h.env.rep (hw.mem_ready hst)
  have hprio : ((k.env.setStat t .ready).thread t).currentPriority =
      (a.env.thread t).currentPriority := by
    rw [← h.env.thread]
    simp [SchedSys.setStat]
  have hins : rtScheduleInsertThread k.env t =
      some ({ k.env.setStat t .ready with list := l }.setGroupBit t) := by
    rw [rtScheduleInsertThread, hprio,
      show (k.env.setStat t .ready).list = k.env.list from rfl, hl]
    rfl
  refine ⟨_, by rw [Sys.onSched, ResumePoint.after, hins]; rfl, ?_⟩
  rintro ⟨table, hring, -⟩
  exact hnone _ (hring _ (hw.prio_lt t))

/-- A thread no semaphore has among its waiters can be inserted, once more if it is ready. -/
theorem insert_returns (h : KernelRel k a) (hw : SchedWf a.env)
    (hlive : a.env.list.live (.item t) = true) (hapart : ∀ s, t ∉ a.env.waiters s) :
    ∃ k', k.onSched (ResumePoint.unlinked.after · t) = some k' := by
  by_cases hst : (a.env.thread t).stat = .ready
  · obtain ⟨k', hk', -⟩ := insert_ready h hw hst
    exact ⟨k', hk'⟩
  · have hfree : a.env.list.Free t := by
      intro hd hmem
      cases hd with
      | ready p => exact hst ((hw.ready_iff t p).mp hmem).1
      | suspend s => exact hapart s hmem
      | defunct =>
        exact absurd (hw.valid.head_live (List.ne_nil_of_mem hmem)) (by simp [hw.defunct])
    have hins : Abs.insertThread a.env t = some _ :=
      (by simp [Abs.makeReady, remove, hlive, Rings.erase_of_free hfree] :
        Abs.insertThread a.env t = Abs.makeReady a.env t).trans (makeReady_eq hw hlive)
    have hrel := rtScheduleInsertThread_rel h.env hfree
    rw [hins] at hrel
    obtain ⟨e, he, -⟩ := Lockstep.exists_of_right hrel rfl
    exact ⟨_, by rw [Sys.onSched, ResumePoint.after, he]; rfl⟩

/-- So a tick between the two sections lets the second one return whatever it does. -/
theorem tick_apart [Fintype τ] {a' : SeqKernel τ σ υ} (hw : KernelWf a)
    (hapart : ∀ s, t ∉ a.env.waiters s) {script : List (List (Call τ σ υ))}
    (hrun : Abs.tick script a = some a') : ∀ s, t ∉ a'.env.waiters s :=
  tick_invariant (I := fun e => ∀ s, t ∉ e.waiters s) (C := fun _ => True)
    (fun _ _ _ h hwake s hs => h s ((hwake.waiters s).subset hs))
    (fun _ _ _ _ _ h heff s hs => h s ((heff.waiters s).subset hs)) hw hapart
    (fun _ _ _ _ => trivial) hrun

section Tick
variable [Fintype τ] [Fintype υ] {script : List (List (Call τ σ υ))} {k₂ : RtKernel τ σ υ}

/-- A tick that does not detach a started thread leaves it started. -/
theorem active_amid_tick {a' : SeqKernel τ σ υ} (h : KernelRel k a) (hw : KernelWf a)
    (hact : (a.env.thread t).Active) (hcalls : tickMeets (fun _ c => c ≠ .threadDetach t) script k)
    (hrun : Abs.tick script a = some a') : (a'.env.thread t).Active :=
  tick_meets_invariant (I := fun e => (e.thread t).Active)
    (fun hw hact hslice => (Waking.tickSlice hw hslice).active t hact)
    (fun hw hlive hact htimeout => (Waking.timeout hw.sched hlive htimeout).active t hact)
    (fun _ hw hc hok hact hrun => (execCall_effect hw hok hrun).active hact hc) h hw hcalls hact
    hrun

/-- The tick before the test. -/
theorem resume_after_entry (h : KernelRel k a) (hw : KernelWf a) (hact : (a.env.thread t).Active)
    (htick : kernelTick script k = some k₂) :
    ∃ k₃, k₂.onSched (ResumePoint.entry.after · t) = some k₃ ∧
      (¬ ResumePoint.entry.Upset script k t → ReadyOnce k₃ t) := by
  obtain ⟨a₂, ha₂, h₂⟩ := Lockstep.exists_of_left (kernelTick_rel h hw script) htick
  have hw₂ := (hw.tick ha₂).sched
  by_cases hact₂ : (a₂.env.thread t).Active
  · obtain ⟨k₃, hk₃, honce⟩ := readyOnce_resume h₂ hw₂ hact₂
    exact ⟨k₃, hk₃, fun _ => honce⟩
  · -- detached by a callback, it is not suspended any longer
    have hst : (k₂.env.thread t).stat ≠ .suspend := by
      rw [h₂.env.thread]
      exact fun hst => hact₂ (.inr hst)
    refine ⟨k₂, by simp [Sys.onSched, ResumePoint.after, rtThreadResume, hst], fun hnot => ?_⟩
    rw [ResumePoint.Upset, not_or, not_not] at hnot
    exact absurd (active_amid_tick h hw hact hnot.2 ha₂) hact₂

/-- The tick after the test. -/
theorem resume_after_checked (h : KernelRel k a) (hw : KernelWf a) (hact : (a.env.thread t).Active)
    (htick : kernelTick script k = some k₂) :
    ∃ k₃, k₂.onSched (ResumePoint.checked.after · t) = some k₃ ∧
      (¬ ResumePoint.checked.Upset script k t → ReadyOnce k₃ t) := by
  obtain ⟨a₂, ha₂, h₂⟩ := Lockstep.exists_of_left (kernelTick_rel h hw script) htick
  have hw₂ := (hw.tick ha₂).sched
  have hlive : a.env.list.live (.item t) = true :=
    hw.sched.live t (by rcases hact with hst | hst <;> simp [hst])
  obtain ⟨k₃, hk₃⟩ := sections_return h₂ hw₂ (tick_live hw hlive ha₂)
  refine ⟨k₃, hk₃, fun hnot => ?_⟩
  rw [ResumePoint.Upset, not_or, not_not] at hnot
  obtain ⟨k₃', hk₃', honce⟩ := readyOnce_makeReady h₂ hw₂ (active_amid_tick h hw hact hnot.2 ha₂)
  obtain rfl : k₃ = k₃' := Option.some.inj (hk₃.symm.trans hk₃')
  exact honce

/-- The tick between the sections finds the thread suspended and on no list; only its own timer
and a callback can list it. -/
theorem resume_after_unlinked (h : KernelRel k a) (hw : KernelWf a) (hpark : Parked t a.env)
    (htick : kernelTick script k = some k₂) :
    ∃ k₃, k₂.onSched (ResumePoint.unlinked.after · t) = some k₃ ∧
      (¬ ResumePoint.unlinked.Upset script k t → ReadyOnce k₃ t) ∧
      ((∀ cs ∈ script, ∀ c ∈ cs, c.Avoids t) → threadTimer t ∈ tickFires script k →
        ¬ ReadyOnce k₃ t) := by
  obtain ⟨a₂, ha₂, h₂⟩ := Lockstep.exists_of_left (kernelTick_rel h hw script) htick
  have hw₂ := (hw.tick ha₂).sched
  have hlive := tick_live hw (hw.sched.live t (by simp [hpark.suspended])) ha₂
  obtain ⟨k₃, hk₃⟩ := insert_returns h₂ hw₂ hlive (tick_apart hw hpark.apart ha₂)
  refine ⟨k₃, hk₃, fun hnot => ?_, fun hcs hfires => ?_⟩
  · rw [ResumePoint.Upset, not_or, not_not] at hnot
    have hpark₂ := hpark.tick h hw hnot.2 (fun hfires => hnot.1 ⟨rfl, hfires⟩) ha₂
    obtain ⟨k₃', hk₃', honce⟩ := readyOnce_insert h₂ hw₂ hpark₂
    obtain rfl : k₃ = k₃' := Option.some.inj (hk₃.symm.trans hk₃')
    exact honce
  · -- listed by its timer, it is inserted a second time
    have hready : (a₂.env.thread t).stat = .ready :=
      tick_fired (I := fun e => (e.thread t).stat = .ready) (P := fun _ c => c.Spares t)
        timeout_ready (fun hw hact hst => ready_of_timeout hw hact hst)
        (fun _ hw hc hok hst hrun => ready_of_call hw hc hok hst hrun) h hw
        (tickMeets_of_forall fun cs hmem c hc _ => (hcs cs hmem c hc).spares) hfires ha₂
    obtain ⟨k₃', hk₃', hbroken⟩ := insert_ready h₂ hw₂ hready
    obtain rfl : k₃ = k₃' := Option.some.inj (hk₃.symm.trans hk₃')
    exact hbroken

/-- The tick after both sections. -/
theorem resume_after_inserted (h : KernelRel k a) (hw : KernelWf a)
    (hst : (a.env.thread t).stat = .ready) (htick : kernelTick script k = some k₂)
    (hnot : ¬ ResumePoint.inserted.Upset script k t) : ReadyOnce k₂ t := by
  obtain ⟨a₂, ha₂, h₂⟩ := Lockstep.exists_of_left (kernelTick_rel h hw script) htick
  rw [ResumePoint.Upset, not_or, not_not] at hnot
  have hspares : tickMeets (fun _ c => c.Spares t) script k := by
    simpa only [ResumePoint.Upsets, not_not] using hnot.2
  have hready : (a₂.env.thread t).stat = .ready :=
    tick_meets_invariant (I := fun e => (e.thread t).stat = .ready)
      (fun hw hst hslice => (Waking.tickSlice hw hslice).ready t hst)
      (fun hw hact hst => ready_of_timeout hw hact hst)
      (fun _ hw hc hok hst hrun => ready_of_call hw hc hok hst hrun) h hw hspares hst ha₂
  exact readyOnce_of_ready h₂ (hw.tick ha₂).sched hready

/-- **`rt_thread_resume` amid a tick.** Wherever the tick arrives, and whatever it fires,
`rt_thread_resume` returns, the thread is once on its ready list and every ready list is a ring,
unless the tick upsets it; and if no callback is about the thread, that is so exactly when the
tick does not arrive between the two sections or does not fire the timer of the thread. -/
theorem resume_amid_tick {idle : τ} {ok : RtKernel τ σ υ → Op τ σ υ → Prop}
    (hk : Reachable idle ok k) (hst : (k.env.thread t).stat = .suspend) (p : ResumePoint) :
    ∃ k₁, k.onSched (p.before · t) = some k₁ ∧
      ∀ script k₂, kernelTick script k₁ = some k₂ →
        ∃ k₃, k₂.onSched (p.after · t) = some k₃ ∧ (¬ p.Upset script k₁ t → ReadyOnce k₃ t) ∧
          ((∀ cs ∈ script, ∀ c ∈ cs, c.Avoids t) →
            (ReadyOnce k₃ t ↔ ¬ (p = .unlinked ∧ threadTimer t ∈ tickFires script k₁))) := by
  obtain ⟨a, h, hw, -⟩ := hk.invariant (I := fun _ => True) (fun _ _ _ => trivial)
    fun _ _ _ _ _ _ _ _ _ _ => trivial
  have hst' : (a.env.thread t).stat = .suspend := by rw [← h.env.thread]; exact hst
  cases p with
  | entry =>
    refine ⟨k, rfl, fun script k₂ htick => ?_⟩
    obtain ⟨k₃, hk₃, honce⟩ := resume_after_entry h hw (.inr hst') htick
    exact ⟨k₃, hk₃, honce, fun hcs =>
      iff_of_true (honce (ResumePoint.not_upset hcs (by simp))) (by simp)⟩
  | checked =>
    refine ⟨k, by simp [Sys.onSched, ResumePoint.before, hst], fun script k₂ htick => ?_⟩
    obtain ⟨k₃, hk₃, honce⟩ := resume_after_checked h hw (.inr hst') htick
    exact ⟨k₃, hk₃, honce, fun hcs =>
      iff_of_true (honce (ResumePoint.not_upset hcs (by simp))) (by simp)⟩
  | unlinked =>
    have hlive := hw.sched.live t (by simp [hst'])
    obtain ⟨l, hl, hr⟩ := Lockstep.exists_of_right (rtListRemove_rep h.env.rep t)
      (show remove a.env.list t = some (a.env.list.erase t) by simp [remove, hlive])
    let k₁ : RtKernel τ σ υ := { k with env := { k.env with list := l } }
    let a₁ : SeqKernel τ σ υ := { a with env := { a.env with list := a.env.list.erase t } }
    have h₁ : KernelRel k₁ a₁ := ⟨h.timers, h.env.setList hr⟩
    have hw₁ : KernelWf a₁ :=
      hw.of_env (hw.sched.drop (by simp [hst'])) (fun _ => id) fun _ => id
    have hpark : Parked t a₁.env := ⟨hst', fun s => hw.sched.valid.erase_free t (.suspend s)⟩
    refine ⟨k₁, ?_, fun script k₂ htick => ?_⟩
    · simp only [Sys.onSched, ResumePoint.before, hst, if_true, rtThreadResumeUnlink, hl]
      rfl
    · obtain ⟨k₃, hk₃, honce, htwice⟩ := resume_after_unlinked h₁ hw₁ hpark htick
      refine ⟨k₃, hk₃, honce, fun hcs => ⟨?_, fun hnot => honce (ResumePoint.not_upset hcs hnot)⟩⟩
      rintro hready ⟨-, hfires⟩
      exact htwice hcs hfires hready
  | inserted =>
    have hresume := resume_eq hw.sched hst'
    have hrel : Option.Rel KernelRel (k.onSched (ResumePoint.inserted.before · t))
        (a.onSched fun e => (Abs.resume e t).map Prod.snd) :=
      onSched_rel h (Lockstep.map_snd (rtThreadResume_rel h.env t))
    obtain ⟨k₁, hk₁, h₁⟩ := Lockstep.exists_of_right hrel
      (by simp only [Sys.onSched, hresume]; rfl)
    have hw₁ := hw.of_waking (Waking.resume hw.sched hresume)
    refine ⟨k₁, hk₁, fun script k₂ htick => ?_⟩
    have honce := resume_after_inserted h₁ hw₁ (t := t) (by simp) htick
    exact ⟨k₂, rfl, honce, fun hcs =>
      iff_of_true (honce (ResumePoint.not_upset hcs (by simp))) (by simp)⟩

end Tick

end Resume

end ResumeTick

/-- Threads 1, 2 and 3 sleep, for one tick, for nine and for two; a tick wakes thread 1. -/
def threeSleepers : List (Op (Fin 4) (Fin 1) Empty) :=
  [.call (.threadInit 1 3 10), .call (.threadInit 2 5 10), .call (.threadInit 3 7 10),
    .call (.threadStartup 1), .call (.threadStartup 2), .call (.threadStartup 3), .schedulerStart,
    .threadSleep 1, .threadSleep 9, .threadSleep 2, .tickIncrease [[]]]

/-- Thread 1 resumes thread 2, and the tick between the two sections fires the timer of
thread 3. -/
theorem resume_amid_other_tick : ∃ k, runFrom 0 (fun _ _ => True) threeSleepers = some k ∧
    k.env.rtCurrentThread = some 1 ∧
    ∃ k₁, k.onSched (ResumePoint.unlinked.before · 2) = some k₁ ∧
      tickFires [[]] k₁ = [threadTimer 3] ∧ ∃ k₂, kernelTick [[]] k₁ = some k₂ ∧
        ∃ k₃, k₂.onSched (ResumePoint.unlinked.after · 2) = some k₃ ∧ ReadyOnce k₃ 2 := by
  obtain ⟨k, hk, hreach, hp⟩ := reachable_of_runFrom 0 (fun _ _ => True) threeSleepers
    (fun k => decide (k.env.rtCurrentThread = some 1) &&
      decide ((k.env.thread 2).stat = .suspend) &&
      (k.onSched (ResumePoint.unlinked.before · 2)).any fun k₁ =>
        decide (tickFires [[]] k₁ = [threadTimer 3]) && (kernelTick [[]] k₁).isSome)
    (by decide +kernel)
  simp only [Bool.and_eq_true, decide_eq_true_eq, Option.any_eq_true, Option.isSome_iff_exists]
    at hp
  obtain ⟨⟨hcur, hst⟩, k₁, hk₁, hfires, k₂, hk₂⟩ := hp
  obtain ⟨k₁', hk₁', hall⟩ := resume_amid_tick hreach hst .unlinked
  obtain rfl : k₁ = k₁' := Option.some.inj (hk₁.symm.trans hk₁')
  obtain ⟨k₃, hk₃, -, honce⟩ := hall [[]] k₂ hk₂
  exact ⟨k, hk, hcur, k₁, hk₁, hfires, k₂, hk₂, k₃, hk₃, (honce (by simp)).mpr (by simp [hfires])⟩

/-- Thread 1 resumes thread 3 instead: the same tick inserts it first, and it ends up as its
own predecessor. -/
theorem resume_amid_own_tick :
    ¬ ∀ k : RtKernel (Fin 4) (Fin 1) Empty, Reachable 0 (fun _ _ => True) k →
      ∀ t, (k.env.thread t).stat = .suspend → k.Armed t →
        ∀ (p : ResumePoint) script k₁ k₂ k₃, k.onSched (p.before · t) = some k₁ →
          kernelTick script k₁ = some k₂ → k₂.onSched (p.after · t) = some k₃ →
          ReadyOnce k₃ t := by
  intro hclaim
  obtain ⟨k, -, hreach, hp⟩ := reachable_of_runFrom 0 (fun _ _ => True) threeSleepers
    (fun k => decide ((k.env.thread 3).stat = .suspend) && decide (k.Armed 3) &&
      (k.onSched (ResumePoint.unlinked.before · 3)).any fun k₁ =>
        (kernelTick [[]] k₁).any fun k₂ =>
          (k₂.onSched (ResumePoint.unlinked.after · 3)).any fun k₃ =>
            decide (k₃.env.list.prev (.head (.ready 7)) = some (.item 3)) &&
              decide (k₃.env.list.prev (.item 3) = some (.item 3)) &&
              decide (k₃.env.list.next (.item 3) ≠ some (.item 3)))
    (by decide +kernel)
  simp only [Bool.and_eq_true, decide_eq_true_eq, Option.any_eq_true] at hp
  obtain ⟨⟨hst, harmed⟩, k₁, hk₁, k₂, hk₂, k₃, hk₃, ⟨hhead, hself⟩, hnext⟩ := hp
  obtain ⟨table, hring, -⟩ := hclaim k hreach 3 hst harmed .unlinked [[]] k₁ k₂ k₃ hk₁ hk₂ hk₃
  have hring := hring 7 (by decide)
  obtain ⟨q, hq, -, hqh⟩ := hring.exists_prev (n := .head (.ready 7)) (List.mem_cons_self ..)
  obtain rfl := Option.some.inj (hhead.symm.trans hqh)
  obtain ⟨q, -, hnq, hqp⟩ := hring.exists_prev hq
  obtain rfl := Option.some.inj (hself.symm.trans hqp)
  exact hnext hnq

end SampleRtos
