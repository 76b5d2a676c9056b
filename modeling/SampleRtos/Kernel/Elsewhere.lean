import SampleRtos.Kernel.Remembered

/-!
# What has nothing to do with a semaphore

A section, a call or a tick that is about other semaphores, and about other threads than those in
a take of this one, leaves it as it is: nobody joins its waiters, none of them runs, and no thread
in a take finds itself granted a unit that it has not been granted before.
-/

namespace SampleRtos

open Intrusive

section Aloof
variable {τ σ υ : Type} [DecidableEq τ] [DecidableEq σ] [DecidableEq υ]
  {a a' : SeqKernel τ σ υ} {e e' e'' : SchedSys τ σ (ThreadRings τ σ)} {t u : τ} {s q : σ}
  {taking : τ → Prop}

/-- `t`, in a take of `s`, is to find that it has got its unit. -/
def Granted (e : SchedSys τ σ (ThreadRings τ σ)) (s : σ) (t : τ) : Prop :=
  t ∉ e.waiters s ∧ (e.thread t).error = RT_EOK

instance (e : SchedSys τ σ (ThreadRings τ σ)) (s : σ) : DecidablePred (Granted e s) :=
  fun t => inferInstanceAs (Decidable (t ∉ e.waiters s ∧ _))

/-- The semaphore `s` stays as it is, nobody joins its waiters, and no thread in a take of it is
granted a unit. -/
structure Aloof (s : σ) (taking : τ → Prop) (e e' : SchedSys τ σ (ThreadRings τ σ)) : Prop where
  sem : e'.sem s = e.sem s
  waiters : ∀ t ∈ e'.waiters s, t ∈ e.waiters s
  granted : ∀ t, taking t → Granted e' s t → Granted e s t

namespace Aloof

section
omit [DecidableEq τ] [DecidableEq σ]

theorem refl (s : σ) (taking : τ → Prop) (e : SchedSys τ σ (ThreadRings τ σ)) :
    Aloof s taking e e := ⟨rfl, fun _ => id, fun _ _ => id⟩

theorem trans (h : Aloof s taking e e') (h' : Aloof s taking e' e'') : Aloof s taking e e'' :=
  ⟨h'.sem.trans h.sem, fun t ht => h.waiters t (h'.waiters t ht),
    fun t ht hg => h.granted t ht (h'.granted t ht hg)⟩

/-- Threads in a take of `s` are bystanders. -/
theorem of_bystanders (hsem : e'.sem s = e.sem s) (hwaiters : ∀ t ∈ e'.waiters s, t ∈ e.waiters s)
    (h : ∀ t, taking t → Bystander t e e') : Aloof s taking e e' := by
  refine ⟨hsem, hwaiters, fun t ht hg => ?_⟩
  rwa [Granted, (h t ht).thread, (h t ht).waiters] at hg

theorem of_eq (hsem : e'.sem s = e.sem s) (hthread : e'.thread = e.thread)
    (hwaiters : e'.waiters = e.waiters) : Aloof s taking e e' :=
  of_bystanders hsem (fun t ht => by rwa [hwaiters] at ht) fun _ _ => .of_eq hthread hwaiters

end

section
omit [DecidableEq σ]

theorem schedule (h : Abs.schedule e = some e') : Aloof s taking e e' :=
  have hsame := schedule_same h
  of_eq (by rw [hsame.sem]) hsame.thread hsame.waiters

end

/-- A thread that is no waiter of `s`, or is woken with an error, goes to its ready list. -/
theorem relist {r : RtThread} (hu : taking u → u ∉ e.waiters s ∧ r.error = (e.thread u).error ∨
    r.error ≠ RT_EOK) : Aloof s taking e (e.relistReady u r) := by
  refine ⟨rfl, fun t ht => ?_, fun t ht hg => ?_⟩
  · by_cases htu : t = u
    · subst htu
      rw [SchedSys.relistReady_waiters] at ht
      exact List.mem_of_mem_erase ht
    · simpa [List.mem_erase_of_ne htu] using ht
  · by_cases htu : t = u
    · subst htu
      obtain ⟨-, herr⟩ := hg
      rw [SchedSys.relistReady_thread, Function.update_self] at herr
      rcases hu ht with ⟨hoff, hsame⟩ | hne
      · exact ⟨hoff, hsame ▸ herr⟩
      · exact absurd herr hne
    · have hby : Bystander t e (e.relistReady u r) := .relist htu
      rwa [Granted, hby.thread, hby.waiters] at hg

/-- All waiters of another semaphore fail. -/
theorem failAll (hw : SchedWf e) (hq : s ≠ q) : Aloof s taking e (e.failAll (e.waiters q)) := by
  have hwaiters : (e.failAll (e.waiters q)).waiters s = e.waiters s := failAll_waiters hq _ hw rfl
  refine ⟨by rw [failAll_sem], fun t ht => by rwa [hwaiters] at ht, fun t _ hg => ?_⟩
  by_cases htq : t ∈ e.waiters q
  · have hnd : (e.waiters q).Nodup := hw.valid.nodup _
    rw [Granted, failAll_thread_of_mem hnd htq] at hg
    exact absurd (show -RT_ERROR = RT_EOK from hg.2) (by decide)
  · rwa [Granted, failAll_thread_of_not_mem htq, hwaiters] at hg

section
omit [DecidableEq σ]

/-- A thread that is no waiter of `s`, or in no take of it, goes off its list. -/
theorem unlist {r : RtThread}
    (hu : taking u → u ∉ e.waiters s ∧ r.error = (e.thread u).error) :
    Aloof s taking e (e.unlist u r) := by
  refine ⟨rfl, fun t ht => ?_, fun t ht hg => ?_⟩
  · rw [SchedSys.unlist_waiters] at ht
    exact List.mem_of_mem_erase ht
  · by_cases htu : t = u
    · subst htu
      obtain ⟨-, herr⟩ := hg
      rw [SchedSys.unlist_thread, Function.update_self] at herr
      exact ⟨(hu ht).1, (hu ht).2 ▸ herr⟩
    · have hby : Bystander t e (e.unlist u r) := .unlist htu
      rwa [Granted, hby.thread, hby.waiters] at hg

end

section
omit [DecidableEq τ]

/-- Nothing but another semaphore gets a new record. -/
theorem setSem {r : RtSemaphore} (hq : s ≠ q) : Aloof s taking e (e.setSem q r) :=
  of_eq (by simp [SchedSys.setSem, hq]) rfl rfl

end

section
omit [DecidableEq τ] [DecidableEq σ]

/-- A ready thread is no waiter. -/
theorem free_of_ready (hw : SchedWf e) (hst : (e.thread u).stat = .ready) (s : σ) :
    u ∉ e.waiters s := by
  intro hmem
  rw [hw.waiting u s hmem] at hst
  cases hst

end

theorem relist_ready (hw : SchedWf e) (hst : (e.thread u).stat = .ready) {r : RtThread}
    (herr : r.error = (e.thread u).error) : Aloof s taking e (e.relistReady u r) :=
  relist fun _ => .inl ⟨free_of_ready hw hst s, herr⟩

/-- The first waiter of another semaphore is no waiter of this one. -/
theorem wake (hw : SchedWf e) (hq : q ≠ s) {ts : List τ} (hts : e.waiters q = u :: ts) :
    Aloof s taking e (e.relistReady u { e.thread u with stat := .ready }) := by
  have hmem : u ∈ e.waiters q := by simp [hts]
  refine relist fun _ => .inl ⟨fun hmem' => hq ?_, rfl⟩
  have hhead : ThreadHead.suspend q = .suspend s := hw.valid.disjoint hmem hmem'
  cases hhead
  rfl

theorem timeout (h : Abs.timeout e u = some e') : Aloof s taking e e' :=
  have hmoved : Aloof s taking e (e.relistReady u (e.thread u).timedOut) :=
    relist fun _ => .inr (show -RT_ETIMEOUT ≠ RT_EOK by decide)
  hmoved.trans (schedule (timeout_spec h).2)

theorem tickSlice (hw : SchedWf e) (h : Abs.tickSlice e = some e') : Aloof s taking e e' := by
  have hset : ∀ (u : τ) n, Aloof s taking e (e.setThread u ((e.thread u).withRemaining n)) := by
    intro u n
    refine ⟨rfl, fun _ => id, fun t _ hg => ?_⟩
    by_cases htu : t = u
    · subst htu
      simpa [Granted, RtThread.withRemaining] using hg
    · simpa [Granted, htu] using hg
  obtain ⟨u, -, ⟨-, rfl⟩ | ⟨-, ⟨rfl, -⟩ | ⟨hst, hsched⟩⟩⟩ := tickSlice_spec hw h
  · exact hset u _
  · exact hset u _
  · have hmoved : Aloof s taking e
        (e.relistReady u ((e.thread u).withRemaining (e.thread u).initTick)) :=
      relist_ready hw hst rfl
    exact hmoved.trans (schedule hsched)

end Aloof

/-- The call is about another semaphore, and about no thread in a take of this one except to
suspend it. -/
def Call.Foreign (s : σ) (taking : τ → Prop) : Call τ σ υ → Prop
  | .threadInit t _ _ => ¬ taking t
  | .threadStartup t => ¬ taking t
  | .threadResume t => ¬ taking t
  | .threadDetach t => ¬ taking t
  | .semInit q _ _ => q ≠ s
  | .semTrytake q => q ≠ s
  | .semRelease q => q ≠ s
  | .semControl q _ _ => q ≠ s
  | .semDetach q => q ≠ s
  | _ => True

instance (s : σ) (taking : τ → Prop) [DecidablePred taking] (c : Call τ σ υ) :
    Decidable (c.Foreign s taking) := by
  rcases c <;> dsimp only [Call.Foreign] <;> infer_instance

/-- **What a call about something else does.** -/
theorem Aloof.call [Fintype τ] (hw : KernelWf a) {c : Call τ σ υ} (hc : c.Foreign s taking)
    (hrun : Abs.execCall a c = some a') : Aloof s taking a.env a'.env := by
  unfold Abs.execCall at hrun
  cases c with
  | threadInit u priority tick =>
    cases hrun
    refine of_bystanders rfl (fun _ => id) fun t ht => .update ?_ rfl rfl
    rintro rfl
    exact hc ht
  | threadStartup u =>
    have hmoved : Aloof s taking a.env (a.env.relistReady u (a.env.thread u).started) :=
      relist fun hu => absurd hu hc
    obtain ⟨-, ⟨-, henv⟩ | ⟨-, hsched⟩⟩ := startup_spec (onSched_spec hrun).1
    · rw [henv]
      exact hmoved
    · exact hmoved.trans (schedule hsched)
  | threadResume u =>
    obtain ⟨_, hr⟩ := returned_of_map (onSched_spec hrun).1
    rcases resume_spec hr with ⟨-, -, henv⟩ | ⟨-, -, -, henv⟩ <;> rw [henv]
    · exact refl s _ _
    · exact relist fun hu => absurd hu hc
  | threadSuspend u =>
    obtain ⟨_, hr⟩ := returned_of_map hrun
    rcases threadSuspend_spec hw.sched hr with ⟨-, -, rfl⟩ | ⟨hst, -, henv, -⟩
    · exact refl s _ _
    · rw [henv]
      exact unlist fun _ => ⟨free_of_ready hw.sched hst s, rfl⟩
  | threadYield =>
    obtain ⟨u, -, ⟨henv, -⟩ | ⟨hst, hsched⟩⟩ := yield_spec hw.sched (onSched_spec hrun).1
    · rw [henv]
      exact refl s _ _
    · exact (relist_ready hw.sched hst rfl).trans (schedule hsched)
  | threadDetach u =>
    obtain ⟨-, -, ⟨hst, henv⟩ | ⟨-, henv⟩⟩ := threadDetach_spec hw.sched hrun <;> rw [henv]
    · refine of_bystanders rfl (fun _ => id) fun t ht => .update ?_ rfl rfl
      rintro rfl
      exact hc ht
    · exact unlist fun hu => absurd hu hc
  | semInit q value flag =>
    cases hrun
    have hq : s ≠ q := Ne.symm hc
    exact of_eq (by simp [Abs.semInit, SchedSys.setSem, hq]) rfl rfl
  | semTrytake q =>
    have hq : s ≠ q := Ne.symm hc
    obtain ⟨_, hr⟩ := returned_of_map hrun
    rcases semTake_spec hr with ⟨-, -, rfl⟩ | ⟨-, -, -, rfl⟩ | ⟨hb, -⟩
    · exact setSem hq
    · exact refl s _ _
    · exact absurd rfl hb.2
  | semRelease q =>
    rcases semRelease_spec hw.sched (onSched_spec hrun).1 with
      ⟨-, henv⟩ | ⟨u, us, hus, -, hsched⟩
    · rw [henv]
      exact setSem (Ne.symm hc)
    · exact (wake hw.sched hc hus).trans (schedule hsched)
  | semControl q cmd arg =>
    have hq : s ≠ q := Ne.symm hc
    obtain ⟨_, hr⟩ := returned_of_map (onSched_spec hrun).1
    rcases semControl_spec hw.sched hr with ⟨-, -, henv⟩ | ⟨-, -, hsched⟩
    · rw [henv]
      exact refl s _ _
    · exact ((failAll hw.sched hq).trans (setSem hq)).trans (schedule hsched)
  | semDetach q =>
    rw [semDetach_spec hw.sched (onSched_spec hrun).1]
    exact failAll hw.sched (Ne.symm hc)
  | enterCritical =>
    cases hrun
    refine of_eq ?_ ?_ ?_ <;> simp only [SchedSys.rtEnterCritical] <;> split <;> rfl
  | exitCritical =>
    obtain ⟨n, henv | hsched⟩ := exitCritical_spec (onSched_spec hrun).1
    · rw [henv]
      exact of_eq rfl rfl rfl
    · have hlock : Aloof s taking a.env { a.env with rtSchedulerLockNest := n } := of_eq rfl rfl rfl
      exact hlock.trans (schedule hsched)
  | schedule => exact schedule (onSched_spec hrun).1
  | timerInit v time flag => cases hrun; exact refl s _ _
  | timerControl v cmd => cases hrun; exact refl s _ _
  | _ => rw [(onTimers_spec hrun).2]; exact refl s _ _

/-! ## Whoever waits does not run -/

/-- A waiter of `s` that is current has been so before. -/
def Yields (s : σ) (e e' : SchedSys τ σ (ThreadRings τ σ)) : Prop :=
  ∀ t ∈ e'.waiters s, e'.rtCurrentThread = some t → e.rtCurrentThread = some t

section
omit [DecidableEq τ] [DecidableEq σ]

theorem Elects.yields (h : Elects e e') (hw : SchedWf e') : Yields s e e' := by
  intro t ht hcur
  rcases h with hsame | ⟨u, hu, hready⟩
  · exact hsame.symm.trans hcur
  · obtain rfl : u = t := Option.some.inj (hu.symm.trans hcur)
    rw [hw.waiting u s ht] at hready
    cases hready

end

/-- The semaphore stays as it is, and its waiters off the processor. -/
structure Elsewhere (s : σ) (taking : τ → Prop) (e e' : SchedSys τ σ (ThreadRings τ σ)) : Prop where
  aloof : Aloof s taking e e'
  yields : Yields s e e'

namespace Elsewhere

section
omit [DecidableEq τ] [DecidableEq σ]

theorem refl (s : σ) (taking : τ → Prop) (e : SchedSys τ σ (ThreadRings τ σ)) :
    Elsewhere s taking e e := ⟨.refl s taking e, fun _ _ => id⟩

theorem trans (h : Elsewhere s taking e e') (h' : Elsewhere s taking e' e'') :
    Elsewhere s taking e e'' :=
  ⟨h.aloof.trans h'.aloof,
    fun t ht hcur => h.yields t (h'.aloof.waiters t ht) (h'.yields t ht hcur)⟩

end

theorem call [Fintype τ] {c : Call τ σ υ} (hc : c.Foreign s taking) (hw : KernelWf a)
    (hallowed : Abs.CallAllowed a c) (hrun : Abs.execCall a c = some a') :
    Elsewhere s taking a.env a'.env :=
  ⟨.call hw hc hrun, (execCall_effect hw hallowed hrun).elects.yields
    (hw.execCall hallowed hrun).sched⟩

section
omit [DecidableEq τ] [DecidableEq σ]

theorem waking (h : Aloof s taking e e') (hwake : Waking e e') : Elsewhere s taking e e' :=
  ⟨h, Elects.yields hwake.current hwake.wf⟩

end

theorem runCalls [Fintype τ] (cs : List (Call τ σ υ)) (hcs : ∀ c ∈ cs, c.Foreign s taking)
    (hw : KernelWf a) (hrun : Abs.runCalls cs a = some a') : Elsewhere s taking a.env a'.env :=
  runCalls_steps (C := fun c => c.Foreign s taking) (refl s taking) trans call cs hcs hw hrun

theorem tick [Fintype τ] (hw : KernelWf a) {script : List (List (Call τ σ υ))}
    (hcs : ∀ cs ∈ script, ∀ c ∈ cs, c.Foreign s taking) (hrun : Abs.tick script a = some a') :
    Elsewhere s taking a.env a'.env :=
  tick_steps (C := fun c => c.Foreign s taking) (refl s taking) trans call
    (fun hw hact h => waking (.timeout h) (.timeout hw hact h))
    (fun hw h => waking (.tickSlice hw h) (.tickSlice hw h)) hw hcs hrun

end Elsewhere

section
omit [DecidableEq τ] [DecidableEq σ] [DecidableEq υ]

/-- A call about something else wakes, starts or closes no thread in a take. -/
theorem Piece.target_foreign {p : Piece τ σ υ} (hc : p.call.Foreign s taking)
    (ht : p.target = some t) : ¬ taking t := by
  cases p with
  | resume u q b =>
    cases ht
    cases b <;> exact hc
  | startup u q =>
    cases ht
    exact hc
  | detach u q =>
    cases ht
    exact hc
  | _ => cases ht

end

/-- **A piece of a call about something else.** -/
theorem PieceEffect.elsewhere [Fintype τ] {p : Piece τ σ υ} {n : Piece τ σ υ ⊕ Rest τ}
    (heff : PieceEffect a p n a') (hw : KernelWf a) (hc : p.call.Foreign s taking) :
    Elsewhere s taking a.env a'.env := by
  have hleaves := heff.leaves hw
  refine ⟨?_, Elects.yields (.inl hleaves.current) hleaves.wf.sched⟩
  have hother : ∀ {t u}, p.target = some t → taking u → u ≠ t := by
    rintro t u ht hu rfl
    exact Piece.target_foreign hc ht hu
  cases heff with
  | nothing => exact .refl s _ _
  | resumes => exact .relist fun hu => absurd rfl (hother rfl hu)
  | @suspends u _ hrun => exact .call (c := .threadSuspend u) hw trivial hrun
  | timerDetached => exact .refl s _ _
  | unlinks hp =>
    refine .of_bystanders rfl (fun u hu => List.mem_of_mem_erase hu) fun u hu => ⟨rfl, fun q => ?_⟩
    exact List.mem_erase_of_ne (hother hp hu)
  | writes hp =>
    exact .of_bystanders rfl (fun _ => id) fun u hu => .update (hother hp hu) rfl rfl
  | fails => exact .relist fun _ => .inr (show -RT_ERROR ≠ RT_EOK by decide)
  | disarms => exact .refl s _ _
  | sets => exact .refl s _ _

/-- The function is about another semaphore or about none. -/
def Service.Foreign (s : σ) : Service σ → Prop
  | .semTake q _ => q ≠ s
  | .semRelease q => q ≠ s
  | .semControl q _ _ => q ≠ s
  | _ => True

instance (s : σ) (f : Service σ) : Decidable (f.Foreign s) := by
  rcases f <;> dsimp only [Service.Foreign] <;> infer_instance

/-- The record and the waiting of all other threads survive when the current one joins the
waiters of `q`. -/
theorem SectionEffect.waits_frame {f : Service σ} {time : BitVec 32} (hw : KernelWf a)
    (heff : SectionEffect f a a') (hf : f = .semTake q time) :
    ∃ t, a.env.rtCurrentThread = some t ∧ a'.env.sem = a.env.sem ∧
      (∀ u ≠ t, Bystander u a.env a'.env) ∧ (∀ p ≠ q, a'.env.waiters p = a.env.waiters p) ∧
      ((a.env.sem q).Queues → t ∈ a'.env.waiters q) := by
  cases heff with
  | @waits t p time' e a₁ a₂ _ hcur hcan hsusp hins htimer htake =>
    rw [hf] at htake
    cases htake
    have h₁ := threadSuspend_suspends (hw.setError t RT_EOK) ((canBlock_setError _).mpr hcan) hsusp
    obtain ⟨hw₂, hthread₂, h₂, -⟩ := h₁.inserted hins
    obtain ⟨henv, -⟩ := takeTimer_frame hw₂ htimer
    refine ⟨t, hcur, ?_, fun u hut => ⟨?_, fun p => ?_⟩, fun p hp => ?_, fun hflag => ?_⟩
    · rw [henv, h₂.sem, h₁.sem]
      rfl
    · rw [henv, hthread₂, h₁.thread]
      simp [SchedSys.setError, hut]
    · rw [henv, h₂.mem_waiters hut, h₁.waiters]
      rfl
    · rw [henv, h₂.waiters_ne p hp, h₁.waiters]
      rfl
    · rw [henv]
      exact h₂.mem_self (by rw [h₁.sem]; exact hflag)
  | resets p r hflag hreset =>
    obtain ⟨cmd, arg, hreset⟩ := hreset
    cases hf.symm.trans hreset
  | sleeps _ _ _ _ hother => cases hf.symm.trans hother
  | yields _ _ hother => cases hf.symm.trans hother
  | releases _ _ hother => cases hf.symm.trans hother
  | unlocks hother => cases hf.symm.trans hother
  | nothing hother => cases hf.symm.trans hother

/-- The first waiter of `q` becomes ready. -/
theorem SectionEffect.releases_frame {f : Service σ} (heff : SectionEffect f a a')
    (hf : f = .semRelease q) : ∃ t ts, a.env.waiters q = t :: ts ∧
      a'.env = a.env.relistReady t { a.env.thread t with stat := .ready } := by
  cases heff with
  | releases hwake hwaiters hrelease =>
    cases hf.symm.trans hrelease
    exact ⟨_, _, hwaiters, rfl⟩
  | resets p r hflag hreset =>
    obtain ⟨cmd, arg, hreset⟩ := hreset
    cases hf.symm.trans hreset
  | sleeps _ _ _ _ hother => cases hf.symm.trans hother
  | waits _ _ _ _ _ hother => cases hf.symm.trans hother
  | yields _ _ hother => cases hf.symm.trans hother
  | unlocks hother => cases hf.symm.trans hother
  | nothing hother => cases hf.symm.trans hother

/-- **A section about something else.** -/
theorem SectionEffect.elsewhere {f : Service σ} (hw : KernelWf a) (heff : SectionEffect f a a')
    (hf : f.Foreign s) (hcur : ∀ t, a.env.rtCurrentThread = some t → ¬ taking t) :
    Elsewhere s taking a.env a'.env := by
  have hleaves := heff.leaves hw
  refine ⟨?_, Elects.yields (.inl hleaves.current) hleaves.wf.sched⟩
  have hother : ∀ {t u}, a.env.rtCurrentThread = some t → taking u → u ≠ t := by
    rintro t u ht hu rfl
    exact hcur u ht hu
  have heff' := heff
  cases heff with
  | sleeps hcur hcan hsusp htimer =>
    have h₁ := threadSuspend_suspends hw hcan hsusp
    obtain ⟨henv, -⟩ := threadTimerStart_frame h₁.wf htimer
    rw [henv]
    exact .of_bystanders (by rw [h₁.sem]) (fun u hu => by rwa [h₁.waiters] at hu)
      fun u hu => .update (hother hcur hu) h₁.thread h₁.waiters
  | @waits _ q time _ _ _ _ _ _ _ _ _ htake =>
    subst htake
    obtain ⟨t, hcur, hsem, hby, hwaiters, -⟩ := heff'.waits_frame hw rfl
    exact .of_bystanders (by rw [hsem])
      (fun u hu => by rwa [hwaiters s (Ne.symm (show q ≠ s from hf))] at hu)
      fun u hu => hby u (hother hcur hu)
  | yields hwake hready => exact .relist_ready hw.sched hready rfl
  | releases hwake hwaiters hrelease =>
    subst hrelease
    exact .wake hw.sched hf hwaiters
  | resets q r hflag hreset =>
    obtain ⟨cmd, arg, rfl⟩ := hreset
    have hq : s ≠ q := Ne.symm hf
    exact .trans (.failAll hw.sched hq) (.setSem hq)
  | unlocks => exact .of_eq rfl rfl rfl
  | nothing => exact .refl s _ _

end Aloof

end SampleRtos
