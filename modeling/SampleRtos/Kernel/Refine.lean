import SampleRtos.Lib.Run
import SampleRtos.Kernel.Blocking

/-!
# The linked kernel runs in lockstep with its sequences

Each operation on links is matched by the operation on sequences, and the two
levels agree on which operations a run may perform. So every state a run of the
linked kernel reaches stands for sequences that satisfy the kernel invariant.
-/

namespace SampleRtos

open Intrusive

section Refine
variable {τ σ υ : Type} [DecidableEq τ] [DecidableEq σ] [DecidableEq υ]

/-- The links of the state are the sequences of the other. -/
abbrev KernelRel (k : RtKernel τ σ υ) (a : SeqKernel τ σ υ) : Prop := SysRel SchedRel k a

variable {k : RtKernel τ σ υ} {a : SeqKernel τ σ υ}

theorem onSched_rel (h : KernelRel k a)
    {f : SchedSys τ σ (ThreadLinks τ σ) → Option (SchedSys τ σ (ThreadLinks τ σ))}
    {g : SchedSys τ σ (ThreadRings τ σ) → Option (SchedSys τ σ (ThreadRings τ σ))}
    (hfg : Option.Rel SchedRel (f k.env) (g a.env)) :
    Option.Rel KernelRel (k.onSched f) (a.onSched g) :=
  Lockstep.bind hfg fun _ _ _ _ he => .some ⟨h.timers, he⟩

theorem onTimers_rel (h : KernelRel k a)
    {f : TimerSys (τ ⊕ υ) (TimerCallback τ) (TimerLinks (τ ⊕ υ)) →
      Option (TimerSys (τ ⊕ υ) (TimerCallback τ) (TimerLinks (τ ⊕ υ)))}
    {g : SeqTimers τ υ → Option (SeqTimers τ υ)}
    (hfg : Option.Rel TimerRel (f k.timers) (g a.timers)) :
    Option.Rel KernelRel (k.onTimers f) (a.onTimers g) :=
  Lockstep.bind hfg fun _ _ _ _ hm => .some ⟨hm, h.env⟩

/-! ## thread.c -/

theorem rtThreadInit_rel (h : KernelRel k a) {t : τ} (hfree : a.env.list.Free t)
    (htimer : a.timers.timerList.Free (threadTimer t)) (priority : Nat) (tick : BitVec 32) :
    KernelRel (rtThreadInit k t priority tick) (Abs.threadInit a t priority tick) := by
  refine ⟨rtTimerInit_rel h.timers htimer _ _ _, ?_⟩
  unfold rtThreadInit Abs.threadInit
  rw [h.env.thread]
  exact (h.env.setList (h.env.rep.selfLink (.inr ⟨t, rfl, hfree⟩))).setThread t _

theorem rtThreadSuspend_rel (h : KernelRel k a) (t : τ) :
    Option.Rel (fun x y => x.1 = y.1 ∧ KernelRel x.2 y.2) (rtThreadSuspend k t)
      (Abs.threadSuspend a t) := by
  unfold rtThreadSuspend Abs.threadSuspend
  refine Lockstep.ite (by rw [h.env.thread]) (fun _ => .some ⟨rfl, h⟩) fun _ => ?_
  refine Lockstep.bind
    (onSched_rel h (rtScheduleRemoveThread_rel (h.env.setStat t .suspend) t)) fun _ _ _ _ h₁ => ?_
  exact Lockstep.bind (rtTimerStop_rel h₁.timers (threadTimer t)) fun _ _ _ _ h₂ =>
    .some ⟨rfl, h₂.2, h₁.env⟩

theorem rtThreadTimerStart_rel [Fintype τ] [Fintype υ] (h : KernelRel k a) (t : τ) (tick : Tick) :
    Option.Rel KernelRel (rtThreadTimerStart k t tick) (Abs.threadTimerStart a t tick) :=
  onTimers_rel h (rtTimerStart_rel (rtTimerControl_rel h.timers _ _) _)

theorem rtThreadSleep_rel [Fintype τ] [Fintype υ] (h : KernelRel k a) (tick : Tick) :
    Option.Rel KernelRel (rtThreadSleep k tick) (Abs.threadSleep a tick) := by
  unfold rtThreadSleep Abs.threadSleep
  rw [h.env.current]
  refine Lockstep.bind (Lockstep.refl _) fun t _ _ _ ht => ?_
  subst ht
  refine Lockstep.bind (rtThreadSuspend_rel h t) fun _ _ _ _ h₁ => ?_
  refine Lockstep.bind (rtThreadTimerStart_rel h₁.2 t tick) fun _ _ _ _ h₂ => ?_
  exact onSched_rel h₂ (rtSchedule_rel h₂.env)

theorem rtThreadDetach_rel (h : KernelRel k a) (hw : SchedWf a.env) (t : τ) :
    Option.Rel KernelRel (rtThreadDetach k t) (Abs.threadDetach a t) := by
  unfold rtThreadDetach Abs.threadDetach
  have hremoved : Option.Rel (fun k₁ a₁ => KernelRel k₁ a₁ ∧ a₁.env.list.Free t)
      (if (k.env.thread t).stat ≠ .init then k.onSched fun e => rtScheduleRemoveThread e t
        else some k)
      (if (a.env.thread t).stat ≠ .init then a.onSched fun e => Abs.removeThread e t
        else some a) := by
    refine Lockstep.ite (by rw [h.env.thread]) (fun _ => ?_) fun hst => ?_
    · refine Lockstep.mono (onSched_rel h (rtScheduleRemoveThread_rel h.env t))
        fun _ a₁ _ ha₁ h₁ => ⟨h₁, ?_⟩
      obtain ⟨-, henv⟩ := removeThread_spec hw.head_live (hw.prio_lt t) (onSched_spec ha₁).1
      rw [henv]
      exact hw.valid.erase_free t
    · exact .some ⟨h, hw.free_of_stat (.inl (not_not.mp hst))⟩
  refine Lockstep.bind hremoved fun k₁ a₁ _ _ ⟨h₁, hfree⟩ => ?_
  refine Lockstep.bind (onTimers_rel h₁ (rtTimerRemove_rel h₁.timers (threadTimer t)))
    fun k₂ a₂ _ ha₂ h₂ => ?_
  have h₃ : KernelRel { k₂ with env := k₂.env.setStat t .close }
      { a₂ with env := a₂.env.setStat t .close } := ⟨h₂.timers, h₂.env.setStat t .close⟩
  refine Lockstep.ite (by rw [h₃.env.thread]) (fun _ => .some h₃) fun _ => ?_
  have hfree₂ : a₂.env.list.Free t := by rw [(onTimers_spec ha₂).2]; exact hfree
  exact Lockstep.bind (rtListInsertAfter_head h₃.env.rep _ hfree₂) fun _ _ _ _ hr =>
    .some ⟨h₃.timers, h₃.env.setList hr⟩

/-! ## ipc.c -/

/-- `rt_sem_take` runs in lockstep wherever putting the thread on the waiting list
does. -/
theorem rtSemTake_rel_of_insert [Fintype τ] [Fintype υ] (h : KernelRel k a) (s : σ)
    (time : BitVec 32)
    (hins : TakeBlocks a s time → ∀ t ∈ a.env.rtCurrentThread, ∀ {e k₁ a₁}, KernelRel k₁ a₁ →
      Abs.threadSuspend { a with env := a.env.setError t RT_EOK } t = some (e, a₁) →
      Option.Rel SchedRel (rtIpcListInsert k₁.env s t) (Abs.ipcInsert a₁.env s t)) :
    Option.Rel (fun x y => x.1 = y.1 ∧ KernelRel x.2 y.2) (rtSemTake k s time)
      (Abs.semTake a s time) := by
  unfold rtSemTake Abs.semTake
  rw [h.env.sem, h.env.current]
  refine Lockstep.ite Iff.rfl (fun _ => .some ⟨rfl, h.timers, h.env.setSem s _⟩) fun hpos =>
    Lockstep.ite Iff.rfl (fun _ => .some ⟨rfl, h⟩) fun htime => ?_
  refine Lockstep.bind (Lockstep.refl _) fun t _ ht _ heq => ?_
  subst heq
  -- from here on both wait, step by step
  have hblocks : TakeBlocks a s time := ⟨by bv_omega, htime⟩
  unfold Abs.takeWait
  rw [bind_assoc]
  have h₁ : KernelRel { k with env := k.env.setError t RT_EOK }
      { a with env := a.env.setError t RT_EOK } := ⟨h.timers, h.env.setError t RT_EOK⟩
  have hsuspend : Option.Rel KernelRel
      (rtIpcListSuspend { k with env := k.env.setError t RT_EOK } s t)
      (Abs.ipcSuspend { a with env := a.env.setError t RT_EOK } s t) :=
    Lockstep.bind (rtThreadSuspend_rel h₁ t) fun _ y _ hy h₂ =>
      onSched_rel h₂.2 (hins hblocks t ht h₂.2 hy)
  refine Lockstep.bind hsuspend fun _ _ _ _ h₂ => ?_
  rw [bind_assoc]
  refine Lockstep.bind (Lockstep.ite Iff.rfl (fun _ => rtThreadTimerStart_rel h₂ t time)
    fun _ => .some h₂) fun _ _ _ _ h₃ => ?_
  exact Lockstep.bind (onSched_rel h₃ (rtSchedule_rel h₃.env)) fun _ _ _ _ h₄ =>
    .some ⟨rfl, h₄⟩

theorem rtSemTake_rel [Fintype τ] [Fintype υ] (h : KernelRel k a) (hw : KernelWf a) (s : σ)
    (time : BitVec 32) (hmay : TakeBlocks a s time → Abs.MayBlock a) :
    Option.Rel (fun x y => x.1 = y.1 ∧ KernelRel x.2 y.2) (rtSemTake k s time)
      (Abs.semTake a s time) := by
  refine rtSemTake_rel_of_insert h s time fun hblocks t ht _ _ _ h₁ hsusp => ?_
  obtain ⟨t', hcur, hmay⟩ := hmay hblocks
  obtain rfl : t = t' := Option.some.inj (Eq.symm ht |>.trans hcur)
  refine rtIpcListInsert_rel h₁.env s ((hw.setError t RT_EOK).suspendCurrent ?_ hsusp).2.2
  simp only [SchedSys.setError, SchedSys.setThread_thread, Function.update_self]
  exact hmay

/-! ## What a run may do, seen on both levels -/

theorem callAllowed_iff (h : KernelRel k a) (c : Call τ σ υ) :
    c.Allowed k ↔ Abs.CallAllowed a c := by
  cases c with
  | threadInit t priority tick => simp only [Call.Allowed, Abs.CallAllowed, h.env.thread]
  | semInit s value flag => exact next_head_iff h.env.rep (.suspend s)
  | timerInit u time flag =>
    refine (next_item_iff h.timers.rep (.inr u)).trans ⟨fun hf v hv => ?_, fun hf hd hv => ?_⟩
    · rintro rfl; exact hf .rtTimerList hv
    · cases hd; exact hf _ hv rfl
  | _ => exact Iff.rfl

theorem mayBlock_iff (h : KernelRel k a) (hw : SchedWf a.env) :
    MayBlock k ↔ Abs.MayBlock a := by
  refine exists_congr fun t => and_congr (by rw [h.env.current]) ?_
  rw [h.env.thread]
  refine or_congr Iff.rfl (and_congr_right fun hst => ?_)
  have hlive := hw.live t (by simp [hst])
  rw [← next_item_iff h.env.rep]
  simp only [rtListIsempty, decide_eq_true_eq]
  refine ⟨.inr, fun hnext => hnext.resolve_left fun hnone => ?_⟩
  have hfree := (next_item_iff h.env.rep t).mp hnext
  rw [(h.env.rep.free t hlive hfree).1] at hnone
  cases hnone

theorem takeBlocks_iff (h : KernelRel k a) (s : σ) (time : BitVec 32) :
    TakeBlocks k s time ↔ TakeBlocks a s time := by
  rw [TakeBlocks, TakeBlocks, h.env.sem]

/-! ## Calls, callbacks and ticks -/

theorem execCall_rel [Fintype τ] [Fintype υ] (h : KernelRel k a) (hw : KernelWf a)
    {c : Call τ σ υ} (hc : Abs.CallAllowed a c) :
    Option.Rel KernelRel (c.exec k) (Abs.execCall a c) := by
  unfold Call.exec Abs.execCall
  cases c with
  | threadInit t priority tick =>
    refine .some (rtThreadInit_rel h (hw.sched.free_of_stat hc.1) ?_ priority tick)
    exact fun hd hmem => by cases hd; exact hw.timer_free hc.1 hmem
  | threadStartup t => exact onSched_rel h (rtThreadStartup_rel h.env t)
  | threadResume t => exact onSched_rel h (Lockstep.map_snd (rtThreadResume_rel h.env t))
  | threadSuspend t => exact Lockstep.map_snd (rtThreadSuspend_rel h t)
  | threadYield => exact onSched_rel h (rtThreadYield_rel h.env fun t => hw.sched.mem_ready)
  | threadDetach t => exact rtThreadDetach_rel h hw.sched t
  | semInit s value flag => exact .some ⟨h.timers, rtSemInit_rel h.env hc value flag⟩
  | semTrytake s =>
    exact Lockstep.map_snd (rtSemTake_rel h hw s 0 fun hb => absurd rfl hb.2)
  | semRelease s => exact onSched_rel h (rtSemRelease_rel h.env s)
  | semControl s cmd arg =>
    exact onSched_rel h (Lockstep.map_snd (rtSemControl_rel h.env s cmd arg))
  | semDetach s => exact onSched_rel h (rtSemDetach_rel h.env s)
  | enterCritical => exact .some ⟨h.timers, h.env.enterCritical⟩
  | exitCritical => exact onSched_rel h (rtExitCritical_rel h.env)
  | schedule => exact onSched_rel h (rtSchedule_rel h.env)
  | timerInit u time flag =>
    refine .some ⟨rtTimerInit_rel h.timers (fun hd hmem => ?_) _ _ _, h.env⟩
    cases hd
    exact hc _ hmem rfl
  | timerStart u => exact onTimers_rel h (rtTimerStart_rel h.timers _)
  | timerStop u => exact onTimers_rel h (Lockstep.map_snd (rtTimerStop_rel h.timers _))
  | timerControl u cmd => exact .some ⟨rtTimerControl_rel h.timers _ _, h.env⟩
  | timerDetach u => exact onTimers_rel h (rtTimerRemove_rel h.timers _)

theorem runCalls_rel [Fintype τ] [Fintype υ] (cs : List (Call τ σ υ)) :
    ∀ {k : RtKernel τ σ υ} {a : SeqKernel τ σ υ}, KernelRel k a → KernelWf a →
      Option.Rel KernelRel (runCalls cs k) (Abs.runCalls cs a) := by
  induction cs with
  | nil => exact fun h _ => .some h
  | cons c cs ih =>
    intro k a h hw
    refine Lockstep.bind (Lockstep.ite (callAllowed_iff h c) (fun hc => execCall_rel h hw hc)
      fun _ => .none) fun k₁ a₁ _ ha₁ h₁ => ih h₁ ?_
    split at ha₁
    · rename_i hc
      exact hw.execCall hc ha₁
    · cases ha₁

theorem kernelCallback_rel [Fintype τ] [Fintype υ] (h : KernelRel k a) (hw : KernelWf a)
    (x : τ ⊕ υ) (f : TimerCallback τ) (c : List (Call τ σ υ)) :
    Option.Rel KernelRel (kernelCallback x f c k) (Abs.callback x f c a) := by
  unfold kernelCallback Abs.callback
  cases f with
  | rtThreadTimeout t => exact onSched_rel h (rtThreadTimeout_rel h.env t)
  | user => exact runCalls_rel c h hw

theorem kernelFire_rel [Fintype τ] [Fintype υ] (h : KernelRel k a) (hw : KernelWf a)
    (c : List (Call τ σ υ)) (x : τ ⊕ υ) :
    Option.Rel KernelRel (rtTimerFire kernelCallback c x k)
      (Abs.timerFire Abs.callback c x a) := by
  refine rtTimerFire_rel h c x fun f k₁ m hrem h₁ => ?_
  obtain ⟨-, rfl⟩ := Abs.timerRemove_eq_some hrem
  exact kernelCallback_rel h₁ (hw.eraseTimer x) x f c

/-- The tick and the slice, before the timers. -/
theorem tickStart_rel (h : KernelRel k a) (hw : SchedWf a.env) :
    Option.Rel KernelRel
      (Sys.onSched { k with timers := { k.timers with rtTick := k.timers.rtTick + 1 } } rtTickSlice)
      (Abs.tickStart a) := by
  have h₀ : KernelRel { k with timers := { k.timers with rtTick := k.timers.rtTick + 1 } }
      { a with timers := { a.timers with rtTick := a.timers.rtTick + 1 } } := by
    rw [h.timers.rtTick]
    exact ⟨h.timers.setTick _, h.env⟩
  exact onSched_rel h₀ (rtTickSlice_rel h₀.env fun t => hw.mem_ready)

theorem kernelCheck_rel [Fintype τ] [Fintype υ] (h : KernelRel k a) (hw : KernelWf a)
    (script : List (List (Call τ σ υ))) :
    Option.Rel KernelRel (rtTimerCheck kernelCallback script k)
      (Abs.timerCheck Abs.callback script a) := by
  refine rtTimerCheck_rel KernelWf (fun a x f c k₁ m hw hx hrem h₁ => ?_)
    (fun a x c a' hw hx hf => hw.fire hx hf) script k a hw h
  obtain ⟨-, rfl⟩ := Abs.timerRemove_eq_some hrem
  exact kernelCallback_rel h₁ (hw.eraseTimer x) x f c

theorem kernelTick_rel [Fintype τ] [Fintype υ] (h : KernelRel k a) (hw : KernelWf a)
    (script : List (List (Call τ σ υ))) :
    Option.Rel KernelRel (kernelTick script k) (Abs.tick script a) :=
  Lockstep.bind (tickStart_rel h hw.sched) fun _ _ _ ha₁ h₁ =>
    kernelCheck_rel h₁ (hw.tickStart ha₁) script

/-- **One operation in lockstep.** -/
theorem exec_rel [Fintype τ] [Fintype υ] (h : KernelRel k a) (hw : KernelWf a) {op : Op τ σ υ}
    (hop : Abs.Allowed a op) : Option.Rel KernelRel (op.exec k) (Abs.exec a op) := by
  unfold Op.exec Abs.exec
  cases op with
  | call c => exact execCall_rel h hw hop
  | threadSleep tick => exact rtThreadSleep_rel h tick
  | semTake s time => exact Lockstep.map_snd (rtSemTake_rel h hw s time hop)
  | tickIncrease script => exact kernelTick_rel h hw script
  | schedulerStart => exact onSched_rel h (rtSystemSchedulerStart_rel h.env)

theorem allowed_iff (h : KernelRel k a) (hw : SchedWf a.env) (op : Op τ σ υ) :
    op.Allowed k ↔ Abs.Allowed a op := by
  cases op with
  | call c => exact callAllowed_iff h c
  | threadSleep tick => exact mayBlock_iff h hw
  | semTake s time =>
    exact imp_congr (takeBlocks_iff h s time) (mayBlock_iff h hw)
  | tickIncrease script => exact Iff.rfl
  | schedulerStart => simp only [Op.Allowed, Abs.Allowed, h.env.current]

/-! ## Reachable states -/

theorem systemInit_rel : KernelRel (systemInit : RtKernel τ σ υ) Abs.systemInit where
  timers := .mk (Abs.systemInit : SeqKernel τ σ υ).timers _
    (null_rep.selfLink (.inl ⟨.rtTimerList, rfl, rfl⟩))
  env := rtSystemSchedulerInit_rel (.mk (zeroSched _) _ null_rep) fun _ => rfl

theorem boot_rel (idle : τ) :
    Option.Rel KernelRel (boot (σ := σ) (υ := υ) idle) (Abs.boot idle) := by
  have hw : KernelWf (Abs.systemInit : SeqKernel τ σ υ) := systemInit_wf
  have h := rtThreadInit_rel (systemInit_rel (τ := τ) (σ := σ) (υ := υ)) (t := idle)
    (hw.sched.free_of_stat (.inl rfl))
    (fun hd hmem => by cases hd; exact hw.timer_free (.inl rfl) hmem)
    (RT_THREAD_PRIORITY_MAX - 1) 1
  unfold boot rtThreadIdleInit Abs.boot
  exact onSched_rel h (rtThreadStartup_rel h.env idle)

/-- The states reached from initialisation by operations that a run may perform
and that meet `ok` besides. -/
def Reachable [Fintype τ] [Fintype υ] (idle : τ) (ok : RtKernel τ σ υ → Op τ σ υ → Prop)
    (k : RtKernel τ σ υ) : Prop :=
  ∃ k₀ ∈ boot idle, Run.Reach Op.exec (fun k op => op.Allowed k ∧ ok k op) k₀ k

/-- Initialisation followed by a list of operations. -/
def runFrom [Fintype τ] [Fintype υ] (idle : τ) (ok : RtKernel τ σ υ → Op τ σ υ → Prop)
    [∀ k op, Decidable (ok k op)] (ops : List (Op τ σ υ)) : Option (RtKernel τ σ υ) := do
  let k ← boot idle
  Run.exec Op.exec (fun k op => op.Allowed k ∧ ok k op) ops k

theorem reachable_of_runFrom [Fintype τ] [Fintype υ] (idle : τ)
    (ok : RtKernel τ σ υ → Op τ σ υ → Prop) [∀ k op, Decidable (ok k op)]
    (ops : List (Op τ σ υ)) (p : RtKernel τ σ υ → Bool)
    (h : (runFrom idle ok ops).map p = some true) :
    ∃ k, runFrom idle ok ops = some k ∧ Reachable idle ok k ∧ p k = true := by
  obtain ⟨k, hk, hp⟩ := Option.map_eq_some_iff.mp h
  obtain ⟨k₀, hboot, hrun⟩ := Option.bind_eq_some_iff.mp hk
  exact ⟨k, hk, ⟨k₀, hboot, Run.exec_reach hrun⟩, hp⟩

/-- What holds after initialisation and is kept by every operation on sequences
that satisfy the kernel invariant holds of every reachable state. -/
theorem Reachable.invariant [Fintype τ] [Fintype υ] {idle : τ}
    {ok : RtKernel τ σ υ → Op τ σ υ → Prop} {I : SeqKernel τ σ υ → Prop}
    (hboot : ∀ a, Abs.boot idle = some a → KernelWf a → I a)
    (hstep : ∀ k a op a', KernelRel k a → KernelWf a → I a → Abs.Allowed a op → ok k op →
      Abs.exec a op = some a' → I a')
    (hk : Reachable idle ok k) : ∃ a, KernelRel k a ∧ KernelWf a ∧ I a := by
  obtain ⟨k₀, hboot₀, hrun⟩ := hk
  refine Run.invariant (I := fun k => ∃ a, KernelRel k a ∧ KernelWf a ∧ I a)
    (fun k op k' hI hok hs => ?_) ?_ hrun
  · obtain ⟨a, h, hw, hI⟩ := hI
    have hop := (allowed_iff h hw.sched op).mp hok.1
    obtain ⟨a', ha', h'⟩ := Lockstep.exists_of_left (exec_rel h hw hop) hs
    exact ⟨a', h', hw.exec hop ha', hstep k a op a' h hw hI hop hok.2 ha'⟩
  · obtain ⟨a₀, ha₀, h₀⟩ := Lockstep.exists_of_left (boot_rel idle) hboot₀
    exact ⟨a₀, h₀, boot_wf ha₀, hboot a₀ ha₀ (boot_wf ha₀)⟩

end Refine

end SampleRtos
