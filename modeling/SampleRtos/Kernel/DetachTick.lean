import SampleRtos.Kernel.Detached

/-!
# A tick inside `rt_thread_detach`

`rt_thread_detach` takes the thread off its list in one masked section and its timer
off the timer list in another, and changes `stat` with interrupts enabled. A tick
may arrive before, between and after. Between the two sections the thread is on no
list but its timer may be running: a tick that fires it puts the thread back on its
ready list, and nothing in the rest of `rt_thread_detach` takes it off again.
-/

namespace SampleRtos

open Intrusive

section DetachTick
variable {τ σ υ : Type} [DecidableEq τ] [DecidableEq σ] [DecidableEq υ]

/-! ## The sections of `rt_thread_detach` -/

/-- `rt_schedule_remove_thread`. -/
def rtThreadDetachUnlist (k : RtKernel τ σ υ) (t : τ) : Option (RtKernel τ σ υ) :=
  k.onSched fun e => rtScheduleRemoveThread e t

/-- `rt_timer_detach`. -/
def rtThreadDetachDisarm (k : RtKernel τ σ υ) (t : τ) : Option (RtKernel τ σ υ) :=
  k.onTimers fun tm => rtTimerDetach tm (threadTimer t)

/-- `thread->stat = RT_THREAD_CLOSE`. -/
def rtThreadDetachClose (k : RtKernel τ σ υ) (t : τ) : RtKernel τ σ υ :=
  { k with env := k.env.setStat t .close }

/-- The points of `rt_thread_detach` at which interrupts are enabled: before the test
of `stat`, after it, after each of the two sections, after the change of `stat`. -/
inductive DetachPoint where
  | entry
  | checked
  | removed
  | disarmed
  | closed
  deriving DecidableEq, Repr

namespace DetachPoint

/-- What `rt_thread_detach` has done when it is at this point. On a thread that was
never started it does not get past the test. -/
def before (k : RtKernel τ σ υ) (t : τ) : DetachPoint → Option (RtKernel τ σ υ)
  | .entry => some k
  | .checked => if (k.env.thread t).stat ≠ .init then some k else none
  | .removed => if (k.env.thread t).stat ≠ .init then rtThreadDetachUnlist k t else some k
  | .disarmed => do
      let k ← (if (k.env.thread t).stat ≠ .init then rtThreadDetachUnlist k t else some k)
      rtThreadDetachDisarm k t
  | .closed => do
      let k ← (if (k.env.thread t).stat ≠ .init then rtThreadDetachUnlist k t else some k)
      let k ← rtThreadDetachDisarm k t
      return rtThreadDetachClose k t

/-- What it has yet to do. -/
def after (k : RtKernel τ σ υ) (t : τ) : DetachPoint → Option (RtKernel τ σ υ)
  | .entry => rtThreadDetach k t
  | .checked => do
      let k ← rtThreadDetachUnlist k t
      let k ← rtThreadDetachDisarm k t
      rtThreadDetachFinish (rtThreadDetachClose k t) t
  | .removed => do
      let k ← rtThreadDetachDisarm k t
      rtThreadDetachFinish (rtThreadDetachClose k t) t
  | .disarmed => rtThreadDetachFinish (rtThreadDetachClose k t) t
  | .closed => rtThreadDetachFinish k t

/-- Undisturbed, the two parts are `rt_thread_detach`. -/
theorem before_after (p : DetachPoint) {k : RtKernel τ σ υ} {t : τ}
    (hst : (k.env.thread t).stat ≠ .init) :
    (do
      let k ← p.before k t
      p.after k t) = rtThreadDetach k t := by
  cases p with
  | entry => rfl
  | _ =>
    simp only [before, after, rtThreadDetach, hst, ne_eq, not_false_eq_true, if_true,
      Option.bind_eq_bind, Option.bind_some, Option.bind_assoc, Option.pure_def]
    rfl

end DetachPoint

/-! ## Gone for good -/

/-- `t` is on no list, its timer is on none, and no later run makes it the current
thread unless it calls `rt_thread_startup` on it. -/
structure Gone [Fintype τ] [Fintype υ] (k : RtKernel τ σ υ) (t : τ) : Prop where
  ready : ∀ p, t ∉ k.readyList p
  waiting : ∀ s, t ∉ k.waiters s
  unarmed : ¬ k.Armed t
  stays : ∀ k', Run.Reach Op.exec (fun k op => op.Meets (fun _ c => c ≠ .threadStartup t) k) k k' →
    k'.env.rtCurrentThread ≠ some t

section Detach
variable {k k' : RtKernel τ σ υ} {a : SeqKernel τ σ υ} {t : τ}

theorem Detached.gone [Fintype τ] [Fintype υ] (h : Detached t k) : Gone k t where
  ready p := h.loose.passed.env.apart.not_mem_read _ (by simp)
  waiting s := h.loose.passed.env.apart.not_mem_read _ (by simp)
  unarmed := h.loose.passed.links.not_mem_read _ (by simp [timerHead])
  stays k' hrun := by
    have h' : Detached t k' :=
      Run.invariant (I := Detached t) (fun k op k' h hop hs => h.exec hop hs) h hrun
    exact fun hcur => h'.loose.passed.env.current t hcur rfl

/-- A thread of a reachable kernel that is on no list. -/
theorem loose_of_rel (h : KernelRel k a) (hnd : NoDefunct k)
    (hlive : a.env.list.live (.item t) = true) (hfree : a.env.list.Free t)
    (hcur : k.env.rtCurrentThread ≠ some t) :
    Loose (Answered · (.item (threadTimer t))) t k := by
  refine ⟨⟨⟨Apart.of_free h.env.rep hlive hfree, ?_⟩, hnd.callbacks, .of_rep h.timers.rep _⟩, hnd⟩
  rintro u hu heq
  exact hcur (by rw [Node.item.inj heq]; exact hu)

/-- `rt_schedule_remove_thread` takes a started thread off whatever list it is on. -/
theorem loose_unlist (h : KernelRel k a) (hnd : NoDefunct k)
    (hcur : k.env.rtCurrentThread ≠ some t) (hrun : rtThreadDetachUnlist k t = some k') :
    Loose (Answered · (.item (threadTimer t))) t k' ∧ k'.env.thread = k.env.thread := by
  obtain ⟨e, he, hret⟩ := Option.bind_eq_some_iff.mp hrun
  cases hret
  obtain ⟨l, hl, he⟩ := Option.bind_eq_some_iff.mp he
  obtain ⟨r, hr, hrep⟩ := Lockstep.exists_of_left (rtListRemove_rep h.env.rep t) hl
  obtain ⟨hlive, hr⟩ : a.env.list.live (.item t) = true ∧ a.env.list.erase t = r := by
    unfold remove at hr
    split at hr
    · exact ⟨‹_›, Option.some.inj hr⟩
    · cases hr
  subst hr
  have hapart : Apart l (.item t) (some (.item t)) :=
    Apart.of_free hrep hlive (h.env.rep.valid.erase_free t)
  have hdefunct : Apart l (.head .defunct) none := hnd.env.apart.remove (by simp) hl
  have hcur' : ∀ u ∈ k.env.rtCurrentThread, (.item t : ThreadNode τ σ) ≠ .item u := by
    intro u hu heq
    exact hcur (by rw [Node.item.inj heq]; exact hu)
  have hanswered := Answered.of_rep h.timers.rep (.item (threadTimer t))
  dsimp only at he
  split at he <;> cases he <;>
    exact ⟨⟨⟨⟨hapart, hcur'⟩, hnd.callbacks, hanswered⟩, ⟨hdefunct, by simp⟩, hnd.callbacks,
      trivial⟩, rfl⟩

/-! ## Undisturbed by the tick -/

/-- What `rt_thread_detach` does after its first section. -/
theorem Loose.removed_after {J : TimerLinks (τ ⊕ υ) → Prop}
    {place ok : Node TimerHead (τ ⊕ υ) → Prop} (hJ : Detachable (σ := σ) t J place ok)
    (h : Loose J t k) (hrun : DetachPoint.removed.after k t = some k') : Detached t k' := by
  obtain ⟨k₁, htimer, hfinish⟩ := Option.bind_eq_some_iff.mp hrun
  have hclosed := (h.disarm hJ htimer).1.close
  rw [hclosed.loose.finish hfinish]
  exact hclosed

theorem Adrift.removed_after {J : TimerLinks (τ ⊕ υ) → Prop}
    {place ok : Node TimerHead (τ ⊕ υ) → Prop} (hJ : Detachable (σ := σ) t J place ok)
    (h : Adrift J t k) (hrun : DetachPoint.removed.after k t = some k') : Detached t k' := by
  rcases h with ⟨hloose, -⟩ | hdet
  · exact hloose.removed_after hJ hrun
  · exact hdet.loose.removed_after (detachable_disarmed t) hrun

theorem Adrift.disarmed_after (h : Adrift (Disarmed t) t k)
    (hrun : DetachPoint.disarmed.after k t = some k') : Detached t k' := by
  have hloose : Loose (Disarmed t) t k := h.elim And.left Detached.loose
  rw [hloose.close.loose.finish hrun]
  exact hloose.close

/-- `rt_thread_detach` as a whole, once the tick is over. -/
theorem detached_of_rel (h : KernelRel k a) (hw : SchedWf a.env) (hnd : NoDefunct k)
    (hlive : a.env.list.live (.item t) = true) (hcur : k.env.rtCurrentThread ≠ some t)
    (hrun : rtThreadDetach k t = some k') : Detached t k' := by
  obtain ⟨k₁, hrem, hrest⟩ := Option.bind_eq_some_iff.mp hrun
  have h₁ : Loose (Answered · (.item (threadTimer t))) t k₁ := by
    split at hrem
    · exact (loose_unlist h hnd hcur hrem).1
    · rename_i hst
      cases hrem
      have hinit : (a.env.thread t).stat = .init := by
        rw [← h.env.thread]
        exact not_not.mp hst
      exact loose_of_rel h hnd hlive (hw.free_of_stat (.inl hinit)) hcur
  exact h₁.removed_after (detachable_answered t) hrest

/-! ## Fired by the tick -/

/-- `rt_thread_timeout` does not look at `stat`. -/
theorem timeout_setStat (e : SchedSys τ σ (ThreadLinks τ σ)) (t : τ) (st : ThreadStat) :
    rtThreadTimeout (e.setStat t st) t = rtThreadTimeout e t := by
  have hset : ∀ l : ThreadLinks τ σ,
      ({ (e.setStat t st).setError t (-RT_ETIMEOUT) with list := l } :
          SchedSys τ σ (ThreadLinks τ σ)).setStat t .ready =
        ({ e.setError t (-RT_ETIMEOUT) with list := l } : SchedSys τ σ _).setStat t .ready := by
    intro l
    simp [SchedSys.setStat, SchedSys.setError, SchedSys.setThread]
  have hinsert : ∀ l : ThreadLinks τ σ,
      rtScheduleInsertThread { (e.setStat t st).setError t (-RT_ETIMEOUT) with list := l } t =
        rtScheduleInsertThread { e.setError t (-RT_ETIMEOUT) with list := l } t := by
    intro l
    simp only [rtScheduleInsertThread, hset]
  simp only [rtThreadTimeout, hinsert]
  rfl

/-- Neither does the firing of a thread's timer. -/
theorem fire_setStat [Fintype τ] [Fintype υ] (cs : List (Call τ σ υ)) (st : ThreadStat)
    (hf : (k.timers.timer (threadTimer t)).timeoutFunc = some (.rtThreadTimeout t)) :
    rtTimerFire kernelCallback cs (threadTimer t) { k with env := k.env.setStat t st } =
      rtTimerFire kernelCallback cs (threadTimer t) k := by
  cases hrem : rtTimerRemove k.timers (threadTimer t) with
  | none => simp only [rtTimerFire, hrem, Option.bind_eq_bind, Option.bind_none]
  | some m =>
    have hm : (m.timer (threadTimer t)).timeoutFunc = some (.rtThreadTimeout t) := by
      obtain ⟨l, -, hret⟩ := Option.bind_eq_some_iff.mp hrem
      cases hret
      exact hf
    simp only [rtTimerFire, hrem, hm, kernelCallback, Sys.onSched, timeout_setStat,
      Option.bind_eq_bind, Option.bind_some]

/-- A ready thread stays ready through the firings of a check. -/
theorem check_ready [Fintype τ] {a a' : SeqKernel τ σ υ} (hw : KernelWf a)
    (hst : (a.env.thread t).stat = .ready) {script : List (List (Call τ σ υ))}
    (hcs : ∀ cs ∈ script, ∀ c ∈ cs, c.Avoids t)
    (hrun : Abs.timerCheck Abs.callback script a = some a') :
    (a'.env.thread t).stat = .ready :=
  (Abs.timerCheck_invariant (fun b => KernelWf b ∧ (b.env.thread t).stat = .ready) script
    (fun _ _ _ _ hc hI hx _ hf => ⟨hI.1.fire hx hf,
      fire_invariant (I := fun e => (e.thread t).stat = .ready) (C := Call.Spares t)
        (fun _ _ _ hst hwake => hwake.ready t hst)
        (fun _ _ _ hs _ hst heff => (ReadyAt.call ⟨hst, rfl⟩ hs heff).1) hI.1 hI.2 hx
        (fun d hd => (hcs _ hc d hd).spares) hf⟩)
    ⟨hw, hst⟩ hrun).1.2

/-- A tick that fires the timer of a thread on no list makes the thread ready. -/
theorem check_ready_amid [Fintype τ] [Fintype υ] (script : List (List (Call τ σ υ))) :
    ∀ {k k' : RtKernel τ σ υ} {a : SeqKernel τ σ υ},
      PassedBy (.item t) (some (.item t)) (fun _ => True) k →
      KernelRel { k with env := k.env.setStat t .suspend } a → KernelWf a →
      (∀ cs ∈ script, ∀ c ∈ cs, c.Avoids t) → threadTimer t ∈ timerCheckFires script k →
      rtTimerCheck kernelCallback script k = some k' →
      ∃ a', KernelRel k' a' ∧ KernelWf a' ∧ (a'.env.thread t).stat = .ready := by
  induction script with
  | nil => intro k k' a _ _ _ _ hfires _; simp [timerCheckFires] at hfires
  | cons c script ih =>
    intro k k' a h hk hw hcs hfires hrun
    have hcs' : ∀ cs ∈ script, ∀ c ∈ cs, c.Avoids t := fun cs hmem =>
      hcs cs (List.mem_cons_of_mem _ hmem)
    rcases rtTimerCheck_cases hrun with ⟨rfl, hnot⟩ | ⟨c', rest, x, k₁, hcons, hx, hdue, hf, hrest⟩
    · rw [timerCheckFires] at hfires
      cases hhead : k'.queue.head? with
      | none => simp [hhead] at hfires
      | some y => simp [hhead, hnot y (queue_head.mp hhead)] at hfires
    · cases hcons
      have hxa : a.timers.queue.head? = some x := by
        rw [← hk.queue]
        exact queue_head.mpr hx
      by_cases hxt : x = threadTimer t
      · -- its own timer: the callback runs as if the thread were suspended
        subst hxt
        have hlive : a.timers.timerList.live (.item (threadTimer t)) = true :=
          hw.timers.valid.item_live (List.mem_of_mem_head? hxa)
        have hfunc : (k.timers.timer (threadTimer t)).timeoutFunc = some (.rtThreadTimeout t) := by
          rw [show k.timers.timer = a.timers.timer from hk.timers.timer]
          exact (hw.timers.ok _ hlive).1
        have hf' := (fire_setStat c .suspend hfunc).trans hf
        obtain ⟨a₁, ha₁, h₁⟩ := Lockstep.exists_of_left (kernelFire_rel hk hw c _) hf'
        have hw₁ := hw.fire hxa ha₁
        obtain ⟨a', ha', h'⟩ := Lockstep.exists_of_left (kernelCheck_rel h₁ hw₁ script) hrest
        exact ⟨a', h', hw₁.check ha', check_ready hw₁ (fire_own hw timeout_ready ha₁) hcs' ha'⟩
      · -- the firing of another timer is the same whatever the record of the thread is
        have hpast := RunsPast.fire (watch_true t) (by simp) h (outside_item t)
          (fun u hu => by rwa [← Node.item.inj hu]) (fun d hd => (hcs c (by simp) d hd).misses) hf
        have hrecord := hpast.record hf
        have hf' : rtTimerFire kernelCallback c x { k with env := k.env.setStat t .suspend } =
            some { k₁ with env := k₁.env.setStat t .suspend } := by
          show _ = some (k₁.withRecord (.item t) { k₁.env.thread t with stat := .suspend })
          rw [hrecord]
          exact hpast.same { k.env.thread t with stat := .suspend }
        obtain ⟨a₁, ha₁, h₁⟩ := Lockstep.exists_of_left (kernelFire_rel hk hw c x) hf'
        rw [timerCheckFires_cons (queue_head.mpr hx) hdue hf] at hfires
        have hrest_fires : threadTimer t ∈ timerCheckFires script k₁ :=
          (List.mem_cons.mp hfires).resolve_left fun heq => hxt heq.symm
        exact ih hpast.passed h₁ (hw.fire hxa ha₁) hcs' hrest_fires hrest

theorem tick_ready_amid [Fintype τ] [Fintype υ] {script : List (List (Call τ σ υ))}
    (h : PassedBy (.item t) (some (.item t)) (fun _ => True) k)
    (hk : KernelRel { k with env := k.env.setStat t .suspend } a) (hw : KernelWf a)
    (hcs : ∀ cs ∈ script, ∀ c ∈ cs, c.Avoids t) (hfires : threadTimer t ∈ tickFires script k)
    (hrun : kernelTick script k = some k') :
    ∃ a', KernelRel k' a' ∧ KernelWf a' ∧ (a'.env.thread t).stat = .ready := by
  obtain ⟨k₁, hstart, hcheck⟩ := Option.bind_eq_some_iff.mp hrun
  have h₀ : PassedBy (.item t) (some (.item t)) (fun _ => True)
      { k with timers := { k.timers with rtTick := k.timers.rtTick + 1 } } :=
    ⟨h.env, h.callbacks, trivial⟩
  have hstart : Sys.onSched { k with timers := { k.timers with rtTick := k.timers.rtTick + 1 } }
    rtTickSlice = some k₁ := hstart
  have hpast := RunsPast.onSched h₀ hstart fun _ he =>
    PassesBy.tickSlice h₀.env (outside_item t) he
  have hrecord : k₁.env.thread t = k.env.thread t := hpast.record hstart
  have hstart' : Sys.onSched
      { timers := { k.timers with rtTick := k.timers.rtTick + 1 },
        env := k.env.setStat t .suspend } rtTickSlice =
      some { k₁ with env := k₁.env.setStat t .suspend } := by
    show _ = some (k₁.withRecord (.item t) { k₁.env.thread t with stat := .suspend })
    rw [hrecord]
    exact hpast.same { k.env.thread t with stat := .suspend }
  obtain ⟨a₁, ha₁, h₁⟩ := Lockstep.exists_of_left (tickStart_rel hk hw.sched) hstart'
  rw [tickFires, hstart, Option.elim_some] at hfires
  exact check_ready_amid script hpast.passed h₁ (hw.tickStart ha₁) hcs hfires hcheck

/-- `rt_schedule_remove_thread` does not look at `stat` either. -/
theorem removeThread_setStat {e e' : SchedSys τ σ (ThreadLinks τ σ)} (st : ThreadStat)
    (hrun : rtScheduleRemoveThread e t = some e') :
    rtScheduleRemoveThread (e.setStat t st) t = some (e'.setStat t st) := by
  obtain ⟨l, hl, hrun⟩ := Option.bind_eq_some_iff.mp hrun
  have hprio : ((e.setStat t st).thread t).currentPriority = (e.thread t).currentPriority := by
    simp [SchedSys.setStat, SchedSys.setThread]
  have hclear : ({ e.setStat t st with list := l } : SchedSys τ σ _).clearGroupBit t =
      (({ e with list := l } : SchedSys τ σ _).clearGroupBit t).setStat t st := by
    simp [SchedSys.setStat, SchedSys.setThread, SchedSys.clearGroupBit]
  rw [rtScheduleRemoveThread, show (e.setStat t st).list = e.list from rfl, hl]
  dsimp only [Option.bind_eq_bind, Option.bind_some] at hrun ⊢
  rw [hprio]
  split at hrun <;> rename_i hempty <;> cases hrun
  · rw [if_pos hempty, hclear]
    rfl
  · rw [if_neg hempty]
    rfl

/-- After the first section a started thread is as a suspended one on no list, but for
its `stat`. -/
theorem unlist_suspended (h : KernelRel k a) (hw : KernelWf a) (hact : (a.env.thread t).Active)
    (hrun : rtThreadDetachUnlist k t = some k') :
    ∃ a', KernelRel { k' with env := k'.env.setStat t .suspend } a' ∧ KernelWf a' := by
  obtain ⟨e, he, hret⟩ := Option.bind_eq_some_iff.mp hrun
  cases hret
  obtain ⟨e', hrem, hrel⟩ := Lockstep.exists_of_left
    (rtScheduleRemoveThread_rel (h.env.setStat t .suspend) t) (removeThread_setStat .suspend he)
  obtain ⟨hlive, rfl⟩ := removeThread_spec (a := a.env.setStat t .suspend) hw.sched.head_live
    (by simpa [SchedSys.setStat, SchedSys.setThread] using hw.sched.prio_lt t) hrem
  have hunlist : (a.env.setStat t .suspend).unlist t ((a.env.setStat t .suspend).thread t) =
      a.env.unlist t (a.env.thread t).suspended := by
    rw [SchedSys.setStat, unlist_setThread]
    simp [RtThread.suspended, SchedSys.setThread]
  rw [hunlist] at hrel
  refine ⟨{ a with env := a.env.unlist t (a.env.thread t).suspended }, ⟨h.timers, hrel⟩, ?_⟩
  refine hw.of_env (hw.sched.unlist hlive (by simp [RtThread.suspended]) rfl rfl rfl
    (.inl (hw.sched.mask_eq hact))) (fun u hu => ?_) fun n hn => hn
  by_cases hut : u = t
  · subst hut
    exact .inr (by simp [RtThread.suspended])
  · simpa [hut] using hu

/-! ## Detaching amid a tick -/

/-- The tick, arriving at this point, brings the thread back: by firing its timer, or by
a callback that resumes or starts it once it is on no list. -/
def DetachPoint.Revives [Fintype τ] [Fintype υ] (p : DetachPoint)
    (script : List (List (Call τ σ υ))) (k : RtKernel τ σ υ) (t : τ) : Prop :=
  p = .removed ∧ threadTimer t ∈ tickFires script k ∨
    (p = .removed ∨ p = .disarmed ∨ p = .closed) ∧
      ¬ tickMeets (fun k c => ¬ c.Brings t k) script k

section
omit [DecidableEq τ] [DecidableEq σ] [DecidableEq υ]

theorem Call.Avoids.not_brings {c : Call τ σ υ} (h : c.Avoids t) (k : RtKernel τ σ υ) :
    ¬ c.Brings t k := by
  cases c with
  | threadStartup u => exact h
  | threadResume u => exact fun hbrings => h hbrings.1
  | _ => exact not_false

end

/-- The tick before the first section: the thread is detached as at any other time. -/
theorem detached_after_start [Fintype τ] [Fintype υ] (h : KernelRel k a) (hw : KernelWf a)
    (hnd : NoDefunct k) (hact : (a.env.thread t).Active) {script : List (List (Call τ σ υ))}
    (htick : kernelTick script k = some k') (hcur : k'.env.rtCurrentThread ≠ some t)
    {k'' : RtKernel τ σ υ} {p : DetachPoint} (hp : p = .entry ∨ p = .checked)
    (hafter : p.after k' t = some k'') : Detached t k'' := by
  obtain ⟨a', ha', h'⟩ := Lockstep.exists_of_left (kernelTick_rel h hw script) htick
  have hnd' : NoDefunct k' := hnd.tick htick
  rcases hp with rfl | rfl
  · have hlive : a.env.list.live (.item t) = true :=
      hw.sched.live t (by rcases hact with hst | hst <;> simp [hst])
    exact detached_of_rel h' (hw.tick ha').sched hnd' (tick_live hw hlive ha') hcur hafter
  · obtain ⟨k₁, hrem, hrest⟩ := Option.bind_eq_some_iff.mp hafter
    exact (loose_unlist h' hnd' hcur hrem).1.removed_after (detachable_answered t) hrest

/-- The tick after the first section, bringing nothing back. -/
theorem Adrift.tick_spared [Fintype τ] [Fintype υ] {J : TimerLinks (τ ⊕ υ) → Prop}
    {place ok : Node TimerHead (τ ⊕ υ) → Prop} (hJ : Detachable (σ := σ) t J place ok)
    (h : Adrift J t k) {script : List (List (Call τ σ υ))}
    (hcalls : tickMeets (fun k c => ¬ c.Brings t k) script k)
    (hown : (∀ m, J m → Disarmed t m) ∨ threadTimer t ∉ tickFires script k)
    (hrun : kernelTick script k = some k') : Adrift J t k' :=
  h.tick hJ (fun h hc hallowed hrun => h.call hJ hc hallowed hrun) hcalls hown hrun

/-- The tick between the two sections, firing the timer of the thread. -/
theorem ready_amid_tick [Fintype τ] [Fintype υ] (h : KernelRel k a) (hw : KernelWf a)
    (hnd : NoDefunct k) (hact : (a.env.thread t).Active) (hcur : k.env.rtCurrentThread ≠ some t)
    {k₁ k₂ k₃ : RtKernel τ σ υ} {script : List (List (Call τ σ υ))}
    (hbefore : rtThreadDetachUnlist k t = some k₁) (htick : kernelTick script k₁ = some k₂)
    (hafter : DetachPoint.removed.after k₂ t = some k₃)
    (hcs : ∀ cs ∈ script, ∀ c ∈ cs, c.Avoids t) (hfires : threadTimer t ∈ tickFires script k₁) :
    ∃ p, t ∈ k₃.readyList p := by
  have hloose := (loose_unlist h hnd hcur hbefore).1
  obtain ⟨a₁, h₁, hw₁⟩ := unlist_suspended h hw hact hbefore
  have hpassed := hloose.passed
  obtain ⟨a₂, h₂, hw₂, hst⟩ := tick_ready_amid ⟨hpassed.env, hpassed.callbacks, trivial⟩ h₁ hw₁
    hcs hfires htick
  have hmem : t ∈ k₂.readyList (a₂.env.thread t).currentPriority := by
    rw [h₂.readyList]
    exact hw₂.sched.mem_ready hst
  have hnd₂ : NoDefunct k₂ := hloose.defunct.tick htick
  -- the rest touches no list of threads
  obtain ⟨k', hdis, hfinish⟩ := Option.bind_eq_some_iff.mp hafter
  obtain ⟨m, -, hret⟩ := Option.bind_eq_some_iff.mp hdis
  cases hret
  unfold rtThreadDetachFinish at hfinish
  split at hfinish
  · cases hfinish
    exact ⟨_, hmem⟩
  · obtain ⟨l, hins, -⟩ := Option.bind_eq_some_iff.mp hfinish
    cases hnd₂.env.apart.insertAfter_null.symm.trans hins

/-- Up to its first masked section `rt_thread_detach` has only taken the thread off. -/
theorem loose_of_unlist {a : SeqKernel τ σ υ} {k' : RtKernel τ σ υ} (h : KernelRel k a)
    (hnd : NoDefunct k) (hact : (k.env.thread t).Active) (hcur : k.env.rtCurrentThread ≠ some t)
    (hrem : rtThreadDetachUnlist k t = some k') :
    Loose (Answered · (.item (threadTimer t))) t k' ∧ (k'.env.thread t).Active := by
  obtain ⟨hloose, hthread⟩ := loose_unlist h hnd hcur hrem
  exact ⟨hloose, by rw [hthread]; exact hact⟩

/-- A tick that does not bring the thread back leaves `rt_thread_detach` to finish its work. -/
theorem DetachPoint.gone_of_spared [Fintype τ] [Fintype υ] {a : SeqKernel τ σ υ}
    (h : KernelRel k a) (hw : KernelWf a) (hnd : NoDefunct k) (hact : (k.env.thread t).Active)
    (hcur : k.env.rtCurrentThread ≠ some t) {p : DetachPoint} {k₁ k₂ k₃ : RtKernel τ σ υ}
    {script : List (List (Call τ σ υ))} (hbefore : p.before k t = some k₁)
    (htick : kernelTick script k₁ = some k₂)
    (hgoes : p = .entry ∨ p = .checked → k₂.env.rtCurrentThread ≠ some t)
    (hafter : p.after k₂ t = some k₃) (hspared : ¬ p.Revives script k₁ t) : Gone k₃ t := by
  rw [DetachPoint.Revives, not_or, not_and, not_and, not_not] at hspared
  obtain ⟨hown, hcalls⟩ := hspared
  have hact' : (a.env.thread t).Active := by rw [← h.env.thread]; exact hact
  have hst : (k.env.thread t).stat ≠ .init := by rcases hact with hst | hst <;> simp [hst]
  cases p with
  | entry =>
    cases hbefore
    exact (detached_after_start h hw hnd hact' htick (hgoes (.inl rfl)) (.inl rfl) hafter).gone
  | checked =>
    rw [DetachPoint.before, if_pos hst] at hbefore
    cases hbefore
    exact (detached_after_start h hw hnd hact' htick (hgoes (.inr rfl)) (.inr rfl) hafter).gone
  | removed =>
    -- its timer is still linked: this tick must not fire it
    rw [DetachPoint.before, if_pos hst] at hbefore
    have hafter_tick := Adrift.tick_spared (detachable_answered t)
      (.inl (loose_of_unlist h hnd hact hcur hbefore)) (hcalls (.inl rfl)) (.inr (hown rfl)) htick
    exact (hafter_tick.removed_after (detachable_answered t) hafter).gone
  | disarmed =>
    rw [DetachPoint.before, if_pos hst] at hbefore
    obtain ⟨k', hrem, hdis⟩ := Option.bind_eq_some_iff.mp hbefore
    obtain ⟨hloose, hact₁⟩ := loose_of_unlist h hnd hact hcur hrem
    obtain ⟨hloose₁, henv⟩ := hloose.disarm (detachable_answered t) hdis
    have hafter_tick := Adrift.tick_spared (detachable_disarmed t)
      (.inl ⟨hloose₁, by rw [henv]; exact hact₁⟩) (hcalls (.inr (.inl rfl)))
      (.inl fun _ hm => hm) htick
    exact (hafter_tick.disarmed_after hafter).gone
  | closed =>
    rw [DetachPoint.before, if_pos hst] at hbefore
    obtain ⟨k', hrem, hbefore⟩ := Option.bind_eq_some_iff.mp hbefore
    obtain ⟨k'', hdis, hret⟩ := Option.bind_eq_some_iff.mp hbefore
    cases hret
    obtain ⟨hloose, -⟩ := loose_of_unlist h hnd hact hcur hrem
    have hclosed := (hloose.disarm (detachable_answered t) hdis).1.close
    have hafter_tick := adrift_false.mp (Adrift.tick_spared (detachable_false t)
      (adrift_false.mpr hclosed) (hcalls (.inr (.inr rfl))) (.inl fun _ => False.elim) htick)
    rw [hafter_tick.loose.finish hafter]
    exact hafter_tick.gone

/-- **`rt_thread_detach` amid a tick.** Wherever the tick arrives, the thread is gone for
good when `rt_thread_detach` has returned, unless the tick brings it back; and if no
callback is about the thread, that is so exactly when the tick arrives between the two
sections and fires the timer of the thread. At the first two points the tick must not
have made the thread the current one. -/
theorem detach_amid_tick [Fintype τ] [Fintype υ] {idle : τ}
    {ok : RtKernel τ σ υ → Op τ σ υ → Prop} (hk : Reachable idle ok k)
    (hact : (k.env.thread t).Active) (hcur : k.env.rtCurrentThread ≠ some t) (p : DetachPoint)
    {k₁ k₂ k₃ : RtKernel τ σ υ} {script : List (List (Call τ σ υ))}
    (hbefore : p.before k t = some k₁) (htick : kernelTick script k₁ = some k₂)
    (hgoes : p = .entry ∨ p = .checked → k₂.env.rtCurrentThread ≠ some t)
    (hafter : p.after k₂ t = some k₃) :
    (¬ p.Revives script k₁ t → Gone k₃ t) ∧
      ((∀ cs ∈ script, ∀ c ∈ cs, c.Avoids t) →
        (Gone k₃ t ↔ ¬ (p = .removed ∧ threadTimer t ∈ tickFires script k₁))) := by
  have hnd : NoDefunct k := hk.defunct.noDefunct
  obtain ⟨a, h, hw, -⟩ := hk.invariant (I := fun _ => True) (fun _ _ _ => trivial)
    fun _ _ _ _ _ _ _ _ _ _ => trivial
  have hact' : (a.env.thread t).Active := by rw [← h.env.thread]; exact hact
  have hst : (k.env.thread t).stat ≠ .init := by rcases hact with hst | hst <;> simp [hst]
  have hgone : ¬ p.Revives script k₁ t → Gone k₃ t :=
    DetachPoint.gone_of_spared h hw hnd hact hcur hbefore htick hgoes hafter
  refine ⟨hgone, fun hcs => ⟨?_, fun hnot => hgone ?_⟩⟩
  · -- the timer's callback inserts the thread that `rt_thread_detach` has just taken off
    rintro hg ⟨rfl, hfires⟩
    rw [DetachPoint.before, if_pos hst] at hbefore
    obtain ⟨q, hmem⟩ := ready_amid_tick h hw hnd hact' hcur hbefore htick hafter hcs hfires
    exact hg.ready q hmem
  · rintro (hfires | ⟨-, hcalls⟩)
    · exact hnot hfires
    · exact hcalls (tickMeets_of_forall fun cs hmem c hc k => (hcs cs hmem c hc).not_brings k)

end Detach

end DetachTick

/-- Threads 1 and 2 sleep, for one tick and for `n`; a tick wakes thread 1. -/
def sleeperDetached (n : Tick) : List (Op (Fin 3) (Fin 1) Empty) :=
  [.call (.threadInit 1 3 10), .call (.threadInit 2 5 10), .call (.threadStartup 1),
    .call (.threadStartup 2), .schedulerStart, .threadSleep 1, .threadSleep n,
    .tickIncrease [[]]]

/-- Thread 1 detaches thread 2, whose timer has a long way to go. -/
theorem detach_amid_other_tick : ∃ k, runFrom 0 (fun _ _ => True) (sleeperDetached 9) = some k ∧
    ∃ k₁ k₂ k₃, DetachPoint.removed.before k 2 = some k₁ ∧ kernelTick [] k₁ = some k₂ ∧
      DetachPoint.removed.after k₂ 2 = some k₃ ∧ Gone k₃ 2 := by
  obtain ⟨k, hk, hreach, hp⟩ := reachable_of_runFrom 0 (fun _ _ => True) (sleeperDetached 9)
    (fun k => decide ((k.env.thread 2).stat = .suspend) &&
      decide (k.env.rtCurrentThread ≠ some 2) &&
      (DetachPoint.removed.before k 2).any fun k₁ : RtKernel (Fin 3) (Fin 1) Empty =>
        decide (tickFires [] k₁ = []) && (kernelTick [] k₁).any fun k₂ =>
          (DetachPoint.removed.after k₂ 2).isSome)
    (by decide +kernel)
  simp only [Bool.and_eq_true, decide_eq_true_eq, Option.any_eq_true, Option.isSome_iff_exists]
    at hp
  obtain ⟨⟨hst, hcur⟩, k₁, hk₁, hfires, k₂, hk₂, k₃, hk₃⟩ := hp
  refine ⟨k, hk, k₁, k₂, k₃, hk₁, hk₂, hk₃, ?_⟩
  exact ((detach_amid_tick hreach (.inr hst) hcur .removed hk₁ hk₂ (by simp) hk₃).2
    (by simp)).mpr (by simp [hfires])

/-- It was about to wake up instead: it ends up closed and on a ready list, and runs as
soon as thread 1 sleeps. -/
theorem detach_amid_own_tick :
    ¬ ∀ k : RtKernel (Fin 3) (Fin 1) Empty, Reachable 0 (fun _ _ => True) k →
      ∀ t, (k.env.thread t).Active → k.env.rtCurrentThread ≠ some t →
        ∀ (p : DetachPoint) script k₁ k₂ k₃, p.before k t = some k₁ →
          kernelTick script k₁ = some k₂ → k₂.env.rtCurrentThread ≠ some t →
          p.after k₂ t = some k₃ → Gone k₃ t := by
  intro hclaim
  obtain ⟨k, -, hreach, hp⟩ := reachable_of_runFrom 0 (fun _ _ => True) (sleeperDetached 2)
    (fun k => decide ((k.env.thread 2).stat = .suspend) &&
      decide (k.env.rtCurrentThread ≠ some 2) &&
      (DetachPoint.removed.before k 2).any fun k₁ : RtKernel (Fin 3) (Fin 1) Empty =>
        (kernelTick [[]] k₁).any fun k₂ : RtKernel (Fin 3) (Fin 1) Empty =>
          decide (k₂.env.rtCurrentThread ≠ some 2) &&
          (DetachPoint.removed.after k₂ 2).any fun k₃ =>
            (Op.exec k₃ (.threadSleep 5)).any fun k₄ : RtKernel (Fin 3) (Fin 1) Empty =>
              decide (k₄.env.rtCurrentThread = some 2))
    (by decide +kernel)
  simp only [Bool.and_eq_true, decide_eq_true_eq, Option.any_eq_true] at hp
  obtain ⟨⟨hst, hcur⟩, k₁, hk₁, k₂, hk₂, hcur₂, k₃, hk₃, k₄, hk₄, hruns⟩ := hp
  have hgone := hclaim k hreach 2 (.inr hst) hcur .removed [[]] k₁ k₂ k₃ hk₁ hk₂ hcur₂ hk₃
  exact hgone.stays k₄ (Run.Reach.snoc (o := .threadSleep 5) .refl trivial hk₄) hruns

end SampleRtos
