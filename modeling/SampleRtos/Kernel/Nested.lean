import SampleRtos.Kernel.ReadyTable

/-!
# Blocking under the scheduler lock

Under the lock `rt_schedule` does not switch, so a thread that has just been
suspended executes on and may block again. A second `rt_thread_sleep` finds it
not ready and leaves the lists alone. A second `rt_sem_take` that has to wait
goes through `rt_ipc_list_suspend`, which links the node whatever
`rt_thread_suspend` returned.
-/

namespace SampleRtos

open Intrusive

section Nested
variable {τ σ υ : Type} [DecidableEq τ] [DecidableEq σ] [DecidableEq υ]

/-! ## Runs in which a blocked thread executes on -/

/-- The current thread has been started and not detached. -/
def CallerActive (k : RtKernel τ σ υ) : Prop :=
  ∃ t ∈ k.env.rtCurrentThread, (k.env.thread t).Active

instance (k : RtKernel τ σ υ) : Decidable (CallerActive k) :=
  inferInstanceAs (Decidable (∃ t ∈ k.env.rtCurrentThread, _ ∨ _))

/-- `Op.Allowed`, except that a current thread may block however it is listed. -/
def Op.AllowedLocked (k : RtKernel τ σ υ) : Op τ σ υ → Prop
  | .call c => c.Allowed k
  | .threadSleep _ => CallerActive k
  | .semTake s time => TakeBlocks k s time → CallerActive k
  | .tickIncrease _ => True
  | .schedulerStart => k.env.rtCurrentThread = none

instance (k : RtKernel τ σ υ) (op : Op τ σ υ) : Decidable (op.AllowedLocked k) := by
  rcases op <;> dsimp only [Op.AllowedLocked] <;> infer_instance

/-- The states reached from initialisation by such operations that meet `ok`
besides. -/
def ReachableLocked [Fintype τ] [Fintype υ] (idle : τ) (ok : RtKernel τ σ υ → Op τ σ υ → Prop)
    (k : RtKernel τ σ υ) : Prop :=
  ∃ k₀ ∈ boot idle, Run.Reach Op.exec (fun k op => op.AllowedLocked k ∧ ok k op) k₀ k

/-- Initialisation followed by a list of such operations. -/
def runLocked [Fintype τ] [Fintype υ] (idle : τ) (ok : RtKernel τ σ υ → Op τ σ υ → Prop)
    [∀ k op, Decidable (ok k op)] (ops : List (Op τ σ υ)) : Option (RtKernel τ σ υ) := do
  let k ← boot idle
  Run.exec Op.exec (fun k op => op.AllowedLocked k ∧ ok k op) ops k

theorem reachableLocked_of_run [Fintype τ] [Fintype υ] (idle : τ)
    (ok : RtKernel τ σ υ → Op τ σ υ → Prop) [∀ k op, Decidable (ok k op)]
    (ops : List (Op τ σ υ)) (p : RtKernel τ σ υ → Bool)
    (h : (runLocked idle ok ops).map p = some true) :
    ∃ k, runLocked idle ok ops = some k ∧ ReachableLocked idle ok k ∧ p k = true := by
  obtain ⟨k, hk, hp⟩ := Option.map_eq_some_iff.mp h
  obtain ⟨k₀, hboot, hrun⟩ := Option.bind_eq_some_iff.mp hk
  exact ⟨k, hk, ⟨k₀, hboot, Run.exec_reach hrun⟩, hp⟩

/-- `rt_ipc_list_suspend` inserts under these two flags and under no other. -/
def RtSemaphore.Queues (r : RtSemaphore) : Prop :=
  r.flag = RT_IPC_FLAG_FIFO ∨ r.flag = RT_IPC_FLAG_PRIO

instance (r : RtSemaphore) : Decidable r.Queues := inferInstanceAs (Decidable (_ ∨ _))

/-- If the operation is an `rt_sem_take` that puts the current thread on a waiting
list, that thread is ready or its node is linked to nothing but itself. -/
def Op.LinksOnce (k : RtKernel τ σ υ) : Op τ σ υ → Prop
  | .semTake s time => TakeBlocks k s time → (k.env.sem s).Queues → MayBlock k
  | _ => True

instance (k : RtKernel τ σ υ) (op : Op τ σ υ) : Decidable (op.LinksOnce k) := by
  rcases op <;> dsimp only [Op.LinksOnce] <;> infer_instance

/-! ## One operation -/

section Step
variable {k : RtKernel τ σ υ} {a a' : SeqKernel τ σ υ} {s : σ} {t : τ} {time : BitVec 32}

theorem callerActive_iff (h : KernelRel k a) :
    CallerActive k ↔ ∃ t ∈ a.env.rtCurrentThread, (a.env.thread t).Active := by
  rw [CallerActive, h.env.current, h.env.thread]

/-- Under any other flag the thread joins no list. -/
theorem rtIpcListInsert_unqueued [Fintype τ] {e : SchedSys τ σ (ThreadLinks τ σ)}
    (hflag : ¬ (e.sem s).Queues) : rtIpcListInsert e s t = some e := by
  obtain ⟨hfifo, hprio⟩ := not_or.mp hflag
  simp [rtIpcListInsert, hfifo, hprio]

theorem ipcInsert_unqueued {e : SchedSys τ σ (ThreadRings τ σ)}
    (hflag : ¬ (e.sem s).Queues) : Abs.ipcInsert e s t = some e := by
  obtain ⟨hfifo, hprio⟩ := not_or.mp hflag
  simp [Abs.ipcInsert, hfifo, hprio]

section
omit [DecidableEq σ]

theorem threadSuspend_sem (hw : SchedWf a.env) {e : Int}
    (h : Abs.threadSuspend a t = some (e, a')) : a'.env.sem = a.env.sem := by
  rcases threadSuspend_spec hw h with ⟨-, -, rfl⟩ | ⟨-, -, henv, -⟩
  · rfl
  · rw [henv]
    rfl

end

/-- A take under another flag runs in lockstep however its thread is listed. -/
theorem rtSemTake_unqueued_rel [Fintype τ] [Fintype υ] (h : KernelRel k a) (hw : KernelWf a)
    (hflag : ¬ (a.env.sem s).Queues) :
    Option.Rel (fun x y => x.1 = y.1 ∧ KernelRel x.2 y.2) (rtSemTake k s time)
      (Abs.semTake a s time) := by
  refine rtSemTake_rel_of_insert h s time fun _ t _ _ k₁ a₁ h₁ hsusp => ?_
  have hsem : a₁.env.sem = a.env.sem :=
    threadSuspend_sem (a := { a with env := a.env.setError t RT_EOK })
      (hw.setError t RT_EOK).sched hsusp
  rw [rtIpcListInsert_unqueued (by rw [h₁.env.sem, hsem]; exact hflag),
    ipcInsert_unqueued (by rw [hsem]; exact hflag)]
  exact .some h₁.env

/-- A take under another flag keeps the invariant. -/
theorem KernelWf.semTake_unqueued (hw : KernelWf a) (hflag : ¬ (a.env.sem s).Queues)
    (hact : TakeBlocks a s time → ∃ t ∈ a.env.rtCurrentThread, (a.env.thread t).Active)
    {o : TakeOutcome τ} (hrun : Abs.semTake a s time = some (o, a')) : KernelWf a' := by
  rcases semTake_spec hrun with ⟨-, -, rfl⟩ | ⟨-, -, -, rfl⟩ | ⟨hblocks, t, hcur, -, hwait⟩
  · exact hw.of_env (hw.sched.congr rfl rfl rfl) (fun _ => id) fun _ => id
  · exact hw
  · obtain ⟨t', hcur', hact⟩ := hact hblocks
    obtain rfl : t = t' := Option.some.inj (hcur.symm.trans hcur')
    refine hw.takeWait_of_insert hact (fun {e a₁ e₂} hsusp hins => ?_) hwait
    have hw₀ := hw.setError t RT_EOK
    rw [ipcInsert_unqueued (by rw [threadSuspend_sem hw₀.sched hsusp]; exact hflag)] at hins
    cases hins
    exact ⟨(hw₀.threadSuspend hsusp).1.sched, rfl, rfl⟩

section
omit [DecidableEq σ]

/-- A started thread may sleep again: it is not ready, so only its timer starts. -/
theorem KernelWf.threadSleep_active (hw : KernelWf a) {tick : Tick}
    (hact : ∃ t ∈ a.env.rtCurrentThread, (a.env.thread t).Active)
    (hrun : Abs.threadSleep a tick = some a') : KernelWf a' := by
  obtain ⟨t, e, a₁, a₂, hcur, hsusp, htimer, hsched⟩ := threadSleep_spec hrun
  obtain ⟨t', hcur', hact⟩ := hact
  obtain rfl : t = t' := Option.some.inj (hcur.symm.trans hcur')
  obtain ⟨h₁, -, -⟩ := hw.threadSuspend hsusp
  obtain ⟨h₂, -⟩ := h₁.startThread (hw.suspend_active hact hsusp) htimer
  exact h₂.onSched (fun _ hs => Waking.schedule h₂.sched hs) hsched

end

/-- **One operation of such a run**, in lockstep and keeping the invariant, if it
links no node that is linked. -/
theorem execLocked_rel [Fintype τ] [Fintype υ] (h : KernelRel k a) (hw : KernelWf a)
    {op : Op τ σ υ} (hop : op.AllowedLocked k) (honce : op.LinksOnce k) {k' : RtKernel τ σ υ}
    (hrun : op.exec k = some k') :
    ∃ a', Abs.exec a op = some a' ∧ KernelRel k' a' ∧ KernelWf a' := by
  -- everything but blocking is as in other runs
  have hplain : op.Allowed k → ∃ a', Abs.exec a op = some a' ∧ KernelRel k' a' ∧ KernelWf a' := by
    intro hallowed
    have hallowed := (allowed_iff h hw.sched op).mp hallowed
    obtain ⟨a', ha', h'⟩ := Lockstep.exists_of_left (exec_rel h hw hallowed) hrun
    exact ⟨a', ha', h', hw.exec hallowed ha'⟩
  cases op with
  | call c => exact hplain hop
  | tickIncrease script => exact hplain hop
  | schedulerStart => exact hplain hop
  | threadSleep tick =>
    obtain ⟨a', ha', h'⟩ := Lockstep.exists_of_left (rtThreadSleep_rel h tick) hrun
    exact ⟨a', ha', h', hw.threadSleep_active ((callerActive_iff h).mp hop) ha'⟩
  | semTake s time =>
    by_cases hflag : (k.env.sem s).Queues
    · exact hplain fun hblocks => honce hblocks hflag
    · rw [h.env.sem] at hflag
      obtain ⟨⟨o, k₁⟩, hk₁, rfl⟩ := Option.map_eq_some_iff.mp hrun
      obtain ⟨⟨o', a'⟩, ha', -, h'⟩ :=
        Lockstep.exists_of_left (rtSemTake_unqueued_rel h hw hflag) hk₁
      refine ⟨a', by rw [Abs.exec, ha']; rfl, h', hw.semTake_unqueued hflag (fun hblocks => ?_) ha'⟩
      exact (callerActive_iff h).mp (hop ((takeBlocks_iff h s time).mpr hblocks))

end Step

/-- Every state of such a run stands for sequences in order. -/
theorem ReachableLocked.wf [Fintype τ] [Fintype υ] {idle : τ} {k : RtKernel τ σ υ}
    (hk : ReachableLocked idle (fun k op => op.LinksOnce k) k) :
    ∃ a, KernelRel k a ∧ KernelWf a := by
  obtain ⟨k₀, hboot, hrun⟩ := hk
  refine Run.invariant (I := fun k => ∃ a, KernelRel k a ∧ KernelWf a) ?_ ?_ hrun
  · intro k op k' hI hok hs
    obtain ⟨a, h, hw⟩ := hI
    obtain ⟨a', -, h'⟩ := execLocked_rel h hw hok.1 hok.2 hs
    exact ⟨a', h'⟩
  · obtain ⟨a₀, ha₀, h₀⟩ := Lockstep.exists_of_left (boot_rel idle) hboot
    exact ⟨a₀, h₀, boot_wf ha₀⟩

/-! ## One list per thread -/

/-- The ready lists and the waiting lists that have been initialised are rings in both
directions, without repetition, and no node is on two of them. -/
structure OneListEach (k : RtKernel τ σ υ) : Prop where
  ready : ∀ p < RT_THREAD_PRIORITY_MAX, ∃ ts, ThreadRing k (.ready p) ts ∧ ts.Nodup
  suspend : ∀ s, k.env.list.next (.head (.suspend s)) ≠ none →
    ∃ ts, ThreadRing k (.suspend s) ts ∧ ts.Nodup
  once : ∀ t hd hd' ts ts', ThreadRing k hd ts → ThreadRing k hd' ts' → t ∈ ts → t ∈ ts' →
    hd = hd'

theorem oneListEach_of_rel {k : RtKernel τ σ υ} {a : SeqKernel τ σ υ} (h : KernelRel k a)
    (hw : SchedWf a.env) : OneListEach k where
  ready p hp := ⟨_, threadRing_ready h hw hp, hw.valid.nodup _⟩
  suspend s hs := by
    have hlive : a.env.list.live (.head (.suspend s)) = true := by
      by_contra hdead
      exact hs (h.env.rep.null _ (by simpa using hdead)).1
    exact ⟨_, h.env.rep.ring _ hlive, hw.valid.nodup _⟩
  once t hd hd' ts ts' hring hring' ht ht' := by
    obtain ⟨-, rfl⟩ := hring.eq_seq h
    obtain ⟨-, rfl⟩ := hring'.eq_seq h
    exact hw.valid.disjoint ht ht'

/-- **One list per thread.** A thread that blocks again and again under the scheduler
lock is never on two lists, as long as no take puts a node on a waiting list that is
linked on one already. -/
theorem one_list_each [Fintype τ] [Fintype υ] {idle : τ} {k : RtKernel τ σ υ}
    (hk : ReachableLocked idle (fun k op => op.LinksOnce k) k) : OneListEach k := by
  obtain ⟨a, h, hw⟩ := hk.wf
  exact oneListEach_of_rel h hw.sched

end Nested

/-- Thread 1 holds the scheduler lock and there are two semaphores without a unit. -/
def lockedThread : List (Op (Fin 2) (Fin 2) Empty) :=
  [.call (.threadInit 1 3 10), .call (.threadStartup 1), .call (.semInit 0 0 0),
    .call (.semInit 1 0 0), .schedulerStart, .call .enterCritical]

/-- It sleeps, waits on one of them and sleeps again. -/
def sleepWaitSleep : List (Op (Fin 2) (Fin 2) Empty) :=
  lockedThread ++ [.threadSleep 5, .semTake 0 (-1), .threadSleep 3]

theorem sleeps_waits_sleeps : ∃ k,
    runLocked 0 (fun k op => op.LinksOnce k) sleepWaitSleep = some k ∧
      k.env.rtCurrentThread = some 1 ∧ OneListEach k := by
  obtain ⟨k, hk, hreach, hp⟩ := reachableLocked_of_run 0 (fun k op => op.LinksOnce k)
    sleepWaitSleep (fun k => decide (k.env.rtCurrentThread = some 1)) (by decide +kernel)
  exact ⟨k, hk, of_decide_eq_true hp, one_list_each hreach⟩

/-- It waits on both instead: the ring of the first semaphore leads to the head of the
second. -/
theorem waits_twice :
    ¬ ∀ k : RtKernel (Fin 2) (Fin 2) Empty, ReachableLocked 0 (fun _ _ => True) k →
      OneListEach k := by
  intro hclaim
  obtain ⟨k, -, hreach, hp⟩ := reachableLocked_of_run 0 (fun _ _ => True)
    (lockedThread ++ [.semTake 0 (-1), .semTake 1 (-1)])
    (fun k => decide (k.env.list.next (.head (.suspend 0)) ≠ none) &&
      decide (k.env.list.prev (.head (.suspend 0)) = some (.item 1)) &&
      decide (k.env.list.prev (.item 1) = some (.head (.suspend 1)))) (by decide +kernel)
  simp only [Bool.and_eq_true, decide_eq_true_eq] at hp
  obtain ⟨⟨hinit, hhead⟩, hitem⟩ := hp
  obtain ⟨ts, hring, -⟩ := (hclaim k hreach).suspend 0 hinit
  -- walking backward from the first head leaves its ring
  obtain ⟨q, hq, -, hqh⟩ := hring.exists_prev (n := .head (.suspend 0)) (List.mem_cons_self ..)
  obtain rfl := Option.some.inj (hhead.symm.trans hqh)
  obtain ⟨q, hmem, -, hqp⟩ := hring.exists_prev hq
  obtain rfl := Option.some.inj (hitem.symm.trans hqp)
  simp [cycle] at hmem

end SampleRtos
