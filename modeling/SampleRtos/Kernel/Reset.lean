import SampleRtos.Sched.FailAll
import SampleRtos.Kernel.Dispatch
import SampleRtos.Kernel.Observe

/-!
# Resetting a semaphore

`rt_sem_control` with `RT_IPC_CMD_RESET` wakes the waiters one after the other, each
with an error and to the end of its ready list, and then reschedules. The loop comes to
its end because every thread on a waiting list is suspended, and so every one of them is
resumed.
-/

namespace SampleRtos

open Intrusive

section Reset
variable {τ σ υ : Type} [DecidableEq τ] [DecidableEq σ] [DecidableEq υ]
  {a : SchedSys τ σ (ThreadRings τ σ)} {s : σ} {t : τ} {ts : List τ}

/-- A reset succeeds if there is a waiter or anybody ready. -/
theorem semReset_eq [Fintype τ] (hw : SchedWf a) (hhead : a.list.live (.head (.suspend s)) = true)
    (hready : a.waiters s ≠ [] ∨ ∃ u, (a.thread u).stat = .ready) (arg : BitVec 32) :
    ∃ u, Abs.semControl a s RT_IPC_CMD_RESET arg =
      some (RT_EOK, ((a.failAll (a.waiters s)).setSem s
        { a.sem s with value := arg.setWidth 16 }).switchTo u) := by
  have hlen : (a.waiters s).length < Fintype.card τ + 1 :=
    Nat.lt_succ_of_le (hw.valid.nodup _).length_le_card
  obtain ⟨hw₁, -⟩ := hw.failAll (s := s) rfl
  have hsome : ∃ u, ((a.failAll (a.waiters s)).thread u).stat = .ready := by
    by_cases hnil : a.waiters s = []
    · rw [hnil]
      exact hready.resolve_left (not_not.mpr hnil)
    · obtain ⟨t, ts, hts⟩ := List.exists_cons_of_ne_nil hnil
      refine ⟨t, ?_⟩
      have hnd : (a.waiters s).Nodup := hw.valid.nodup _
      rw [failAll_thread_of_mem hnd (by simp [hts])]
      rfl
  have hw₂ : SchedWf ((a.failAll (a.waiters s)).setSem s
      { a.sem s with value := arg.setWidth 16 }) := hw₁.congr rfl rfl rfl
  obtain ⟨u, hu⟩ := schedule_eq hw₂ hsome
  refine ⟨u, ?_⟩
  rw [Abs.semControl, if_pos rfl, ipcResumeAll_eq _ hw hhead rfl hlen]
  simp only [Option.bind_eq_bind, Option.bind_some, failAll_sem, hu]
  rfl

/-! ## The theorem -/

/-- In `k'` the waiters that `s` had in `k` have been woken with an error, each to the
end of its ready list, the value of `s` is `v`, and nothing else is changed but the
current thread and the port. -/
structure ResetTo [Fintype τ] (k : RtKernel τ σ υ) (s : σ) (v : BitVec 32)
    (k' : RtKernel τ σ υ) : Prop where
  empty : ThreadRing k' (.suspend s) []
  value : (k'.env.sem s).value.toNat = v.toNat % 2 ^ 16
  flag : (k'.env.sem s).flag = (k.env.sem s).flag
  woken : ∀ t ∈ k.waiters s,
    k'.env.thread t = { k.env.thread t with error := -RT_ERROR, stat := .ready }
  readyList : ∀ p < RT_THREAD_PRIORITY_MAX, ThreadRing k' (.ready p)
    (k.readyList p ++ (k.waiters s).filter fun t => (k.env.thread t).currentPriority = p)
  group : ∀ p < RT_THREAD_PRIORITY_MAX, k'.env.rtThreadReadyPriorityGroup.getLsbD p =
    (k.env.rtThreadReadyPriorityGroup.getLsbD p ||
      (k.waiters s).any fun t => (k.env.thread t).currentPriority = p)
  thread : ∀ t ∉ k.waiters s, k'.env.thread t = k.env.thread t
  waiters : ∀ q ≠ s, k'.waiters q = k.waiters q
  sem : ∀ q ≠ s, k'.env.sem q = k.env.sem q
  lockNest : k'.env.rtSchedulerLockNest = k.env.rtSchedulerLockNest
  timers : k'.timers = k.timers

/-- **A reset wakes everyone in order and nothing else**, in every state of a run in
which somebody waits or somebody is ready. -/
theorem reset_wakes_all [Fintype τ] [Fintype υ] {idle : τ} {k : RtKernel τ σ υ}
    (hk : Reachable idle (fun _ _ => True) k)
    (hs : k.env.list.next (.head (.suspend s)) ≠ none)
    (hready : k.waiters s ≠ [] ∨ ∃ u, (k.env.thread u).stat = .ready) (v : BitVec 32) :
    ∃ e, rtSemControl k.env s RT_IPC_CMD_RESET v = some (RT_EOK, e) ∧
      ResetTo k s v { k with env := e } := by
  obtain ⟨a, h, hw, -⟩ := hk.invariant (I := fun _ => True) (fun _ _ _ => trivial)
    fun _ _ _ _ _ _ _ _ _ _ => trivial
  have hhead : a.env.list.live (.head (.suspend s)) = true := by
    by_contra hdead
    exact hs (h.env.rep.null _ (by simpa using hdead)).1
  rw [h.waiters, h.env.thread] at hready
  -- somebody is ready once all are woken, so the last step finds a thread to run
  obtain ⟨u, hrun⟩ := semReset_eq hw.sched hhead hready v
  obtain ⟨⟨c, e⟩, he, hcode, hrel⟩ := Lockstep.exists_of_right
    (rtSemControl_rel h.env s RT_IPC_CMD_RESET v) hrun
  obtain rfl : c = RT_EOK := hcode
  have hnd : (a.env.waiters s).Nodup := hw.sched.valid.nodup _
  obtain ⟨hw₁, hnil⟩ := hw.sched.failAll (s := s) rfl
  -- the switch at the end touches none of what the fields speak of
  obtain ⟨r, hr, hthread, hsem, hwaiters, hreadyList, hgroup, hlock, hlive⟩ :
      ∃ r, SchedRel e r ∧ r.thread = (a.env.failAll (a.env.waiters s)).thread ∧
        r.sem = Function.update a.env.sem s { a.env.sem s with value := v.setWidth 16 } ∧
        r.waiters = (a.env.failAll (a.env.waiters s)).waiters ∧
        r.readyList = (a.env.failAll (a.env.waiters s)).readyList ∧
        r.rtThreadReadyPriorityGroup =
          (a.env.failAll (a.env.waiters s)).rtThreadReadyPriorityGroup ∧
        r.rtSchedulerLockNest = a.env.rtSchedulerLockNest ∧
        r.list = (a.env.failAll (a.env.waiters s)).list := by
    refine ⟨_, hrel, ?_, ?_, ?_, ?_, ?_, ?_, ?_⟩ <;> simp [SchedSys.setSem] <;> rfl
  have h' : KernelRel { k with env := e } { a with env := r } := ⟨h.timers, hr⟩
  have hw' : SchedWf r := hw₁.congr hthread hlive hgroup
  have hlists : ∀ p, r.readyList p =
      k.readyList p ++ (k.waiters s).filter fun t => (k.env.thread t).currentPriority = p := by
    intro p
    rw [hreadyList, failAll_readyList p _ hw.sched rfl, h.readyList, h.waiters, h.env.thread]
  refine ⟨e, he,
    { empty := ?_
      value := ?_
      flag := ?_
      woken := fun t ht => ?_
      readyList := fun p hp => hlists p ▸ threadRing_ready h' hw' hp
      group := fun p hp => ?_
      thread := fun t ht => ?_
      waiters := fun q hq => ?_
      sem := fun q hq => ?_
      lockNest := ?_
      timers := rfl }⟩
  · have hring := hr.rep.ring (.suspend s) (by
      rw [hlive, failAll_live]
      exact hhead)
    have hempty : r.waiters s = [] := by rw [hwaiters, hnil]
    rw [SchedSys.waiters] at hempty
    rwa [hempty] at hring
  · show (e.sem s).value.toNat = _
    rw [hr.sem, hsem]
    simp
  · show (e.sem s).flag = _
    rw [hr.sem, hsem, h.env.sem]
    simp
  · show e.thread t = _
    rw [h.waiters] at ht
    rw [hr.thread, hthread, failAll_thread_of_mem hnd ht, h.env.thread]
    rfl
  · have hbit := hw'.group p hp
    have hbit₀ := hw.sched.group p hp
    rw [hlists, h.readyList] at hbit
    show e.rtThreadReadyPriorityGroup.getLsbD p = _
    rw [hr.group, h.env.group, Bool.eq_iff_iff, hbit, Bool.or_eq_true, hbit₀, List.any_eq_true]
    -- the bit was set already if somebody was ready there
    by_cases hp' : a.env.readyList p = []
    · simp [hp', List.filter_eq_nil_iff]
    · simp [hp']
  · show e.thread t = _
    rw [h.waiters] at ht
    rw [hr.thread, hthread, failAll_thread_of_not_mem ht, h.env.thread]
  · rw [h'.waiters, h.waiters]
    show r.waiters q = _
    rw [hwaiters, failAll_waiters hq _ hw.sched rfl]
  · show e.sem q = _
    rw [hr.sem, hsem, h.env.sem]
    simp [hq]
  · show e.rtSchedulerLockNest = _
    rw [hr.lockNest, hlock, h.env.lockNest]

end Reset

/-- Two threads of one priority wait on the semaphore. -/
def bothWait : List (Op (Fin 3) (Fin 1) (Fin 1)) :=
  [.call (.threadInit 1 3 10), .call (.threadInit 2 3 10), .call (.threadStartup 1),
    .call (.threadStartup 2), .call (.semInit 0 0 RT_IPC_FLAG_FIFO), .schedulerStart,
    .semTake 0 (-1), .semTake 0 (-1)]

theorem reset_of_two :
    ∃ k e, runFrom 0 (fun _ _ => True) bothWait = some k ∧
      rtSemControl k.env 0 RT_IPC_CMD_RESET 65537 = some (RT_EOK, e) ∧
      ThreadRing { k with env := e } (.ready 3) [1, 2] ∧ (e.sem 0).value.toNat = 1 := by
  obtain ⟨k, hk, hreach, hp⟩ := reachable_of_runFrom 0 (fun _ _ => True) bothWait
    (fun k => k.env.list.next (.head (.suspend 0)) ≠ none && k.waiters 0 = [1, 2] &&
      k.readyList 3 = [] && (k.env.thread 1).currentPriority = 3 &&
      (k.env.thread 2).currentPriority = 3) (by decide +kernel)
  simp only [Bool.and_eq_true, decide_eq_true_eq] at hp
  obtain ⟨⟨⟨⟨hs, hwait⟩, hready⟩, h₁⟩, h₂⟩ := hp
  obtain ⟨e, he, hreset⟩ := reset_wakes_all hreach hs (.inl (by simp [hwait])) 65537
  refine ⟨k, e, hk, he, ?_, hreset.value⟩
  have hring := hreset.readyList 3 (by decide)
  simpa [hwait, hready, h₁, h₂] using hring

/-- With the idle thread suspended by itself nobody is ready and nobody waits: the
scheduler looks up the list of an empty bitmap. -/
theorem reset_with_none_ready :
    ¬ ∀ k : RtKernel (Fin 1) (Fin 1) Empty, Reachable 0 (fun _ _ => True) k →
      k.env.list.next (.head (.suspend 0)) ≠ none →
      ∃ e, rtSemControl k.env 0 RT_IPC_CMD_RESET 0 = some (RT_EOK, e) := by
  intro hclaim
  obtain ⟨k, -, hreach, hp⟩ := reachable_of_runFrom 0 (fun _ _ => True)
    ([.call (.semInit 0 0 RT_IPC_FLAG_FIFO), .schedulerStart, .call (.threadSuspend 0)] :
      List (Op (Fin 1) (Fin 1) Empty))
    (fun k => k.env.list.next (.head (.suspend 0)) ≠ none &&
      (rtSemControl k.env 0 RT_IPC_CMD_RESET 0).isNone) (by decide +kernel)
  simp only [Bool.and_eq_true, decide_eq_true_eq, Option.isNone_iff_eq_none] at hp
  obtain ⟨e, he⟩ := hclaim k hreach hp.1
  rw [hp.2] at he
  cases he

end SampleRtos
