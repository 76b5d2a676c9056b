import SampleRtos.Lib.Interrupt
import SampleRtos.Kernel.Guarded
import SampleRtos.Kernel.Bystander

/-!
# Ticks inside `rt_sem_detach`

The loop of `rt_ipc_list_resume_all` tests with interrupts enabled whether anybody is
left and takes the first waiter with interrupts disabled. A tick may arrive before the
test and between the test and the section. In between it may time out the last waiter:
then what the loop takes for a thread is the head of the list. And the loop does not stop the
timer of a thread it wakes, so that a later tick may still time the thread out. As long as no
tick does either, the loop meets waiters only, comes to its end, and wakes everybody the ticks
have not timed out before.
-/

namespace SampleRtos

open Intrusive Interrupt

section WakeAll
variable {τ σ υ : Type} [DecidableEq τ] [DecidableEq σ] [DecidableEq υ]

/-! ## The loop of `rt_ipc_list_resume_all` -/

/-- The body of the loop, a masked section. -/
def rtIpcListResumeNext (e : SchedSys τ σ (ThreadLinks τ σ)) (s : σ) :
    Option (SchedSys τ σ (ThreadLinks τ σ)) := do
  let n ← e.list.next (.head (.suspend s))
  let t ← rtThreadEntry n
  let (_, e) ← rtThreadResume (e.setError t (-RT_ERROR)) t
  return e

/-- The points of the loop at which interrupts are enabled: before the test, after a
test that has found a waiter, after one that has found none. -/
inductive LoopPoint where
  | test
  | body
  | left
  deriving DecidableEq, Repr

section Loop
variable [Fintype τ] [Fintype υ]

/-- The loop from one of these points to the next. -/
def resumeAllStep (s : σ) :
    LoopPoint × RtKernel τ σ υ → Option (LoopPoint × RtKernel τ σ υ)
  | (.test, k) => some (if rtListIsempty k.env.list (.head (.suspend s)) then .left else .body, k)
  | (.body, k) => (k.onSched fun e => rtIpcListResumeNext e s).map (.test, ·)
  | (.left, _) => none

/-- The handler of a tick, whose callbacks do what the script says. -/
def tickHandler (k : RtKernel τ σ υ) (script : List (List (Call τ σ υ))) :
    Option (RtKernel τ σ υ) :=
  kernelTick script k

abbrev LoopMove (τ σ υ : Type) := Move (List (List (Call τ σ υ)))

abbrev loopRun (s : σ) (ms : List (LoopMove τ σ υ)) (x : LoopPoint × RtKernel τ σ υ) :
    Option (LoopPoint × RtKernel τ σ υ) :=
  run (resumeAllStep s) tickHandler ms x

/-- No tick empties the list of waiters when the loop has just found it not empty. -/
def LeavesWaiter (s : σ) : List (LoopMove τ σ υ) → LoopPoint × RtKernel τ σ υ → Prop
  | [], _ => True
  | m :: ms, x =>
      ∀ x' ∈ exec (resumeAllStep s) tickHandler x m,
        (m.isCode = false → x.1 = .body → x'.2.waiters s ≠ []) ∧ LeavesWaiter s ms x'

instance decidableLeavesWaiter (s : σ) : ∀ (ms : List (LoopMove τ σ υ)) x,
    Decidable (LeavesWaiter s ms x)
  | [], _ => .isTrue trivial
  | m :: ms, x =>
      have := decidableLeavesWaiter s ms
      inferInstanceAs (Decidable (∀ x' ∈ exec _ _ x m, _ ∧ LeavesWaiter s ms x'))

/-- The thread that the next section of the loop wakes. -/
def loopTaken (s : σ) : LoopPoint × RtKernel τ σ υ → List τ
  | (.body, k) => (k.env.list.next (.head (.suspend s)) >>= rtThreadEntry).toList
  | _ => []

/-- The threads the loop wakes in a run, in order. -/
def loopWoken (s : σ) : List (LoopMove τ σ υ) → LoopPoint × RtKernel τ σ υ → List τ
  | [], _ => []
  | .code :: ms, x => loopTaken s x ++ (resumeAllStep s x).elim [] (loopWoken s ms)
  | m :: ms, x => (exec (resumeAllStep s) tickHandler x m).elim [] (loopWoken s ms)

/-- The timers the ticks of a run fire, in order. -/
def loopFires (s : σ) : List (LoopMove τ σ υ) → LoopPoint × RtKernel τ σ υ → List (τ ⊕ υ)
  | [], _ => []
  | .code :: ms, x => (resumeAllStep s x).elim [] (loopFires s ms)
  | .handler script :: ms, x => tickFires script x.2 ++
      (exec (resumeAllStep s) tickHandler x (.handler script)).elim [] (loopFires s ms)

instance (t : τ) (fired : List (τ ⊕ υ)) : Decidable (threadTimer t ∈ fired) :=
  decidable_of_iff (∃ x ∈ fired, x = threadTimer t) (by simp)

/-- No tick of the run fires the timer of a thread the loop has woken; before the run it has
woken `ts`. -/
def SparesWoken (s : σ) : List (LoopMove τ σ υ) → List τ → LoopPoint × RtKernel τ σ υ → Prop
  | [], _, _ => True
  | .code :: ms, ts, x => ∀ x' ∈ resumeAllStep s x, SparesWoken s ms (ts ++ loopTaken s x) x'
  | .handler script :: ms, ts, x =>
      (∀ t ∈ ts, threadTimer t ∉ tickFires script x.2) ∧
        ∀ x' ∈ exec (resumeAllStep s) tickHandler x (.handler script), SparesWoken s ms ts x'

instance decidableSparesWoken (s : σ) : ∀ (ms : List (LoopMove τ σ υ)) ts x,
    Decidable (SparesWoken s ms ts x)
  | [], _, _ => .isTrue trivial
  | .code :: ms, _, x =>
      have := decidableSparesWoken s ms
      inferInstanceAs (Decidable (∀ x' ∈ resumeAllStep s x, SparesWoken s ms _ x'))
  | .handler _ :: ms, _, x =>
      have := decidableSparesWoken s ms
      inferInstanceAs (Decidable ((∀ t ∈ _, _) ∧ ∀ x' ∈ exec _ _ x _, SparesWoken s ms _ x'))

/-- Undisturbed, the loop is `rt_ipc_list_resume_all`. -/
theorem loopRun_undisturbed (s : σ) (fuel : Nat) : ∀ {k : RtKernel τ σ υ}
    {e : SchedSys τ σ (ThreadLinks τ σ)}, rtIpcListResumeAll s fuel k.env = some e →
      ∃ n, loopRun s (List.replicate n .code) (.test, k) =
        some (.left, { k with env := e }) := by
  induction fuel with
  | zero => intro k e h; cases h
  | succ fuel ih =>
    intro k e h
    rw [rtIpcListResumeAll] at h
    by_cases hempty : rtListIsempty k.env.list (.head (.suspend s))
    · rw [if_pos hempty] at h
      cases h
      exact ⟨1, by simp [loopRun, run, exec, resumeAllStep, hempty]⟩
    · rw [if_neg hempty] at h
      obtain ⟨n, hn, h⟩ := Option.bind_eq_some_iff.mp h
      obtain ⟨t, ht, h⟩ := Option.bind_eq_some_iff.mp h
      obtain ⟨⟨r, e₁⟩, hresume, hrest⟩ := Option.bind_eq_some_iff.mp h
      obtain ⟨m, hm⟩ := ih (k := { k with env := e₁ }) hrest
      have htest : resumeAllStep s (.test, k) = some (.body, k) := by
        simp [resumeAllStep, hempty]
      have hbody : resumeAllStep s (.body, k) = some (.test, { k with env := e₁ }) := by
        simp [resumeAllStep, Sys.onSched, rtIpcListResumeNext, hn, ht, hresume]
      refine ⟨m + 2, ?_⟩
      rw [loopRun, run_replicate_succ _ htest, run_replicate_succ _ hbody]
      exact hm

end Loop

/-! ## A waiter and the ticks -/

/-- The slice accounting moves nobody who waits. -/
theorem tickSlice_waiters {e e' : SchedSys τ σ (ThreadRings τ σ)} (hw : SchedWf e)
    (hslice : Abs.tickSlice e = some e') (s : σ) :
    e'.waiters s = e.waiters s := by
  obtain ⟨u, -, ⟨-, rfl⟩ | ⟨-, ⟨rfl, -⟩ | ⟨hst, hsched⟩⟩⟩ := tickSlice_spec hw hslice
  · rfl
  · rfl
  · have hfree : u ∉ e.waiters s := fun hu => by simp [hw.waiting u s hu] at hst
    rw [(schedule_same hsched).waiters, SchedSys.relistReady_waiters, List.erase_of_not_mem hfree]

/-- A call that wakes waiters of `s`. -/
def Call.WakesFrom (s : σ) : Call τ σ υ → Prop
  | .semRelease q => q = s
  | .semControl q _ _ => q = s
  | .semDetach q => q = s
  | _ => False

instance (s : σ) (c : Call τ σ υ) : Decidable (c.WakesFrom s) := by
  rcases c <;> dsimp only [Call.WakesFrom] <;> infer_instance

/-- A call that leaves it to the loop and to the timer of `t` to wake it from `s`. -/
def Call.LeavesTo (s : σ) (t : τ) (c : Call τ σ υ) : Prop := c.Avoids t ∧ ¬ c.WakesFrom s

instance (s : σ) (t : τ) (c : Call τ σ υ) : Decidable (c.LeavesTo s t) :=
  inferInstanceAs (Decidable (_ ∧ _))

section
omit [DecidableEq τ] [DecidableEq σ]

/-- `t` waits for no semaphore but `s`. -/
theorem waits_only {e : SchedSys τ σ (ThreadRings τ σ)} {s q : σ} {t : τ} (hw : SchedWf e)
    (h : t ∈ e.waiters s ∨ (e.thread t).stat = .ready) (ht : t ∈ e.waiters q) : q = s := by
  rcases h with hs | hst
  · have hhead : ThreadHead.suspend q = .suspend s := hw.valid.disjoint ht hs
    exact ThreadHead.suspend.inj hhead
  · simp [hw.waiting t q ht] at hst

end

/-- `t` has been woken and `error` is its error. -/
def WokenWith (t : τ) (error : Int) (e : SchedSys τ σ (ThreadRings τ σ)) : Prop :=
  (e.thread t).stat = .ready ∧ (e.thread t).error = error

section Waiter
variable {a a' : SeqKernel τ σ υ} {e e' : SchedSys τ σ (ThreadRings τ σ)} {s : σ} {t u : τ}
  {error : Int}

section
omit [DecidableEq τ] [DecidableEq σ]

theorem WokenWith.bystander (h : WokenWith t error e) (hb : Bystander t e e') :
    WokenWith t error e' := by
  unfold WokenWith
  rw [hb.thread]
  exact h

end

theorem WokenWith.tickSlice (h : WokenWith t error e) (hw : SchedWf e)
    (hslice : Abs.tickSlice e = some e') : WokenWith t error e' :=
  ⟨(Waking.tickSlice hw hslice).ready t h.1, by rw [(tickSlice_calm hw hslice).1]; exact h.2⟩

/-- A timeout. -/
theorem wokenWith_timeout (h : Abs.timeout e t = some e') : WokenWith t (-RT_ETIMEOUT) e' := by
  unfold WokenWith
  rw [(schedule_same (timeout_spec h).2).thread]
  simp [RtThread.timedOut]

/-- The timeout of another thread. -/
theorem bystander_timeout (htu : t ≠ u) (h : Abs.timeout e u = some e') : Bystander t e e' :=
  (Bystander.relist htu).trans (.schedule (timeout_spec h).2)

/-- A call that leaves it to the loop and to the timer of `t` to wake it. -/
theorem bystander_call [Fintype τ] (hw : KernelWf a)
    (h : t ∈ a.env.waiters s ∨ (a.env.thread t).stat = .ready) {c : Call τ σ υ}
    (hc : c.LeavesTo s t) (hrun : Abs.execCall a c = some a') : Bystander t a.env a'.env := by
  obtain ⟨havoid, hwakes⟩ := hc
  refine .call hw havoid (fun hmem => ?_) hrun
  cases c with
  | threadStartup u => exact havoid (List.mem_singleton.mp hmem).symm
  | threadResume u =>
    simp only [wokenBy] at hmem
    split at hmem
    · exact havoid (List.mem_singleton.mp hmem).symm
    · cases hmem
  | semRelease q => exact hwakes (waits_only hw.sched h (List.mem_of_mem_take hmem))
  | semControl q cmd arg =>
    simp only [wokenBy] at hmem
    split at hmem
    · exact hwakes (waits_only hw.sched h hmem)
    · cases hmem
  | semDetach q => exact hwakes (waits_only hw.sched h hmem)
  | _ => cases hmem

/-! ### A tick whose callbacks leave it alone -/

section Tick
variable [Fintype τ] [Fintype υ] {k : RtKernel τ σ υ} {script : List (List (Call τ σ υ))}

/-- A tick that fires its timer times a thread out. -/
theorem timedOut_of_fires (hk : KernelRel k a) (hw : KernelWf a)
    (hcalls : tickMeets (fun _ c => c.LeavesTo s t) script k)
    (hfires : threadTimer t ∈ tickFires script k) (hrun : Abs.tick script a = some a') :
    WokenWith t (-RT_ETIMEOUT) a'.env := by
  refine tick_fired (I := WokenWith t (-RT_ETIMEOUT)) wokenWith_timeout ?_
    (fun _ hw hc _ h hcall => h.bystander (bystander_call hw (.inr h.1) hc hcall)) hk hw hcalls
    hfires hrun
  intro a u e _ _ h htimeout
  by_cases htu : t = u
  · subst htu
    exact wokenWith_timeout htimeout
  · exact h.bystander (bystander_timeout htu htimeout)

/-- A woken thread is timed out, or stays as it is. -/
theorem WokenWith.tick (h : WokenWith t error a.env) (hk : KernelRel k a) (hw : KernelWf a)
    (hcalls : tickMeets (fun _ c => c.LeavesTo s t) script k) (hrun : Abs.tick script a = some a') :
    WokenWith t (if threadTimer t ∈ tickFires script k then -RT_ETIMEOUT else error) a'.env := by
  split
  · rename_i hfires
    exact timedOut_of_fires hk hw hcalls hfires hrun
  · rename_i hnot
    exact tick_unfired_invariant (I := WokenWith t error) (fun hw h hslice => h.tickSlice hw hslice)
      (fun _ _ hut h htimeout => h.bystander (bystander_timeout (Ne.symm hut) htimeout))
      (fun _ hw hc _ h hcall => h.bystander (bystander_call hw (.inr h.1) hc hcall)) hk hw hcalls
      hnot h hrun

/-- A waiter is timed out, or waits on. -/
theorem waiter_tick (h : t ∈ a.env.waiters s) (hk : KernelRel k a) (hw : KernelWf a)
    (hcalls : tickMeets (fun _ c => c.LeavesTo s t) script k) (hrun : Abs.tick script a = some a') :
    if threadTimer t ∈ tickFires script k then WokenWith t (-RT_ETIMEOUT) a'.env
      else t ∈ a'.env.waiters s := by
  split
  · rename_i hfires
    exact timedOut_of_fires hk hw hcalls hfires hrun
  · rename_i hnot
    exact tick_unfired_invariant (I := fun e => t ∈ e.waiters s)
      (fun hw h hslice => tickSlice_waiters hw hslice s ▸ h)
      (fun _ _ hut h htimeout => ((bystander_timeout (Ne.symm hut) htimeout).waiters s).mpr h)
      (fun _ hw hc _ h hcall => ((bystander_call hw (.inl h) hc hcall).waiters s).mpr h) hk hw
      hcalls hnot h hrun

end Tick

end Waiter

/-! ## The loop among ticks -/

/-- The moves the loop still makes with `n` waiters left. -/
def LoopPoint.movesLeft (n : Nat) : LoopPoint → Nat
  | .test => 2 * n + 1
  | .body => 2 * n
  | .left => 0

/-- `x` is a state of the loop on `s`, and `a` its kernel on sequences. -/
structure LoopRel (s : σ) (x : LoopPoint × RtKernel τ σ υ) (a : SeqKernel τ σ υ) : Prop where
  rel : KernelRel x.2 a
  wf : KernelWf a
  live : a.env.list.live (.head (.suspend s)) = true
  left : x.1 = .left → a.env.waiters s = []

section Among
variable [Fintype τ] [Fintype υ] {s : σ} {x x' : LoopPoint × RtKernel τ σ υ}
  {k : RtKernel τ σ υ} {a : SeqKernel τ σ υ} {t : τ}

/-- The callbacks the ticks of the run call leave it to the loop and to the timers of the threads
of `ts` to wake these. -/
def CallbacksLeave (s : σ) (ts : List τ) :
    List (LoopMove τ σ υ) → LoopPoint × RtKernel τ σ υ → Prop
  | [], _ => True
  | .code :: ms, x => ∀ x' ∈ resumeAllStep s x, CallbacksLeave s ts ms x'
  | .handler script :: ms, x =>
      tickMeets (fun _ c => ∀ t ∈ ts, c.LeavesTo s t) script x.2 ∧
        ∀ x' ∈ exec (resumeAllStep s) tickHandler x (.handler script), CallbacksLeave s ts ms x'

theorem callbacksLeave_of_forall {ts : List τ} (ms : List (LoopMove τ σ υ)) :
    ∀ {x : LoopPoint × RtKernel τ σ υ}, (∀ script, .handler script ∈ ms → ∀ cs ∈ script, ∀ c ∈ cs,
      ∀ t ∈ ts, c.LeavesTo s t) → CallbacksLeave s ts ms x := by
  induction ms with
  | nil => intros; trivial
  | cons m ms ih =>
    intro x h
    have hrest : ∀ script, .handler script ∈ ms → ∀ cs ∈ script, ∀ c ∈ cs, ∀ t ∈ ts,
        c.LeavesTo s t := fun script hmem => h script (List.mem_cons_of_mem _ hmem)
    cases m with
    | code => exact fun x' _ => ih hrest
    | handler script =>
      exact ⟨tickMeets_of_forall fun cs hcs c hc _ => h script (List.mem_cons_self ..) cs hcs c hc,
        fun x' _ => ih hrest⟩

theorem movesLeft_mono {n n' : Nat} (h : n' ≤ n) (p : LoopPoint) :
    p.movesLeft n' ≤ p.movesLeft n := by
  cases p <;> simp only [LoopPoint.movesLeft] <;> omega

/-- A tick adds no waiter. -/
theorem loop_tick {script : List (List (Call τ σ υ))} (h : LoopRel s x a)
    (hrun : exec (resumeAllStep s) tickHandler x (.handler script) = some x') :
    ∃ a', LoopRel s x' a' ∧ Abs.tick script a = some a' ∧
      (a'.env.waiters s).Sublist (a.env.waiters s) := by
  obtain ⟨hp, hk'⟩ := exec_handler hrun
  obtain ⟨a', ha', h'⟩ := Lockstep.exists_of_left (kernelTick_rel h.rel h.wf script) hk'
  have hsub : (a'.env.waiters s).Sublist (a.env.waiters s) :=
    tick_invariant (I := fun e => (e.waiters s).Sublist (a.env.waiters s)) (C := fun _ => True)
      (fun _ _ _ hsub hwake => (hwake.waiters s).trans hsub)
      (fun _ _ _ _ _ hsub heff => (heff.waiters s).trans hsub) h.wf (.refl _)
      (fun _ _ _ _ => trivial) ha'
  have hleft : x'.1 = .left → a'.env.waiters s = [] := by
    rw [hp]
    exact fun hleft => List.sublist_nil.mp (h.left hleft ▸ hsub)
  exact ⟨a', ⟨h', h.wf.tick ha', tick_live h.wf h.live ha', hleft⟩, ha', hsub⟩

section
omit [Fintype τ] [Fintype υ]

theorem resumeAllStep_test (h : LoopRel s (.test, k) a) :
    resumeAllStep s (.test, k) = some (if a.env.waiters s = [] then .left else .body, k) := by
  have hempty : rtListIsempty k.env.list (.head (.suspend s)) = true ↔ a.env.waiters s = [] := by
    rw [rtListIsempty_rep h.rel.env.rep]
    simp [isEmpty, h.live, SchedSys.waiters]
  simp only [resumeAllStep, hempty]

theorem rtIpcListResumeNext_rel (h : KernelRel k a) (s : σ) :
    Option.Rel SchedRel (rtIpcListResumeNext k.env s)
      (do
        let t ← (a.env.waiters s).head?
        let (_, e) ← Abs.resume (a.env.setError t (-RT_ERROR)) t
        return e) := by
  unfold rtIpcListResumeNext
  rw [← bind_assoc, h.env.first]
  refine Lockstep.bind (Lockstep.refl _) fun t _ _ _ ht => ?_
  subst ht
  exact Lockstep.bind (rtThreadResume_rel (h.env.setError t _) t) fun _ _ _ _ h₁ => .some h₁.2

theorem resumeAllStep_body {ts : List τ} (h : LoopRel s (.body, k) a)
    (hts : a.env.waiters s = t :: ts) :
    ∃ k', resumeAllStep s (.body, k) = some (.test, k') ∧
      LoopRel s (.test, k') { a with env := a.env.relistReady t (a.env.thread t).failed } := by
  have hst : (a.env.thread t).stat = .suspend := h.wf.sched.waiting t s (by simp [hts])
  have hwake : Waking a.env (a.env.relistReady t (a.env.thread t).failed) :=
    Waking.wake h.wf.sched (.inr hst) rfl rfl rfl rfl
  obtain ⟨e, he, hrel⟩ := Lockstep.exists_of_right (rtIpcListResumeNext_rel h.rel s)
    (b := a.env.relistReady t (a.env.thread t).failed)
    (by simp [hts, failOne_eq h.wf.sched hst])
  exact ⟨{ k with env := e }, by simp [resumeAllStep, Sys.onSched, he],
    ⟨h.rel.timers, hrel⟩, h.wf.of_waking hwake, h.live, fun hleft => by cases hleft⟩

/-- With nobody left the loop takes the head of the list for a thread. -/
theorem resumeAllStep_empty (h : KernelRel k a) (hnil : a.env.waiters s = []) :
    resumeAllStep s (.body, k) = none := by
  have hnone := rtIpcListResumeNext_rel h s
  rw [hnil] at hnone
  cases hnext : rtIpcListResumeNext k.env s with
  | none => simp [resumeAllStep, Sys.onSched, hnext]
  | some e =>
    rw [hnext] at hnone
    cases hnone

/-- A step of the loop: it finds out whether anybody waits, or wakes the first. -/
theorem loop_code (h : LoopRel s x a) (hrun : resumeAllStep s x = some x') :
    x.1 = .test ∧ x'.2 = x.2 ∧ x'.1 = (if a.env.waiters s = [] then .left else .body) ∧
        LoopRel s x' a ∨
      x.1 = .body ∧ x'.1 = .test ∧ ∃ t ts, a.env.waiters s = t :: ts ∧
        LoopRel s x' { a with env := a.env.relistReady t (a.env.thread t).failed } := by
  obtain ⟨p, k⟩ := x
  cases p with
  | test =>
    rw [resumeAllStep_test h] at hrun
    cases hrun
    refine .inl ⟨rfl, rfl, rfl, h.rel, h.wf, h.live, fun hleft => ?_⟩
    by_contra hne
    simp [hne] at hleft
  | body =>
    cases hts : a.env.waiters s with
    | nil => rw [resumeAllStep_empty h.rel hts] at hrun; cases hrun
    | cons t ts =>
      obtain ⟨k', hk', h'⟩ := resumeAllStep_body h hts
      rw [hk'] at hrun
      cases hrun
      exact .inr ⟨rfl, rfl, t, ts, rfl, h'⟩
  | left => cases hrun

end

/-- Every move leads from a state of the loop to another. -/
theorem loop_rel {m : LoopMove τ σ υ} (h : ∃ a, LoopRel s x a)
    (hrun : exec (resumeAllStep s) tickHandler x m = some x') : ∃ a', LoopRel s x' a' := by
  obtain ⟨a, h⟩ := h
  cases m with
  | handler script =>
    obtain ⟨a', h', -⟩ := loop_tick h hrun
    exact ⟨a', h'⟩
  | code =>
    rcases loop_code h hrun with ⟨-, -, -, h'⟩ | ⟨-, -, t, ts, -, h'⟩
    · exact ⟨a, h'⟩
    · exact ⟨_, h'⟩

/-- The loop makes no more than two steps for each waiter and a last one. -/
theorem loopRun_ends {ms : List (LoopMove τ σ υ)} (h : ∃ a, LoopRel s x a)
    (hrun : loopRun s ms x = some x') :
    ms.countP Move.isCode ≤ x.1.movesLeft (x.2.waiters s).length := by
  refine (Nat.le_add_right ..).trans (run_measure (I := fun x => ∃ a, LoopRel s x a)
    (μ := fun x => x.1.movesLeft (x.2.waiters s).length) (fun _ _ _ => loop_rel) ?_ ?_ ms h hrun)
  · rintro x x' ⟨a, h⟩ hcode
    rw [h.rel.waiters]
    rcases loop_code h hcode with ⟨hp, hk, hp', -⟩ | ⟨hp, hp', t, ts, hts, h'⟩
    · rw [hp, hp', hk, h.rel.waiters]
      by_cases hnil : a.env.waiters s = []
      · simp [hnil, LoopPoint.movesLeft]
      · simp [hnil, LoopPoint.movesLeft]
    · rw [hp, hp', hts, h'.rel.waiters, (failOne_wf h.wf.sched hts).2]
      simp only [LoopPoint.movesLeft, List.length_cons]
      omega
  · rintro x script x' ⟨a, h⟩ htick
    obtain ⟨a', h', -, hsub⟩ := loop_tick h htick
    rw [(exec_handler htick).1, h.rel.waiters, h'.rel.waiters]
    exact movesLeft_mono hsub.length_le _

/-- Once the loop is about to take the head for a thread it does not get on. -/
theorem loopRun_stuck {ms : List (LoopMove τ σ υ)} (h : LoopRel s x a) (hp : x.1 = .body)
    (hnil : a.env.waiters s = []) (hrun : loopRun s ms x = some x') :
    x'.1 = .body ∧ x'.2.waiters s = [] := by
  have hstep : ∀ (x : LoopPoint × RtKernel τ σ υ) (m : LoopMove τ σ υ) x',
      (x.1 = .body ∧ ∃ a, LoopRel s x a ∧ a.env.waiters s = []) → True →
        exec (resumeAllStep s) tickHandler x m = some x' →
          x'.1 = .body ∧ ∃ a, LoopRel s x' a ∧ a.env.waiters s = [] := by
    rintro x m x' ⟨hp, a, h, hnil⟩ - hmove
    cases m with
    | handler script =>
      obtain ⟨a', h', -, hsub⟩ := loop_tick h hmove
      exact ⟨(exec_handler hmove).1.trans hp, a', h', List.sublist_nil.mp (hnil ▸ hsub)⟩
    | code =>
      obtain ⟨p, k⟩ := x
      cases hp
      rw [exec, resumeAllStep_empty h.rel hnil] at hmove
      cases hmove
  obtain ⟨hp', a', h', hnil'⟩ := run_invariant hstep ms ⟨hp, a, h, hnil⟩ (fun _ _ => trivial) hrun
  exact ⟨hp', by rw [h'.rel.waiters, hnil']⟩

/-- The loop has somebody to wake wherever it has found somebody, if and only if no tick
empties the list there. -/
theorem leavesWaiter_iff (ms : List (LoopMove τ σ υ)) : ∀ {x : LoopPoint × RtKernel τ σ υ}
    {a : SeqKernel τ σ υ}, LoopRel s x a → (x.1 = .body → x.2.waiters s ≠ []) →
      loopRun s ms x = some x' →
        (LeavesWaiter s ms x ↔ (x'.1 = .body → x'.2.waiters s ≠ [])) := by
  induction ms with
  | nil =>
    intro x a _ hx hrun
    cases hrun
    exact iff_of_true trivial hx
  | cons m ms ih =>
    intro x a h hx hrun
    obtain ⟨x₁, hx₁, hrest⟩ := Option.bind_eq_some_iff.mp hrun
    obtain ⟨a₁, h₁⟩ := loop_rel ⟨a, h⟩ hx₁
    have hhead : LeavesWaiter s (m :: ms) x ↔
        (m.isCode = false → x.1 = .body → x₁.2.waiters s ≠ []) ∧ LeavesWaiter s ms x₁ := by
      simp [LeavesWaiter, hx₁]
    rw [hhead]
    by_cases hfound : x₁.1 = .body → x₁.2.waiters s ≠ []
    · rw [ih h₁ hfound hrest]
      refine and_iff_right fun hm hbody => hfound ?_
      cases m with
      | code => cases hm
      | handler script => rw [(exec_handler hx₁).1, hbody]
    · -- the loop is about to take the head for a thread: a tick has brought it here
      obtain ⟨hbody, hnil⟩ := Classical.not_imp.mp hfound
      rw [not_not] at hnil
      have hnil₁ : a₁.env.waiters s = [] := by rw [← h₁.rel.waiters, hnil]
      obtain ⟨hbody', hnil'⟩ := loopRun_stuck h₁ hbody hnil₁ hrest
      refine iff_of_false (fun hleaves => ?_) fun hne => hne hbody' hnil'
      cases m with
      | handler script => exact hleaves.1 rfl ((exec_handler hx₁).1 ▸ hbody) hnil
      | code =>
        rcases loop_code h hx₁ with ⟨-, hk, hp', -⟩ | ⟨-, hp', -⟩
        · rw [hk, h.rel.waiters] at hnil
          simp [hp', hnil] at hbody
        · rw [hp'] at hbody
          cases hbody

/-! ### Who wakes whom -/

section
omit [Fintype τ] [Fintype υ]

/-- The entry the loop takes is the first waiter. -/
theorem loopTaken_body {ts : List τ} (h : LoopRel s (.body, k) a)
    (hts : a.env.waiters s = t :: ts) : loopTaken s (.body, k) = [t] := by
  rw [loopTaken, h.rel.env.first, show a.env.list.seq (.suspend s) = t :: ts from hts]
  rfl

end

/-- What has become of `t`, which waited for `s`: it waits still, or the loop has woken it, or its
timer has fired before the loop came to it. -/
inductive Fate (s : σ) (woken : List τ) (fired : List (τ ⊕ υ)) (t : τ)
    (e : SchedSys τ σ (ThreadRings τ σ)) : Prop where
  | waits (hwait : t ∈ e.waiters s) (hnot : t ∉ woken)
  | byLoop (hmem : t ∈ woken) (hwoken : WokenWith t (-RT_ERROR) e)
  | byTimer (hnot : t ∉ woken) (hfired : threadTimer t ∈ fired)
      (hwoken : WokenWith t (-RT_ETIMEOUT) e)

variable {ts woken : List τ} {fired : List (τ ⊕ υ)}

section
omit [DecidableEq τ] [DecidableEq σ] [DecidableEq υ] [Fintype τ] [Fintype υ]

/-- Nothing has happened to `t`, and the loop has woken others only. -/
theorem Fate.bystander {e e' : SchedSys τ σ (ThreadRings τ σ)} {u : τ}
    (h : Fate s woken fired t e) (hb : Bystander t e e') (htu : t ≠ u) :
    Fate s (woken ++ [u]) fired t e' := by
  cases h with
  | waits hwait hnot => exact .waits ((hb.waiters s).mpr hwait) (by simp [hnot, htu])
  | byLoop hmem hwoken => exact .byLoop (by simp [hmem]) (hwoken.bystander hb)
  | byTimer hnot hfired hwoken => exact .byTimer (by simp [hnot, htu]) hfired (hwoken.bystander hb)

end

section
omit [Fintype τ] [Fintype υ]

/-- A step of the loop and what has become of everybody. -/
theorem loop_code_fate (h : LoopRel s x a) (hrun : resumeAllStep s x = some x') :
    ∃ a', LoopRel s x' a' ∧ ∀ t, Fate s woken fired t a.env →
      Fate s (woken ++ loopTaken s x) fired t a'.env := by
  rcases loop_code h hrun with ⟨hp, -, -, h'⟩ | ⟨hp, -, u, us, hus, h'⟩
  · refine ⟨a, h', fun t ht => ?_⟩
    rwa [show loopTaken s x = [] by rw [← Prod.eta x, hp]; rfl, List.append_nil]
  · obtain ⟨p, k⟩ := x
    cases hp
    refine ⟨_, h', fun t ht => ?_⟩
    rw [loopTaken_body h hus]
    by_cases htu : t = u
    · subst htu
      exact .byLoop (by simp) (by simp [WokenWith, RtThread.failed])
    · exact ht.bystander (.relist htu) htu

end

/-- A tick that does not fire its timer once the loop has woken it. -/
theorem Fate.tick {script : List (List (Call τ σ υ))} {a' : SeqKernel τ σ υ}
    (h : Fate s woken fired t a.env) (hk : KernelRel k a) (hw : KernelWf a)
    (hcalls : tickMeets (fun _ c => c.LeavesTo s t) script k)
    (hspares : t ∈ woken → threadTimer t ∉ tickFires script k)
    (hrun : Abs.tick script a = some a') :
    Fate s woken (fired ++ tickFires script k) t a'.env := by
  cases h with
  | waits hwait hnot =>
    have htick := waiter_tick hwait hk hw hcalls hrun
    split at htick
    · rename_i hfires
      exact .byTimer hnot (by simp [hfires]) htick
    · exact .waits htick hnot
  | byLoop hmem hwoken =>
    have htick := hwoken.tick hk hw hcalls hrun
    rw [if_neg (hspares hmem)] at htick
    exact .byLoop hmem htick
  | byTimer hnot hfired hwoken =>
    have htick := hwoken.tick hk hw hcalls hrun
    rw [ite_self] at htick
    exact .byTimer hnot (by simp [hfired]) htick

theorem leavesTo_of_forall {script : List (List (Call τ σ υ))} {k : RtKernel τ σ υ} (ht : t ∈ ts)
    (h : tickMeets (fun _ c => ∀ t ∈ ts, c.LeavesTo s t) script k) :
    tickMeets (fun _ c => c.LeavesTo s t) script k :=
  tickMeets_mono (fun _ _ h => h t ht) h

/-- A run of the loop and what becomes of everybody. -/
theorem loopRun_fate (ms : List (LoopMove τ σ υ)) : ∀ {x : LoopPoint × RtKernel τ σ υ}
    {a : SeqKernel τ σ υ} {woken : List τ} {fired : List (τ ⊕ υ)}, LoopRel s x a →
      (∀ t ∈ ts, Fate s woken fired t a.env) → CallbacksLeave s ts ms x →
      SparesWoken s ms woken x → loopRun s ms x = some x' →
        ∃ a', LoopRel s x' a' ∧ ∀ t ∈ ts,
          Fate s (woken ++ loopWoken s ms x) (fired ++ loopFires s ms x) t a'.env := by
  induction ms with
  | nil =>
    intro x a woken fired h hfate _ _ hrun
    cases hrun
    exact ⟨a, h, by simpa [loopWoken, loopFires] using hfate⟩
  | cons m ms ih =>
    intro x a woken fired h hfate hcalls hspares hrun
    obtain ⟨x₁, hx₁, hrest⟩ := Option.bind_eq_some_iff.mp hrun
    cases m with
    | code =>
      rw [exec] at hx₁
      obtain ⟨a₁, h₁, hfate₁⟩ : ∃ a₁, LoopRel s x₁ a₁ ∧ ∀ t, Fate s woken fired t a.env →
          Fate s (woken ++ loopTaken s x) fired t a₁.env := loop_code_fate h hx₁
      obtain ⟨a', h', hfate'⟩ := ih h₁ (fun t ht => hfate₁ t (hfate t ht)) (hcalls x₁ hx₁)
        (hspares x₁ hx₁) hrest
      refine ⟨a', h', ?_⟩
      simpa [loopWoken, loopFires, hx₁] using hfate'
    | handler script =>
      obtain ⟨a₁, h₁, htick, -⟩ := loop_tick h hx₁
      obtain ⟨a', h', hfate'⟩ := ih h₁ (fun t ht => (hfate t ht).tick h.rel h.wf
        (leavesTo_of_forall ht hcalls.1) (hspares.1 t) htick) (hcalls.2 x₁ hx₁)
        (hspares.2 x₁ hx₁) hrest
      refine ⟨a', h', ?_⟩
      simpa [loopWoken, loopFires, hx₁] using hfate'

/-- Who has been timed out stays so. -/
theorem loopRun_timedOut (ht : t ∈ ts) (ms : List (LoopMove τ σ υ)) :
    ∀ {x : LoopPoint × RtKernel τ σ υ} {a : SeqKernel τ σ υ}, LoopRel s x a →
      WokenWith t (-RT_ETIMEOUT) a.env → CallbacksLeave s ts ms x → loopRun s ms x = some x' →
        (x'.2.env.thread t).stat = .ready ∧ (x'.2.env.thread t).error = -RT_ETIMEOUT := by
  induction ms with
  | nil =>
    intro x a h hwoken _ hrun
    cases hrun
    rw [h.rel.env.thread]
    exact hwoken
  | cons m ms ih =>
    intro x a h hwoken hcalls hrun
    obtain ⟨x₁, hx₁, hrest⟩ := Option.bind_eq_some_iff.mp hrun
    cases m with
    | code =>
      rw [exec] at hx₁
      rcases loop_code h hx₁ with ⟨-, -, -, h₁⟩ | ⟨-, -, u, us, hus, h₁⟩
      · exact ih h₁ hwoken (hcalls x₁ hx₁) hrest
      · -- a ready thread is not among the waiters the loop wakes
        have htu : t ≠ u := by
          rintro rfl
          have hst := h.wf.sched.waiting t s (by simp [hus])
          simp [hwoken.1] at hst
        exact ih h₁ (hwoken.bystander (.relist htu)) (hcalls x₁ hx₁) hrest
    | handler script =>
      obtain ⟨a₁, h₁, htick, -⟩ := loop_tick h hx₁
      have hwoken₁ := hwoken.tick h.rel h.wf (leavesTo_of_forall ht hcalls.1) htick
      rw [ite_self] at hwoken₁
      exact ih h₁ hwoken₁ (hcalls.2 x₁ hx₁) hrest

/-- If nobody the loop has woken turns out to be timed out in the end, no tick has fired the
timer of one. -/
theorem sparesWoken_of_run (ms : List (LoopMove τ σ υ)) : ∀ {x : LoopPoint × RtKernel τ σ υ}
    {a : SeqKernel τ σ υ} {woken : List τ}, LoopRel s x a → (∀ t ∈ woken, t ∈ ts) →
      (∀ t ∈ a.env.waiters s, t ∈ ts) → CallbacksLeave s ts ms x → loopRun s ms x = some x' →
      (∀ t ∈ ts, t ∈ woken ++ loopWoken s ms x → (x'.2.env.thread t).stat = .ready →
        (x'.2.env.thread t).error ≠ -RT_ETIMEOUT) → SparesWoken s ms woken x := by
  induction ms with
  | nil => intros; trivial
  | cons m ms ih =>
    intro x a woken h hwoken hwait hcalls hrun hend
    obtain ⟨x₁, hx₁, hrest⟩ := Option.bind_eq_some_iff.mp hrun
    cases m with
    | code =>
      rw [exec] at hx₁
      intro x₂ hx₂
      obtain rfl : x₁ = x₂ := Option.some.inj (hx₁.symm.trans hx₂)
      have hend₁ : ∀ t ∈ ts, t ∈ woken ++ loopTaken s x ++ loopWoken s ms x₁ →
          (x'.2.env.thread t).stat = .ready → (x'.2.env.thread t).error ≠ -RT_ETIMEOUT := by
        simpa [loopWoken, hx₁] using hend
      rcases loop_code h hx₁ with ⟨hp, -, -, h₁⟩ | ⟨hp, -, u, us, hus, h₁⟩
      · have htaken : loopTaken s x = [] := by rw [← Prod.eta x, hp]; rfl
        rw [htaken, List.append_nil] at hend₁ ⊢
        exact ih h₁ hwoken hwait (hcalls x₁ hx₁) hrest hend₁
      · obtain ⟨p, k⟩ := x
        cases hp
        rw [loopTaken_body h hus] at hend₁ ⊢
        refine ih h₁ (fun t ht => ?_) (fun t ht => ?_) (hcalls x₁ hx₁) hrest hend₁
        · rcases List.mem_append.mp ht with ht | ht
          · exact hwoken t ht
          · rw [List.mem_singleton.mp ht]
            exact hwait u (by simp [hus])
        · exact hwait t (List.mem_of_mem_erase (by simpa using ht))
    | handler script =>
      obtain ⟨a₁, h₁, htick, hsub⟩ := loop_tick h hx₁
      refine ⟨fun t ht hfires => ?_, fun x₂ hx₂ => ?_⟩
      · have hmem := hwoken t ht
        obtain ⟨hst, herror⟩ := loopRun_timedOut hmem ms h₁ (timedOut_of_fires h.rel h.wf
          (leavesTo_of_forall hmem hcalls.1) hfires htick) (hcalls.2 x₁ hx₁) hrest
        exact hend t hmem (List.mem_append_left _ ht) hst herror
      · obtain rfl : x₁ = x₂ := Option.some.inj (hx₁.symm.trans hx₂)
        refine ih h₁ hwoken (fun t ht => hwait t (hsub.subset ht)) (hcalls.2 x₁ hx₁) hrest ?_
        simpa [loopWoken, hx₁] using hend

end Among

/-! ## The theorem -/

/-- What a run of the loop on `s` from `k` that has come to `x` shows: the loop takes
waiters for threads, gets on and comes to its end with nobody left; and whoever waited waits
still or is once on a ready list, with `-RT_ERROR` if the loop has woken it and with
`-RT_ETIMEOUT` if its timer has. What the loop took on the way is shown by the runs that end
there. -/
structure WakesWaiters [Fintype τ] [Fintype υ] (s : σ) (k : RtKernel τ σ υ)
    (ms : List (LoopMove τ σ υ)) (x : LoopPoint × RtKernel τ σ υ) : Prop where
  entry : x.1 = .body →
    ∃ t ∈ x.2.waiters s, x.2.env.list.next (.head (.suspend s)) = some (.item t)
  goesOn : x.1 ≠ .left → (resumeAllStep s x).isSome
  ends : ms.countP Move.isCode ≤ 2 * (k.waiters s).length + 1
  empty : x.1 = .left → x.2.waiters s = []
  woken : ∀ t ∈ k.waiters s, t ∈ x.2.waiters s ∨ ReadyOnce x.2 t ∧
    (t ∈ loopWoken s ms (.test, k) ∧ (x.2.env.thread t).error = -RT_ERROR ∨
      t ∉ loopWoken s ms (.test, k) ∧ threadTimer t ∈ loopFires s ms (.test, k) ∧
        (x.2.env.thread t).error = -RT_ETIMEOUT)

/-- What has become of a waiter, read off the links. -/
theorem Fate.read [Fintype τ] [Fintype υ] {s : σ} {woken : List τ} {fired : List (τ ⊕ υ)} {t : τ}
    {k : RtKernel τ σ υ} {a : SeqKernel τ σ υ} (h : Fate s woken fired t a.env)
    (hk : KernelRel k a) (hw : KernelWf a) :
    t ∈ k.waiters s ∨ ReadyOnce k t ∧ (t ∈ woken ∧ (k.env.thread t).error = -RT_ERROR ∨
      t ∉ woken ∧ threadTimer t ∈ fired ∧ (k.env.thread t).error = -RT_ETIMEOUT) := by
  rw [hk.waiters, hk.env.thread]
  cases h with
  | waits hwait => exact .inl hwait
  | byLoop hmem hwoken =>
    exact .inr ⟨readyOnce_of_ready hk hw.sched hwoken.1, .inl ⟨hmem, hwoken.2⟩⟩
  | byTimer hnot hfired hwoken =>
    exact .inr ⟨readyOnce_of_ready hk hw.sched hwoken.1, .inr ⟨hnot, hfired, hwoken.2⟩⟩

/-- **`rt_sem_detach` among ticks.** Wherever ticks arrive in its loop, if their callbacks leave
the waiters and the semaphore alone, it wakes the waiters that they have not timed out and
nobody else, unless one of them empties the list between a test that finds somebody and the
section that takes the first, or fires the timer of a thread the loop has woken. -/
theorem detach_amid_ticks [Fintype τ] [Fintype υ] {idle : τ}
    {ok : RtKernel τ σ υ → Op τ σ υ → Prop} {k : RtKernel τ σ υ} (hk : Reachable idle ok k)
    {s : σ} (hs : k.env.list.next (.head (.suspend s)) ≠ none) {ms : List (LoopMove τ σ υ)}
    (hcalls : CallbacksLeave s (k.waiters s) ms (.test, k))
    {x : LoopPoint × RtKernel τ σ υ} (hrun : loopRun s ms (.test, k) = some x) :
    WakesWaiters s k ms x ↔ LeavesWaiter s ms (.test, k) ∧ SparesWoken s ms [] (.test, k) := by
  obtain ⟨a, h, hw, -⟩ := hk.invariant (I := fun _ => True) (fun _ _ _ => trivial)
    fun _ _ _ _ _ _ _ _ _ _ => trivial
  have hlive : a.env.list.live (.head (.suspend s)) = true := by
    by_contra hdead
    exact hs (h.env.rep.null _ (by simpa using hdead)).1
  have h₀ : LoopRel s (.test, k) a := ⟨h, hw, hlive, fun hleft => by cases hleft⟩
  have hwait : a.env.waiters s = k.waiters s := by rw [h.waiters]
  rw [leavesWaiter_iff ms h₀ (fun hbody => by cases hbody) hrun]
  obtain ⟨p, k'⟩ := x
  constructor
  · intro hwakes
    refine ⟨fun hbody => ?_, sparesWoken_of_run ms h₀ (by simp) (fun t ht => hwait ▸ ht) hcalls hrun
      fun t ht hmem hst herror => ?_⟩
    · obtain ⟨t, ht, -⟩ := hwakes.entry hbody
      exact List.ne_nil_of_mem ht
    · obtain ⟨a', h'⟩ := run_invariant (C := fun _ => True) (fun _ _ _ h _ => loop_rel h) ms
        ⟨a, h₀⟩ (fun _ _ => trivial) hrun
      rcases hwakes.woken t ht with hmem' | ⟨-, ⟨-, herror'⟩ | ⟨hnot, -⟩⟩
      · rw [h'.rel.waiters] at hmem'
        have hst' := h'.wf.sched.waiting t s hmem'
        rw [← h'.rel.env.thread, hst] at hst'
        cases hst'
      · rw [herror] at herror'
        cases herror'
      · exact hnot (by simpa using hmem)
  · rintro ⟨hfound, hspares⟩
    have hfate₀ : ∀ t ∈ k.waiters s, Fate s [] ([] : List (τ ⊕ υ)) t a.env :=
      fun t ht => .waits (hwait ▸ ht) (by simp)
    obtain ⟨a', h', hfate⟩ := loopRun_fate ms h₀ hfate₀ hcalls hspares hrun
    refine ⟨fun hbody => ?_, fun hleft => ?_, loopRun_ends ⟨a, h₀⟩ hrun, fun hleft => ?_,
      fun t ht => by simpa using (hfate t ht).read h'.rel h'.wf⟩
    · obtain ⟨t, ts, hts⟩ := List.exists_cons_of_ne_nil (hfound hbody)
      refine ⟨t, by simp [hts], ?_⟩
      have hseq : a'.env.list.seq (.suspend s) = t :: ts := by
        rw [← hts, h'.rel.waiters]
        rfl
      rw [h'.rel.env.rep.next_head h'.live, hseq]
      rfl
    · cases p with
      | test => rw [resumeAllStep_test h']; rfl
      | body =>
        obtain ⟨t, ts, hts⟩ := List.exists_cons_of_ne_nil (hfound rfl)
        rw [h'.rel.waiters] at hts
        obtain ⟨k₁, hk₁, -⟩ := resumeAllStep_body h' hts
        rw [hk₁]
        rfl
      | left => exact absurd rfl hleft
    · rw [h'.rel.waiters, h'.left hleft]

end WakeAll

/-- Thread 1 waits for one tick and thread 2 for ever; the idle thread is current. -/
def timedAndUntimed : List (Op (Fin 3) (Fin 1) Empty) :=
  [.call (.threadInit 1 3 10), .call (.threadInit 2 5 10), .call (.threadStartup 1),
    .call (.threadStartup 2), .call (.semInit 0 0 RT_IPC_FLAG_FIFO), .schedulerStart,
    .semTake 0 1, .semTake 0 (-1)]

/-- The tick times out thread 1, and the loop goes on with thread 2. -/
theorem detach_amid_timeout : ∃ k, runFrom 0 (fun _ _ => True) timedAndUntimed = some k ∧
    ∃ x, loopRun 0 [.code, .handler [[]], .code, .code] (.test, k) = some x ∧ x.1 = .left ∧
      ReadyOnce x.2 1 ∧ (x.2.env.thread 1).error = -RT_ETIMEOUT ∧
      ReadyOnce x.2 2 ∧ (x.2.env.thread 2).error = -RT_ERROR := by
  obtain ⟨k, hk, hreach, hp⟩ := reachable_of_runFrom 0 (fun _ _ => True) timedAndUntimed
    (fun k => decide (k.env.list.next (.head (.suspend 0)) ≠ none) &&
      decide (k.waiters 0 = [1, 2]) &&
      decide (LeavesWaiter 0 [.code, .handler [[]], .code, .code] (.test, k)) &&
      decide (SparesWoken 0 [.code, .handler [[]], .code, .code] [] (.test, k)) &&
      decide (loopWoken 0 [.code, .handler [[]], .code, .code] (.test, k) = [2]) &&
      (loopRun 0 [.code, .handler [[]], .code, .code] (.test, k)).any
        fun x : LoopPoint × RtKernel (Fin 3) (Fin 1) Empty => decide (x.1 = .left))
    (by decide +kernel)
  simp only [Bool.and_eq_true, decide_eq_true_eq, Option.any_eq_true] at hp
  obtain ⟨⟨⟨⟨⟨hs, hwait⟩, hleaves⟩, hspares⟩, hloop⟩, x, hx, hleft⟩ := hp
  have hcalls : CallbacksLeave 0 (k.waiters 0) [.code, .handler [[]], .code, .code] (.test, k) :=
    callbacksLeave_of_forall _ (by simp)
  have hwakes := (detach_amid_ticks hreach hs hcalls hx).mpr ⟨hleaves, hspares⟩
  have h₁ := hwakes.woken 1 (by simp [hwait])
  have h₂ := hwakes.woken 2 (by simp [hwait])
  rw [hwakes.empty hleft, hloop] at h₁ h₂
  simp only [List.not_mem_nil, List.mem_singleton, false_or] at h₁ h₂
  obtain ⟨hready₁, ⟨hne, -⟩ | ⟨-, -, herror₁⟩⟩ := h₁
  · exact absurd hne (by decide)
  · obtain ⟨hready₂, ⟨-, herror₂⟩ | ⟨hne, -⟩⟩ := h₂
    · exact ⟨k, hk, x, hx, hleft, hready₁, herror₁, hready₂, herror₂⟩
    · exact absurd trivial hne

/-- Thread 1 waits alone: the tick empties the list, and the loop takes its head for a
thread. -/
theorem detach_amid_last_timeout :
    ¬ ∀ k : RtKernel (Fin 2) (Fin 1) Empty, Reachable 0 (fun _ _ => True) k →
      ∀ s, k.env.list.next (.head (.suspend s)) ≠ none → ∀ ms x,
        loopRun s ms (.test, k) = some x → WakesWaiters s k ms x := by
  intro hclaim
  obtain ⟨k, -, hreach, hp⟩ := reachable_of_runFrom 0 (fun _ _ => True)
    ([.call (.threadInit 1 3 10), .call (.threadStartup 1),
      .call (.semInit 0 0 RT_IPC_FLAG_FIFO), .schedulerStart, .semTake 0 1] :
        List (Op (Fin 2) (Fin 1) Empty))
    (fun k => decide (k.env.list.next (.head (.suspend 0)) ≠ none) &&
      (loopRun 0 [.code, .handler [[]]] (.test, k)).any
        fun x : LoopPoint × RtKernel (Fin 2) (Fin 1) Empty => decide (x.1 = .body) &&
          decide (x.2.env.list.next (.head (.suspend 0)) = some (.head (.suspend 0))))
    (by decide +kernel)
  simp only [Bool.and_eq_true, decide_eq_true_eq, Option.any_eq_true] at hp
  obtain ⟨hs, x, hx, hbody, hhead⟩ := hp
  obtain ⟨t, -, hentry⟩ := (hclaim k hreach 0 hs _ x hx).entry hbody
  rw [hhead] at hentry
  cases hentry

end SampleRtos
