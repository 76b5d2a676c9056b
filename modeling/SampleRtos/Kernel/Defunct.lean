import SampleRtos.Kernel.Unlisted

/-!
# The list of defunct threads

`rt_thread_delete`, and `rt_thread_detach` of a thread with a cleanup function,
end by linking the thread behind the head `rt_thread_defunct`. No initialisation
ever makes that head a list: its links stay null from the zeroed memory on, the
first insertion dereferences them, and no list operation repairs them, because
no link of any node leads to it.
-/

namespace SampleRtos

open Intrusive

section Defunct
variable {τ σ υ : Type} [DecidableEq τ] [DecidableEq σ] [DecidableEq υ]

/-- `rt_thread_delete`, which always returns `RT_EOK`. -/
def rtThreadDelete (k : RtKernel τ σ υ) (t : τ) : Option (RtKernel τ σ υ) := do
  let k ←
    (if (k.env.thread t).stat ≠ .init then k.onSched fun e => rtScheduleRemoveThread e t
      else some k)
  let k ← k.onTimers fun tm => rtTimerDetach tm (threadTimer t)
  let k := { k with env := k.env.setStat t .close }
  let l ← rtListInsertAfter k.env.list (.head .defunct) (.item t)
  return { k with env := { k.env with list := l } }

/-- The operations of a program that also deletes threads and stores cleanup
functions. -/
inductive DefunctOp (τ σ υ : Type) where
  | op (o : Op τ σ υ)
  | threadDelete (t : τ)
  | setCleanup (t : τ) (cleanup : Bool)

def DefunctOp.exec [Fintype τ] [Fintype υ] (k : RtKernel τ σ υ) :
    DefunctOp τ σ υ → Option (RtKernel τ σ υ)
  | .op o => o.exec k
  | .threadDelete t => rtThreadDelete k t
  | .setCleanup t cleanup =>
      some { k with env := k.env.setThread t { k.env.thread t with cleanup := cleanup } }

/-- The states reached from initialisation by whatever operations, under no discipline. -/
def DefunctReachable [Fintype τ] [Fintype υ] (idle : τ) (k : RtKernel τ σ υ) : Prop :=
  ∃ k₀ ∈ boot idle, Run.Reach DefunctOp.exec (fun _ _ => True) k₀ k

/-! ## The head is never initialised -/

/-- The defunct head is null and no link of the thread lists leads to it. -/
abbrev NoDefunct (k : RtKernel τ σ υ) : Prop :=
  PassedBy (.head .defunct) none (fun _ => True) k

section
omit [DecidableEq σ]

theorem watch_defunct :
    TimerWatch (υ := υ) (.head .defunct : ThreadNode τ σ) (fun _ => True) (fun _ => True)
      fun _ => True :=
  ⟨linksRule_true, fun _ => trivial, fun _ _ => trivial⟩

end

namespace NoDefunct
variable {k k' : RtKernel τ σ υ} {t : τ}

section
omit [DecidableEq υ]

theorem removed (h : NoDefunct k)
    (hrem : (if (k.env.thread t).stat ≠ .init then
      k.onSched fun e => rtScheduleRemoveThread e t else some k) = some k') :
    NoDefunct k' ∧ k'.env.thread = k.env.thread := by
  split at hrem
  · obtain ⟨e, he, hret⟩ := Option.bind_eq_some_iff.mp hrem
    cases hret
    obtain ⟨hby, -⟩ := PassesBy.removeThread h.env (by simp) he
    refine ⟨⟨hby, h.callbacks, trivial⟩, ?_⟩
    obtain ⟨l, -, he⟩ := Option.bind_eq_some_iff.mp he
    dsimp only at he
    split at he <;> cases he <;> rfl
  · cases hrem
    exact ⟨h, rfl⟩

end

/-- Up to the insertion, deleting and detaching leave the other threads alone. -/
theorem closed {k₁ k₂ : RtKernel τ σ υ} (h : NoDefunct k)
    (hrem : (if (k.env.thread t).stat ≠ .init then
      k.onSched fun e => rtScheduleRemoveThread e t else some k) = some k₁)
    (htimer : (k₁.onTimers fun tm => rtTimerDetach tm (threadTimer t)) = some k₂) :
    Apart (k₂.env.setStat t .close).list (.head .defunct) none ∧
      ((k₂.env.setStat t .close).thread t).cleanup = (k.env.thread t).cleanup := by
  obtain ⟨h₁, hthread⟩ := h.removed hrem
  obtain ⟨m, -, hret⟩ := Option.bind_eq_some_iff.mp htimer
  cases hret
  refine ⟨h₁.env.apart, ?_⟩
  show (Function.update k₁.env.thread t _ t).cleanup = _
  rw [Function.update_self, hthread]

/-- No thread is ever deleted: the insertion dereferences the null head. -/
theorem threadDelete (h : NoDefunct k) : rtThreadDelete k t = none := by
  refine Option.eq_none_iff_forall_ne_some.mpr fun k' hrun => ?_
  obtain ⟨k₁, hrem, hrun⟩ := Option.bind_eq_some_iff.mp hrun
  obtain ⟨k₂, htimer, hrun⟩ := Option.bind_eq_some_iff.mp hrun
  obtain ⟨l, hins, -⟩ := Option.bind_eq_some_iff.mp hrun
  cases (h.closed hrem htimer).1.insertAfter_null.symm.trans hins

/-- Neither is a thread with a cleanup function ever detached. -/
theorem threadDetach (h : NoDefunct k) (hcleanup : (k.env.thread t).cleanup = true) :
    rtThreadDetach k t = none := by
  refine Option.eq_none_iff_forall_ne_some.mpr fun k' hrun => ?_
  obtain ⟨k₁, hrem, hrun⟩ := Option.bind_eq_some_iff.mp hrun
  obtain ⟨k₂, htimer, hrun⟩ := Option.bind_eq_some_iff.mp hrun
  obtain ⟨hnull, hsame⟩ := h.closed hrem htimer
  dsimp only at hrun
  split at hrun
  · rename_i hplain
    exact hplain.2 (hsame.trans hcleanup)
  · obtain ⟨l, hins, -⟩ := Option.bind_eq_some_iff.mp hrun
    cases hnull.insertAfter_null.symm.trans hins

theorem exec [Fintype τ] [Fintype υ] {o : DefunctOp τ σ υ} (h : NoDefunct k)
    (hrun : o.exec k = some k') : NoDefunct k' := by
  cases o with
  | op o =>
    have hmiss : o.Misses (.head .defunct) := by
      cases o with
      | call c => exact c.misses_head _
      | tickIncrease script => exact fun _ _ c _ => c.misses_head _
      | _ => trivial
    exact (RunsPast.exec watch_defunct (fun _ => rfl) h outside_defunct hmiss (by simp) hrun).passed
  | threadDelete t => cases h.threadDelete.symm.trans hrun
  | setCleanup t cleanup =>
    cases hrun
    exact ⟨⟨h.env.apart, h.env.current⟩, h.callbacks, trivial⟩

end NoDefunct

theorem systemInit_noDefunct : NoDefunct (systemInit : RtKernel τ σ υ) := by
  have hfold : ∀ (ps : List Nat) (m : ThreadLinks τ σ), Apart m (.head .defunct) none →
      Apart (ps.foldl (fun l p => rtListInit l (.head (.ready p))) m) (.head .defunct) none := by
    intro ps
    induction ps with
    | nil => exact fun m h => h
    | cons p ps ih => exact fun m h => ih _ (h.init (by simp))
  refine ⟨⟨hfold _ _ ⟨rfl, rfl, fun n _ => ?_, fun n _ => ?_⟩, fun t ht => (by cases ht)⟩,
    fun x t hx => (by cases hx), trivial⟩
  · exact (Option.some_ne_none _).symm
  · exact (Option.some_ne_none _).symm

theorem DefunctReachable.noDefunct [Fintype τ] [Fintype υ] {idle : τ} {k : RtKernel τ σ υ}
    (hk : DefunctReachable idle k) : NoDefunct k := by
  obtain ⟨k₀, hboot, hrun⟩ := hk
  refine Run.invariant (fun k o k' h _ hs => NoDefunct.exec h hs) ?_ hrun
  have h₀ : NoDefunct (systemInit : RtKernel τ σ υ) := systemInit_noDefunct
  have hinit := (RunsPast.threadInit watch_defunct h₀ (t := idle) (by simp)
    (RT_THREAD_PRIORITY_MAX - 1) 1).passed
  have hstart := RunsPast.onSched (f := fun e => rtThreadStartup e idle) hinit hboot
    fun _ he => PassesBy.startup hinit.env outside_defunct (by simp) he
  exact hstart.passed

/-- **`rt_thread_defunct` is never initialised.** Whatever a program has done since
initialisation, the head is not a ring, and every deletion, as well as every detach of
a thread with a cleanup function, dereferences its null link. -/
theorem defunct_uninitialised [Fintype τ] [Fintype υ] {idle : τ} {k : RtKernel τ σ υ}
    (hk : DefunctReachable idle k) :
    (∀ ts, ¬ Ring k.env.list .defunct ts) ∧ (∀ t, rtThreadDelete k t = none) ∧
      ∀ t, (k.env.thread t).cleanup = true → rtThreadDetach k t = none := by
  have hnull := hk.noDefunct
  refine ⟨fun ts hring => ?_, fun t => hnull.threadDelete, fun t => hnull.threadDetach⟩
  obtain ⟨n, -, hnext, hprev⟩ := hring.exists_prev (List.mem_cons_self ..)
  cases hnull.env.apart.own_prev.symm.trans hprev

theorem NoDefunct.tick [Fintype τ] [Fintype υ] {k k' : RtKernel τ σ υ} (h : NoDefunct k)
    {script : List (List (Call τ σ υ))} (hrun : kernelTick script k = some k') : NoDefunct k' :=
  h.exec (o := .op (.tickIncrease script)) hrun

/-- A run under the usual discipline is a run. -/
theorem Reachable.defunct [Fintype τ] [Fintype υ] {idle : τ}
    {ok : RtKernel τ σ υ → Op τ σ υ → Prop} {k : RtKernel τ σ υ} (hk : Reachable idle ok k) :
    DefunctReachable idle k := by
  obtain ⟨k₀, hboot, hrun⟩ := hk
  refine ⟨k₀, hboot, ?_⟩
  refine Run.invariant (I := Run.Reach DefunctOp.exec (fun _ _ => True) k₀) ?_ .refl hrun
  intro k op k' h _ hs
  exact Run.Reach.snoc (o := .op op) h trivial hs

end Defunct

/-- Initialisation followed by a list of operations. -/
def runDefunct (ops : List (DefunctOp (Fin 2) (Fin 1) Empty)) :
    Option (RtKernel (Fin 2) (Fin 1) Empty) := do
  let k ← boot 0
  Run.exec DefunctOp.exec (fun _ _ => True) ops k

theorem defunctReachable_of_run {ops : List (DefunctOp (Fin 2) (Fin 1) Empty)}
    {k : RtKernel (Fin 2) (Fin 1) Empty} (h : runDefunct ops = some k) :
    DefunctReachable 0 k := by
  unfold runDefunct at h
  obtain ⟨k₀, hboot, hrun⟩ := Option.bind_eq_some_iff.mp h
  exact ⟨k₀, hboot, Run.exec_reach hrun⟩

/-- Thread 1 is started and has a cleanup function. -/
theorem started_with_cleanup : ∃ k, runDefunct [.op (.call (.threadInit 1 5 10)),
      .op (.call (.threadStartup 1)), .setCleanup 1 true] = some k ∧
    (∀ ts, ¬ Ring k.env.list .defunct ts) ∧ (∀ t, rtThreadDelete k t = none) ∧
      rtThreadDetach k 1 = none := by
  obtain ⟨k, hk, hcleanup⟩ := Option.map_eq_some_iff.mp
    (show (runDefunct [.op (.call (.threadInit 1 5 10)), .op (.call (.threadStartup 1)),
        .setCleanup 1 true]).map (fun k => (k.env.thread 1).cleanup) = some true by decide +kernel)
  obtain ⟨hring, hdelete, hdetach⟩ := defunct_uninitialised (defunctReachable_of_run hk)
  exact ⟨k, hk, hring, hdelete, hdetach 1 hcleanup⟩

/-- Thread 1 has been started and is deleted: its node is to go behind a null head. -/
theorem delete_dereferences_null :
    ¬ ∀ (k : RtKernel (Fin 2) (Fin 1) Empty) t, DefunctReachable 0 k →
      (k.env.thread t).stat = .ready →
        ∃ k', rtThreadDelete k t = some k' ∧ Ring k'.env.list .defunct [t] := by
  intro hclaim
  obtain ⟨k, hrun, hstat⟩ := Option.map_eq_some_iff.mp
    (show (runDefunct [.op (.call (.threadInit 1 5 10)), .op (.call (.threadStartup 1))]).map
      (fun k => decide ((k.env.thread 1).stat = .ready)) = some true by decide +kernel)
  have hk := defunctReachable_of_run hrun
  obtain ⟨k', hdelete, -⟩ := hclaim k 1 hk (of_decide_eq_true hstat)
  cases hk.noDefunct.threadDelete.symm.trans hdelete

end SampleRtos
