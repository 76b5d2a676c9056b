import SampleRtos.Sched.Step

/-!
# Waking all waiters

What the loop of `rt_ipc_list_resume_all` leaves of each thread, each ready list and each
waiting list, and that it comes to its end.
-/

namespace SampleRtos

open Intrusive

section FailAll
variable {τ σ : Type} [DecidableEq τ] [DecidableEq σ]
  {a : SchedSys τ σ (ThreadRings τ σ)} {s : σ} {t : τ} {ts : List τ}

@[simp] theorem failAll_sem (ts : List τ) : ∀ a : SchedSys τ σ (ThreadRings τ σ),
    (a.failAll ts).sem = a.sem := by
  induction ts with
  | nil => exact fun _ => rfl
  | cons t ts ih => exact fun a => ih _

@[simp] theorem failAll_live (ts : List τ) : ∀ a : SchedSys τ σ (ThreadRings τ σ),
    (a.failAll ts).list.live = a.list.live := by
  induction ts with
  | nil => exact fun _ => rfl
  | cons t ts ih => exact fun a => ih _

theorem failAll_thread_of_not_mem {u : τ} (hu : u ∉ ts) :
    ∀ a : SchedSys τ σ (ThreadRings τ σ), (a.failAll ts).thread u = a.thread u := by
  induction ts with
  | nil => exact fun _ => rfl
  | cons t ts ih =>
    intro a
    have hut : u ≠ t := fun hut => hu (by simp [hut])
    rw [SchedSys.failAll, List.foldl_cons, ← SchedSys.failAll,
      ih fun hmem => hu (List.mem_cons_of_mem _ hmem)]
    simp [hut]

theorem failAll_thread_of_mem {u : τ} (hnd : ts.Nodup) (hu : u ∈ ts) :
    ∀ a : SchedSys τ σ (ThreadRings τ σ), (a.failAll ts).thread u = (a.thread u).failed := by
  induction ts with
  | nil => cases hu
  | cons t ts ih =>
    intro a
    obtain ⟨ht, hnd⟩ := List.nodup_cons.mp hnd
    rw [SchedSys.failAll, List.foldl_cons, ← SchedSys.failAll]
    rcases List.mem_cons.mp hu with rfl | hu
    · rw [failAll_thread_of_not_mem ht]
      simp
    · have hut : u ≠ t := fun hut => ht (hut ▸ hu)
      rw [ih hnd hu]
      simp [hut]

/-- Each goes behind those already ready at its priority. -/
theorem failAll_readyList (p : Nat) (ts : List τ) :
    ∀ {a : SchedSys τ σ (ThreadRings τ σ)}, SchedWf a → a.waiters s = ts →
      (a.failAll ts).readyList p =
        a.readyList p ++ ts.filter fun t => (a.thread t).currentPriority = p := by
  induction ts with
  | nil =>
    intro a _ _
    exact (List.append_nil _).symm
  | cons t ts ih =>
    intro a hw hts
    have hst : (a.thread t).stat = .suspend := hw.waiting t s (by simp [hts])
    obtain ⟨hw₁, hts₁⟩ := failOne_wf hw hts
    have hready : (a.readyList p).erase t = a.readyList p :=
      List.erase_of_not_mem fun ht => by
        have hst' := ((hw.ready_iff t p).mp ht).1
        rw [hst] at hst'
        cases hst'
    have hprio : ∀ u, ((a.relistReady t (a.thread t).failed).thread u).currentPriority =
        (a.thread u).currentPriority := by
      intro u
      by_cases hut : u = t
      · subst hut
        simp [RtThread.failed]
      · simp [hut]
    rw [SchedSys.failAll, List.foldl_cons, ← SchedSys.failAll, ih hw₁ hts₁,
      SchedSys.relistReady_readyList, hready]
    simp only [hprio]
    by_cases hp : p = (a.thread t).currentPriority
    · subst hp
      simp [RtThread.failed]
    · have hp' : ¬ (a.thread t).currentPriority = p := fun h => hp h.symm
      simp [RtThread.failed, hp, hp']

/-- Those who wait elsewhere go on waiting. -/
theorem failAll_waiters {q : σ} (hq : q ≠ s) (ts : List τ) :
    ∀ {a : SchedSys τ σ (ThreadRings τ σ)}, SchedWf a → a.waiters s = ts →
      (a.failAll ts).waiters q = a.waiters q := by
  induction ts with
  | nil => exact fun _ _ => rfl
  | cons t ts ih =>
    intro a hw hts
    obtain ⟨hw₁, hts₁⟩ := failOne_wf hw hts
    have hnot : t ∉ a.waiters q := by
      intro ht
      have hmem : t ∈ a.waiters s := by simp [hts]
      have hhead : ThreadHead.suspend q = .suspend s := hw.valid.disjoint ht hmem
      exact hq (ThreadHead.suspend.inj hhead)
    rw [SchedSys.failAll, List.foldl_cons, ← SchedSys.failAll, ih hw₁ hts₁,
      SchedSys.relistReady_waiters, List.erase_of_not_mem hnot]

/-- Waking one waiter with an error succeeds. -/
theorem failOne_eq (hw : SchedWf a) (hst : (a.thread t).stat = .suspend) :
    Abs.resume (a.setError t (-RT_ERROR)) t =
      some (RT_EOK, a.relistReady t (a.thread t).failed) := by
  have hw' : SchedWf (a.setError t (-RT_ERROR)) := hw.setThread rfl rfl rfl rfl
  rw [resume_eq hw' (by simpa [SchedSys.setError] using hst), SchedSys.setError,
    relistReady_setThread]
  simp [RtThread.failed]

/-- The loop of `rt_ipc_list_resume_all` comes to its end. -/
theorem ipcResumeAll_eq (ts : List τ) : ∀ {a : SchedSys τ σ (ThreadRings τ σ)} {fuel : Nat},
    SchedWf a → a.list.live (.head (.suspend s)) = true → a.waiters s = ts → ts.length < fuel →
    Abs.ipcResumeAll s fuel a = some (a.failAll ts) := by
  induction ts with
  | nil =>
    intro a fuel _ hhead hts hlen
    cases fuel with
    | zero => cases hlen
    | succ fuel =>
      have hseq : a.list.seq (.suspend s) = [] := hts
      rw [Abs.ipcResumeAll, if_pos (by simp [isEmpty, hhead, hseq])]
      rfl
  | cons t ts ih =>
    intro a fuel hw hhead hts hlen
    cases fuel with
    | zero => cases hlen
    | succ fuel =>
      have hst : (a.thread t).stat = .suspend := hw.waiting t s (by simp [hts])
      obtain ⟨hw₁, hts₁⟩ := failOne_wf hw hts
      have hseq : a.list.seq (.suspend s) = t :: ts := hts
      rw [Abs.ipcResumeAll, if_neg (by simp [isEmpty, hseq]), hts]
      simp only [List.head?_cons, Option.bind_eq_bind, Option.bind_some, failOne_eq hw hst]
      exact ih hw₁ hhead hts₁ (by simpa using hlen)

end FailAll

end SampleRtos
