import SampleRtos.Kernel.Refine

/-!
# The ready queue

In every reachable state of the linked kernel the bitmap, the 32 ready lists
and the fields of the threads agree. The lists are read off the links: `Ring`
follows them forward and backward from a head, and determines the threads met.
-/

namespace SampleRtos

open Intrusive

section ReadyTable
variable {τ σ υ : Type} [DecidableEq τ] [DecidableEq σ] [DecidableEq υ]

/-- The links under a list head run through `ts` and back, in both directions. -/
abbrev ThreadRing (k : RtKernel τ σ υ) (hd : ThreadHead σ) (ts : List τ) : Prop :=
  Ring k.env.list hd ts

variable {k : RtKernel τ σ υ} {a : SeqKernel τ σ υ}

/-- A ring found in the links is the sequence they stand for. -/
theorem ThreadRing.eq_seq (h : KernelRel k a) {hd : ThreadHead σ} {ts : List τ}
    (hring : ThreadRing k hd ts) : a.env.list.live (.head hd) = true ∧ ts = a.env.list.seq hd := by
  have hlive : a.env.list.live (.head hd) = true := by
    by_contra hdead
    have hnull := (h.env.rep.null (.head hd) (by simpa using hdead)).1
    have hs : ts = [] ++ ts := rfl
    have hnext := (ring_cut.mp (hs ▸ hring)).2.2.1
    simp [hnull] at hnext
  exact ⟨hlive, Ring.unique hring (h.env.rep.ring hd hlive)⟩

theorem threadRing_ready (h : KernelRel k a) (hw : SchedWf a.env) {p : Nat}
    (hp : p < RT_THREAD_PRIORITY_MAX) : ThreadRing k (.ready p) (a.env.readyList p) :=
  h.env.rep.ring _ ((hw.head_live p).mpr hp)

/-- A ready thread is on its ready list once, with its mask, and on no other list. -/
theorem ready_occurs (h : KernelRel k a) (hw : SchedWf a.env) {t : τ}
    (ht : (k.env.thread t).stat = .ready) :
    (a.env.readyList (k.env.thread t).currentPriority).count t = 1 ∧
      (k.env.thread t).numberMask = 1#32 <<< (k.env.thread t).currentPriority ∧
      ∀ hd ts, ThreadRing k hd ts → t ∈ ts →
        hd = .ready (k.env.thread t).currentPriority := by
  rw [h.env.thread] at ht ⊢
  have hmem := hw.mem_ready ht
  refine ⟨List.count_eq_one_of_mem (hw.valid.nodup _) hmem, hw.mask_eq (.inl ht), ?_⟩
  intro hd ts hring hts
  obtain ⟨-, rfl⟩ := hring.eq_seq h
  exact hw.valid.disjoint hts hmem

/-- **The ready queue.** Whatever has been performed, bit `p` of the group is set
exactly when the list of `p` is not empty, and a thread is ready exactly when it
is on the list of its priority, once, with the mask of that priority; it is then
on no other list. -/
theorem ready_queue_invariant [Fintype τ] [Fintype υ] {idle : τ}
    {ok : RtKernel τ σ υ → Op τ σ υ → Prop} (hk : Reachable idle ok k) :
    ∃ table : Nat → List τ,
      (∀ p < RT_THREAD_PRIORITY_MAX, ThreadRing k (.ready p) (table p)) ∧
      (∀ p < RT_THREAD_PRIORITY_MAX,
        k.env.rtThreadReadyPriorityGroup.getLsbD p = true ↔ table p ≠ []) ∧
      ∀ t, (k.env.thread t).currentPriority < RT_THREAD_PRIORITY_MAX ∧
        ((k.env.thread t).stat = .ready ↔
          (table (k.env.thread t).currentPriority).count t = 1 ∧
            (k.env.thread t).numberMask = 1#32 <<< (k.env.thread t).currentPriority) ∧
        ((k.env.thread t).stat = .ready → ∀ hd ts, ThreadRing k hd ts → t ∈ ts →
          hd = .ready (k.env.thread t).currentPriority) := by
  obtain ⟨a, h, hw, -⟩ := hk.invariant (I := fun _ => True) (fun _ _ _ => trivial)
    fun _ _ _ _ _ _ _ _ _ _ => trivial
  refine ⟨a.env.readyList, fun p hp => threadRing_ready h hw.sched hp, fun p hp => ?_,
    fun t => ⟨?_, ⟨fun ht => ?_, fun hcount => ?_⟩, fun ht => (ready_occurs h hw.sched ht).2.2⟩⟩
  · rw [h.env.group]
    exact hw.sched.group p hp
  · rw [h.env.thread]
    exact hw.sched.prio_lt t
  · obtain ⟨hcount, hmask, -⟩ := ready_occurs h hw.sched ht
    exact ⟨hcount, hmask⟩
  · have hmem : t ∈ a.env.readyList (k.env.thread t).currentPriority :=
      List.count_pos_iff.mp (by omega)
    rw [h.env.thread]
    exact ((hw.sched.ready_iff t _).mp hmem).1

/-- Two threads started beside the idle thread, one of them waiting with a
timeout that a tick ends. -/
def waitAndTimeOut : List (Op (Fin 3) (Fin 1) (Fin 1)) :=
  [.call (.threadInit 1 3 10), .call (.threadInit 2 5 10), .call (.threadStartup 1),
    .call (.threadStartup 2), .call (.semInit 0 0 0), .schedulerStart, .semTake 0 1,
    .tickIncrease [[]]]

theorem ready_queue_after_timeout : ∃ k, runFrom 0 (fun _ _ => True) waitAndTimeOut = some k ∧
    ∃ table : Nat → List (Fin 3),
      (∀ p < RT_THREAD_PRIORITY_MAX, ThreadRing k (.ready p) (table p)) ∧
      (∀ p < RT_THREAD_PRIORITY_MAX,
        k.env.rtThreadReadyPriorityGroup.getLsbD p = true ↔ table p ≠ []) := by
  obtain ⟨k, hk, hreach, -⟩ := reachable_of_runFrom 0 (fun _ _ => True) waitAndTimeOut
    (fun _ => true) (by decide +kernel)
  obtain ⟨table, hring, hbit, -⟩ := ready_queue_invariant hreach
  exact ⟨k, hk, table, hring, hbit⟩

end ReadyTable

end SampleRtos
