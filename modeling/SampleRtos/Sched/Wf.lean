import SampleRtos.Sched.Seq

/-!
# The scheduling invariant

`SchedWf` ties the ready lists, the waiting lists, the bitmap and the fields of
every thread together. Whatever the kernel does to the lists is one of four
moves: a thread goes to the end of its ready list (`relistReady`), leaves every
list (`unlist`), joins a waiting list (`SchedWf.join`), or a node or head that
lists nothing is initialised (`SchedWf.mark`).
-/

namespace SampleRtos

open Intrusive

section Wf
variable {τ σ : Type}

/-- The mask of a thread is the bit of its priority, or nothing before its first
start and after the end. -/
def RtThread.MaskOk (r : RtThread) : Prop :=
  r.numberMask = 1#32 <<< r.currentPriority ∨
    (r.numberMask = 0 ∧ (r.stat = .init ∨ r.stat = .close))

structure SchedWf (a : SchedSys τ σ (ThreadRings τ σ)) : Prop where
  valid : a.list.Valid
  head_live : ∀ p, a.list.live (.head (.ready p)) = true ↔ p < RT_THREAD_PRIORITY_MAX
  defunct : a.list.live (.head .defunct) = false
  ready_iff : ∀ t p, t ∈ a.readyList p ↔
    (a.thread t).stat = .ready ∧ (a.thread t).currentPriority = p
  waiting : ∀ t s, t ∈ a.waiters s → (a.thread t).stat = .suspend
  init_prio : ∀ t, (a.thread t).initPriority = (a.thread t).currentPriority
  prio_lt : ∀ t, (a.thread t).currentPriority < RT_THREAD_PRIORITY_MAX
  mask : ∀ t, (a.thread t).MaskOk
  group : ∀ p < RT_THREAD_PRIORITY_MAX,
    a.rtThreadReadyPriorityGroup.getLsbD p = true ↔ a.readyList p ≠ []
  live : ∀ t, (a.thread t).stat ≠ .init → a.list.live (.item t) = true

/-- What holds of every record and of the new one holds after an update. -/
theorem forall_update [DecidableEq τ] {P : RtThread → Prop} {f : τ → RtThread} {t : τ}
    {r : RtThread} (hr : P r) (h : ∀ u, P (f u)) : ∀ u, P (Function.update f t r u) :=
  (Function.forall_update_iff f fun _ => P).mpr ⟨hr, fun u _ => h u⟩

theorem getLsbD_one_shiftLeft {p q : Nat} (hq : q < 32) :
    (1#32 <<< p).getLsbD q = decide (q = p) := by
  rw [BitVec.getLsbD_shiftLeft]
  rcases Nat.lt_trichotomy q p with h | rfl | h
  · simp [h, Nat.ne_of_lt h]
  · simp [hq]
  · have hne : q - p ≠ 0 := by omega
    simp [hne, Nat.ne_of_gt h]

namespace SchedWf
variable {a a' : SchedSys τ σ (ThreadRings τ σ)}

/-- The invariant reads nothing but the threads, the lists and the bitmap. -/
theorem congr (h : SchedWf a) (hthread : a'.thread = a.thread) (hlist : a'.list = a.list)
    (hgroup : a'.rtThreadReadyPriorityGroup = a.rtThreadReadyPriorityGroup) : SchedWf a' := by
  constructor <;>
    simp only [SchedSys.readyList, SchedSys.waiters, hthread, hlist, hgroup]
  · exact h.valid
  · exact h.head_live
  · exact h.defunct
  · exact h.ready_iff
  · exact h.waiting
  · exact h.init_prio
  · exact h.prio_lt
  · exact h.mask
  · exact h.group
  · exact h.live

theorem mem_ready (h : SchedWf a) {t : τ} (ht : (a.thread t).stat = .ready) :
    t ∈ a.readyList (a.thread t).currentPriority :=
  (h.ready_iff t _).mpr ⟨ht, rfl⟩

/-- A started thread has its mask. -/
theorem mask_eq (h : SchedWf a) {t : τ}
    (ht : (a.thread t).stat = .ready ∨ (a.thread t).stat = .suspend) :
    (a.thread t).numberMask = 1#32 <<< (a.thread t).currentPriority := by
  rcases h.mask t with hm | ⟨-, hst⟩
  · exact hm
  · rcases ht with ht | ht <;> simp [ht] at hst

/-- A listed thread is ready or suspended. -/
theorem stat_of_mem (h : SchedWf a) {t : τ} {hd : ThreadHead σ} (ht : t ∈ a.list.seq hd) :
    (a.thread t).stat = .ready ∨ (a.thread t).stat = .suspend := by
  cases hd with
  | ready p => exact .inl ((h.ready_iff t p).mp ht).1
  | suspend s => exact .inr (h.waiting t s ht)
  | defunct =>
    have hlive := h.valid.head_live (List.ne_nil_of_mem ht)
    rw [h.defunct] at hlive
    exact absurd hlive (by simp)

theorem free_of_stat (h : SchedWf a) {t : τ}
    (ht : (a.thread t).stat = .init ∨ (a.thread t).stat = .close) : a.list.Free t := by
  intro hd hmem
  rcases h.stat_of_mem hmem with hst | hst <;> simp [hst] at ht

/-- A thread is on no ready list but that of its priority. -/
theorem prio_of_mem (h : SchedWf a) {t : τ} {p : Nat} (ht : t ∈ a.readyList p) :
    p = (a.thread t).currentPriority :=
  ((h.ready_iff t p).mp ht).2.symm

end SchedWf

variable [DecidableEq τ] [DecidableEq σ]

/-! ## Fields that the invariant does not read -/

section
omit [DecidableEq σ]

@[simp] theorem SchedSys.setThread_thread {L : Type} (k : SchedSys τ σ L) (t : τ) (r : RtThread) :
    (k.setThread t r).thread = Function.update k.thread t r := rfl

@[simp] theorem SchedSys.setThread_readyList (a : SchedSys τ σ (ThreadRings τ σ)) (t : τ)
    (r : RtThread) : (a.setThread t r).readyList = a.readyList := rfl

@[simp] theorem SchedSys.setThread_waiters (a : SchedSys τ σ (ThreadRings τ σ)) (t : τ)
    (r : RtThread) : (a.setThread t r).waiters = a.waiters := rfl

theorem SchedWf.setThread {a : SchedSys τ σ (ThreadRings τ σ)} (h : SchedWf a) {t : τ}
    {r : RtThread} (hstat : r.stat = (a.thread t).stat)
    (hprio : r.currentPriority = (a.thread t).currentPriority)
    (hinit : r.initPriority = (a.thread t).initPriority)
    (hmask : r.numberMask = (a.thread t).numberMask) : SchedWf (a.setThread t r) := by
  have hf : ∀ {β : Type} (f : RtThread → β), f r = f (a.thread t) →
      ∀ u, f ((a.setThread t r).thread u) = f (a.thread u) := by
    intro β f hfr u
    by_cases hu : u = t
    · subst hu; simp [hfr]
    · simp [hu]
  have hst := hf (·.stat) hstat
  have hcp := hf (·.currentPriority) hprio
  have hip := hf (·.initPriority) hinit
  have hm := hf (·.numberMask) hmask
  constructor
  · exact h.valid
  · exact h.head_live
  · exact h.defunct
  · intro u p; rw [hst, hcp]; exact h.ready_iff u p
  · intro u s hu; rw [hst]; exact h.waiting u s hu
  · intro u; rw [hip, hcp]; exact h.init_prio u
  · intro u; rw [hcp]; exact h.prio_lt u
  · intro u; rw [RtThread.MaskOk, hm, hcp, hst]; exact h.mask u
  · exact h.group
  · intro u hu; rw [hst] at hu; exact h.live u hu

/-- A thread that is not ready may be taken off whatever list it is on. -/
theorem SchedWf.drop {a : SchedSys τ σ (ThreadRings τ σ)} (h : SchedWf a) {t : τ}
    (hst : (a.thread t).stat ≠ .ready) : SchedWf { a with list := a.list.erase t } := by
  have hready : ∀ p, (a.list.erase t).seq (.ready p) = a.readyList p := fun p =>
    List.erase_of_not_mem fun ht => hst ((h.ready_iff t p).mp ht).1
  constructor <;> simp only [SchedSys.readyList, SchedSys.waiters, hready]
  · exact h.valid.erase t
  · exact h.head_live
  · exact h.defunct
  · exact h.ready_iff
  · exact fun u s hu => h.waiting u s (List.mem_of_mem_erase hu)
  · exact h.init_prio
  · exact h.prio_lt
  · exact h.mask
  · exact h.group
  · exact h.live

end

/-! ## To the end of the ready list -/

namespace SchedSys

/-- The thread `t`, with the record `r`, moved to the end of its ready list. -/
def relistReady (a : SchedSys τ σ (ThreadRings τ σ)) (t : τ) (r : RtThread) :
    SchedSys τ σ (ThreadRings τ σ) :=
  { a with
    thread := Function.update a.thread t r
    list := (a.list.erase t).setSeq (.ready r.currentPriority)
      ((a.readyList r.currentPriority).erase t ++ [t])
    rtThreadReadyPriorityGroup := a.rtThreadReadyPriorityGroup ||| r.numberMask }

variable (a : SchedSys τ σ (ThreadRings τ σ)) (t : τ) (r : RtThread)

@[simp] theorem relistReady_thread :
    (a.relistReady t r).thread = Function.update a.thread t r := rfl

@[simp] theorem relistReady_sem : (a.relistReady t r).sem = a.sem := rfl

@[simp] theorem relistReady_current :
    (a.relistReady t r).rtCurrentThread = a.rtCurrentThread := rfl

@[simp] theorem relistReady_lockNest :
    (a.relistReady t r).rtSchedulerLockNest = a.rtSchedulerLockNest := rfl

@[simp] theorem relistReady_live : (a.relistReady t r).list.live = a.list.live := rfl

theorem relistReady_readyList (p : Nat) :
    (a.relistReady t r).readyList p =
      if p = r.currentPriority then (a.readyList p).erase t ++ [t]
      else (a.readyList p).erase t := by
  simp only [relistReady, readyList, Rings.setSeq_seq, ThreadHead.ready.injEq, Rings.erase_seq]
  split
  · rename_i hp; rw [hp]
  · rfl

@[simp] theorem relistReady_waiters (s : σ) :
    (a.relistReady t r).waiters s = (a.waiters s).erase t := by
  simp [relistReady, waiters, Rings.setSeq_seq]

end SchedSys

theorem SchedWf.relistReady {a : SchedSys τ σ (ThreadRings τ σ)} (h : SchedWf a) {t : τ}
    {r : RtThread} (hlive : a.list.live (.item t) = true) (hstat : r.stat = .ready)
    (hprio : r.currentPriority = (a.thread t).currentPriority)
    (hinit : r.initPriority = (a.thread t).initPriority)
    (hmask : r.numberMask = 1#32 <<< r.currentPriority) : SchedWf (a.relistReady t r) := by
  have hlt : r.currentPriority < RT_THREAD_PRIORITY_MAX := hprio ▸ h.prio_lt t
  have hne : ∀ u, u ≠ t → (a.relistReady t r).thread u = a.thread u := fun u hu => by simp [hu]
  have hself : (a.relistReady t r).thread t = r := by simp
  constructor
  · have hv := (h.valid.erase t).insert (List.append_nil _).symm (h.valid.erase_free t) hlive
      ((h.head_live r.currentPriority).mpr hlt)
    exact hv
  · exact h.head_live
  · exact h.defunct
  · intro u p
    rw [SchedSys.relistReady_readyList]
    by_cases hu : u = t
    · subst hu
      rw [hself]
      by_cases hp : p = r.currentPriority
      · simp [hp, hstat]
      · simp [hp, Ne.symm hp, (h.valid.nodup (.ready p)).not_mem_erase, SchedSys.readyList]
    · rw [hne u hu, ← h.ready_iff u p]
      split <;> simp [List.mem_erase_of_ne hu, hu]
  · intro u s hu
    rw [SchedSys.relistReady_waiters] at hu
    have hut : u ≠ t := by
      rintro rfl
      exact (h.valid.nodup (.suspend s)).not_mem_erase hu
    rw [hne u hut]
    exact h.waiting u s (List.mem_of_mem_erase hu)
  · exact forall_update (P := fun r => r.initPriority = r.currentPriority)
      (by rw [hinit, hprio]; exact h.init_prio t) h.init_prio
  · exact forall_update (P := fun r => r.currentPriority < _) hlt h.prio_lt
  · exact forall_update (P := RtThread.MaskOk) (.inl hmask) h.mask
  · intro p hp
    have hbit : (a.relistReady t r).rtThreadReadyPriorityGroup.getLsbD p =
        (a.rtThreadReadyPriorityGroup.getLsbD p || decide (p = r.currentPriority)) := by
      rw [← getLsbD_one_shiftLeft hp, ← hmask, ← BitVec.getLsbD_or]
      rfl
    rw [hbit, SchedSys.relistReady_readyList]
    by_cases hpr : p = r.currentPriority
    · simp [hpr]
    · -- `t` was on no other ready list
      have hnot : t ∉ a.readyList p := fun ht => hpr (hprio ▸ h.prio_of_mem ht)
      simpa [hpr, List.erase_of_not_mem hnot] using h.group p hp
  · intro u hu
    by_cases hut : u = t
    · subst hut; exact hlive
    · rw [hne u hut] at hu; exact h.live u hu

/-! ## Off every list -/

namespace SchedSys

/-- The thread `t`, with the record `r`, taken off whatever list it is on; the
bit of its priority goes when its ready list is left empty. -/
def unlist (a : SchedSys τ σ (ThreadRings τ σ)) (t : τ) (r : RtThread) :
    SchedSys τ σ (ThreadRings τ σ) :=
  { a with
    thread := Function.update a.thread t r
    list := a.list.erase t
    rtThreadReadyPriorityGroup :=
      if (a.readyList r.currentPriority).erase t = [] then
        a.rtThreadReadyPriorityGroup &&& ~~~r.numberMask
      else a.rtThreadReadyPriorityGroup }

variable (a : SchedSys τ σ (ThreadRings τ σ)) (t : τ) (r : RtThread)

section
omit [DecidableEq σ]

@[simp] theorem unlist_thread : (a.unlist t r).thread = Function.update a.thread t r := rfl

@[simp] theorem unlist_sem : (a.unlist t r).sem = a.sem := rfl

@[simp] theorem unlist_current : (a.unlist t r).rtCurrentThread = a.rtCurrentThread := rfl

@[simp] theorem unlist_lockNest :
    (a.unlist t r).rtSchedulerLockNest = a.rtSchedulerLockNest := rfl

@[simp] theorem unlist_live : (a.unlist t r).list.live = a.list.live := rfl

@[simp] theorem unlist_readyList (p : Nat) :
    (a.unlist t r).readyList p = (a.readyList p).erase t := rfl

@[simp] theorem unlist_waiters (s : σ) :
    (a.unlist t r).waiters s = (a.waiters s).erase t := rfl

end

end SchedSys

section
omit [DecidableEq σ]

theorem SchedWf.unlist {a : SchedSys τ σ (ThreadRings τ σ)} (h : SchedWf a) {t : τ}
    {r : RtThread} (hlive : a.list.live (.item t) = true) (hstat : r.stat ≠ .ready)
    (hprio : r.currentPriority = (a.thread t).currentPriority)
    (hinit : r.initPriority = (a.thread t).initPriority)
    (hmask : r.numberMask = (a.thread t).numberMask) (hok : r.MaskOk) :
    SchedWf (a.unlist t r) := by
  have hne : ∀ u, u ≠ t → (a.unlist t r).thread u = a.thread u := fun u hu => by simp [hu]
  have hself : (a.unlist t r).thread t = r := by simp
  constructor
  · exact h.valid.erase t
  · exact h.head_live
  · exact h.defunct
  · intro u p
    rw [SchedSys.unlist_readyList]
    by_cases hu : u = t
    · subst hu
      rw [hself]
      simp [hstat, (h.valid.nodup (.ready p)).not_mem_erase, SchedSys.readyList]
    · rw [hne u hu, ← h.ready_iff u p, List.mem_erase_of_ne hu]
  · intro u s hu
    rw [SchedSys.unlist_waiters] at hu
    have hut : u ≠ t := by
      rintro rfl
      exact (h.valid.nodup (.suspend s)).not_mem_erase hu
    rw [hne u hut]
    exact h.waiting u s (List.mem_of_mem_erase hu)
  · exact forall_update (P := fun r => r.initPriority = r.currentPriority)
      (by rw [hinit, hprio]; exact h.init_prio t) h.init_prio
  · exact forall_update (P := fun r => r.currentPriority < _) (hprio ▸ h.prio_lt t) h.prio_lt
  · exact forall_update (P := RtThread.MaskOk) hok h.mask
  · intro p hp
    have hgroup := h.group p hp
    rw [SchedSys.unlist_readyList]
    by_cases hpr : p = r.currentPriority
    · -- its own priority: the bit goes with the last of the list
      subst hpr
      by_cases hempty : (a.readyList r.currentPriority).erase t = []
      · simp only [SchedSys.unlist, hempty, if_true, ne_eq, not_true_eq_false, iff_false]
        rcases h.mask t with hm | ⟨hm, hst⟩
        · rw [hmask, hm, ← hprio, BitVec.getLsbD_and, BitVec.getLsbD_not,
            getLsbD_one_shiftLeft hp]
          simp
        · -- a thread without a mask is on no list, so the bit was clear before
          have hfree : t ∉ a.readyList r.currentPriority := h.free_of_stat hst _
          rw [List.erase_of_not_mem hfree] at hempty
          have hclear : a.rtThreadReadyPriorityGroup.getLsbD r.currentPriority = false := by
            simpa [hempty] using hgroup
          rw [BitVec.getLsbD_and, hclear]
          simp
      · simp only [SchedSys.unlist, hempty, if_false, ne_eq, not_false_eq_true, iff_true]
        exact hgroup.mpr fun hnil => hempty (by rw [hnil]; rfl)
    · have hnot : t ∉ a.readyList p := fun ht => hpr (hprio ▸ h.prio_of_mem ht)
      have hbit : (a.unlist t r).rtThreadReadyPriorityGroup.getLsbD p =
          a.rtThreadReadyPriorityGroup.getLsbD p := by
        simp only [SchedSys.unlist]
        split
        · rw [BitVec.getLsbD_and, BitVec.getLsbD_not]
          rcases hok with hm | ⟨hm, -⟩
          · rw [hm, getLsbD_one_shiftLeft hp]
            simp [hpr, show p < 32 from hp]
          · rw [hm]
            simp [show p < 32 from hp]
        · rfl
      rw [hbit, List.erase_of_not_mem hnot]
      exact hgroup
  · intro u hu
    by_cases hut : u = t
    · subst hut; exact hlive
    · rw [hne u hut] at hu; exact h.live u hu

end

/-! ## Onto a waiting list -/

namespace SchedSys

def setWaiters (a : SchedSys τ σ (ThreadRings τ σ)) (s : σ) (ts : List τ) :
    SchedSys τ σ (ThreadRings τ σ) :=
  { a with list := a.list.setSeq (.suspend s) ts }

variable (a : SchedSys τ σ (ThreadRings τ σ)) (s : σ) (ts : List τ)

section
omit [DecidableEq τ]

@[simp] theorem setWaiters_thread : (a.setWaiters s ts).thread = a.thread := rfl

@[simp] theorem setWaiters_sem : (a.setWaiters s ts).sem = a.sem := rfl

@[simp] theorem setWaiters_current :
    (a.setWaiters s ts).rtCurrentThread = a.rtCurrentThread := rfl

@[simp] theorem setWaiters_lockNest :
    (a.setWaiters s ts).rtSchedulerLockNest = a.rtSchedulerLockNest := rfl

@[simp] theorem setWaiters_live : (a.setWaiters s ts).list.live = a.list.live := rfl

@[simp] theorem setWaiters_readyList : (a.setWaiters s ts).readyList = a.readyList := by
  funext p; simp [setWaiters, readyList, Rings.setSeq_seq]

theorem setWaiters_waiters (s' : σ) :
    (a.setWaiters s ts).waiters s' = if s' = s then ts else a.waiters s' := by
  simp [setWaiters, waiters, Rings.setSeq_seq]

@[simp] theorem setWaiters_waiters_self : (a.setWaiters s ts).waiters s = ts := by
  simp [setWaiters_waiters]

end

end SchedSys

section
omit [DecidableEq τ]

/-- A suspended thread on no list may be put anywhere in a waiting list. -/
theorem SchedWf.join {a : SchedSys τ σ (ThreadRings τ σ)} (h : SchedWf a) {t : τ} {s : σ}
    {xs ys : List τ} (hs : a.waiters s = xs ++ ys) (hf : a.list.Free t)
    (hstat : (a.thread t).stat = .suspend) (hhead : a.list.live (.head (.suspend s)) = true) :
    SchedWf (a.setWaiters s (xs ++ t :: ys)) := by
  have hlive := h.live t (by simp [hstat])
  constructor
  · exact h.valid.insert hs hf hlive hhead
  · exact h.head_live
  · exact h.defunct
  · intro u p
    rw [SchedSys.setWaiters_readyList]
    exact h.ready_iff u p
  · intro u s' hu
    rw [SchedSys.setWaiters_waiters] at hu
    split at hu
    · have hmem : u = t ∨ u ∈ a.waiters s := by
        rw [hs]
        simp only [List.mem_append, List.mem_cons] at hu ⊢
        tauto
      rcases hmem with rfl | hmem
      · exact hstat
      · exact h.waiting u s hmem
    · exact h.waiting u s' hu
  · exact h.init_prio
  · exact h.prio_lt
  · exact h.mask
  · intro p hp
    rw [SchedSys.setWaiters_readyList]
    exact h.group p hp
  · exact h.live

end

/-! ## Initialisation -/

/-- Initialising a node, or a head other than those of the scheduler. -/
theorem SchedWf.mark {a : SchedSys τ σ (ThreadRings τ σ)} (h : SchedWf a)
    {n : ThreadNode τ σ} (hready : ∀ p, n ≠ .head (.ready p)) (hdefunct : n ≠ .head .defunct) :
    SchedWf { a with list := a.list.mark n } := by
  constructor
  · exact h.valid.mark n
  · intro p
    simp only [Rings.mark, Function.update_of_ne (hready p).symm]
    exact h.head_live p
  · simp only [Rings.mark, Function.update_of_ne hdefunct.symm]
    exact h.defunct
  · exact h.ready_iff
  · exact h.waiting
  · exact h.init_prio
  · exact h.prio_lt
  · exact h.mask
  · exact h.group
  · exact fun u hu => Rings.mark_live_mono (h.live u hu)

section
omit [DecidableEq σ]

/-- A thread on no list may be given any record of a thread that is not ready. -/
theorem SchedWf.rewrite {a : SchedSys τ σ (ThreadRings τ σ)} (h : SchedWf a) {t : τ}
    {r : RtThread} (hfree : a.list.Free t)
    (hstat : r.stat ≠ .ready) (hlive : r.stat ≠ .init → a.list.live (.item t) = true)
    (hprio : r.currentPriority < RT_THREAD_PRIORITY_MAX)
    (hinit : r.initPriority = r.currentPriority) (hmask : r.MaskOk) :
    SchedWf (a.setThread t r) := by
  have hne : ∀ u, u ≠ t → (a.setThread t r).thread u = a.thread u := fun u hu => by simp [hu]
  have hself : (a.setThread t r).thread t = r := by simp
  constructor
  · exact h.valid
  · exact h.head_live
  · exact h.defunct
  · intro u p
    by_cases hu : u = t
    · subst hu
      rw [hself]
      exact iff_of_false (hfree (.ready p)) fun hr => hstat hr.1
    · rw [hne u hu]; exact h.ready_iff u p
  · intro u s hus
    by_cases hu : u = t
    · subst hu; exact absurd hus (hfree (.suspend s))
    · rw [hne u hu]; exact h.waiting u s hus
  · exact forall_update (P := fun r => r.initPriority = r.currentPriority) hinit h.init_prio
  · exact forall_update (P := fun r => r.currentPriority < _) hprio h.prio_lt
  · exact forall_update (P := RtThread.MaskOk) hmask h.mask
  · exact h.group
  · intro u hus
    by_cases hu : u = t
    · subst hu; rw [hself] at hus; exact hlive hus
    · rw [hne u hu] at hus; exact h.live u hus

/-- A thread that is not in use is on none. -/
theorem SchedWf.reset {a : SchedSys τ σ (ThreadRings τ σ)} (h : SchedWf a) {t : τ}
    {r : RtThread} (hold : (a.thread t).stat = .init ∨ (a.thread t).stat = .close)
    (hstat : r.stat ≠ .ready) (hlive : r.stat ≠ .init → a.list.live (.item t) = true)
    (hprio : r.currentPriority < RT_THREAD_PRIORITY_MAX)
    (hinit : r.initPriority = r.currentPriority) (hmask : r.MaskOk) :
    SchedWf (a.setThread t r) :=
  h.rewrite (h.free_of_stat hold) hstat hlive hprio hinit hmask

end

end Wf

end SampleRtos
