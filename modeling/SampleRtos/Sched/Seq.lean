import SampleRtos.Timer.Queue
import SampleRtos.Sched.Defs

/-!
# The thread lists as sequences

The functions of `Sched.Defs` again, on the sequences of listed threads instead
of the links, each shown to run in lockstep with the function it abstracts.
Three of them correspond only where the links are used as intended: a thread is
put on a waiting list when it is on no other, a ready thread that yields is on
its own list, and a waiting list is initialised while nobody waits on it.
-/

namespace SampleRtos

open Intrusive

abbrev ThreadRings (τ σ : Type) := Rings (ThreadHead σ) τ

section Seq
variable {τ σ L L' : Type}

namespace SchedSys

/-- The same scheduling state with another store for the lists. -/
def withList (k : SchedSys τ σ L) (l : L') : SchedSys τ σ L' :=
  { thread := k.thread
    sem := k.sem
    list := l
    rtCurrentThread := k.rtCurrentThread
    rtThreadReadyPriorityGroup := k.rtThreadReadyPriorityGroup
    rtSchedulerLockNest := k.rtSchedulerLockNest
    port := k.port }

/-- The threads in `rt_thread_priority_table[p]`, in order. -/
def readyList (a : SchedSys τ σ (ThreadRings τ σ)) (p : Nat) : List τ := a.list.seq (.ready p)

/-- The threads waiting on `s`, in order. -/
def waiters (a : SchedSys τ σ (ThreadRings τ σ)) (s : σ) : List τ := a.list.seq (.suspend s)

end SchedSys

variable [DecidableEq τ] [DecidableEq σ]

/-! ## The operations -/

namespace Abs

def schedInit (a : SchedSys τ σ (ThreadRings τ σ)) : SchedSys τ σ (ThreadRings τ σ) :=
  { a with
    list := (List.range RT_THREAD_PRIORITY_MAX).foldl
      (fun l p => l.mark (.head (.ready p))) a.list
    rtCurrentThread := none
    rtThreadReadyPriorityGroup := 0 }

def highestReadyThread (a : SchedSys τ σ (ThreadRings τ σ)) : Option τ :=
  (a.readyList a.highestReadyPriority).head?

def schedStart (a : SchedSys τ σ (ThreadRings τ σ)) : Option (SchedSys τ σ (ThreadRings τ σ)) := do
  let toThread ← highestReadyThread a
  return a.startAt toThread

def insertThread (a : SchedSys τ σ (ThreadRings τ σ)) (t : τ) :
    Option (SchedSys τ σ (ThreadRings τ σ)) := do
  let a := a.setStat t .ready
  let l ← pushBack a.list (.ready (a.thread t).currentPriority) t
  return { a with list := l }.setGroupBit t

def removeThread (a : SchedSys τ σ (ThreadRings τ σ)) (t : τ) :
    Option (SchedSys τ σ (ThreadRings τ σ)) := do
  let l ← remove a.list t
  let a := { a with list := l }
  if isEmpty a.list (.ready (a.thread t).currentPriority) then return a.clearGroupBit t
  else return a

def schedule (a : SchedSys τ σ (ThreadRings τ σ)) : Option (SchedSys τ σ (ThreadRings τ σ)) := do
  let toThread ← highestReadyThread a
  return a.switchTo toThread

def exitCritical (a : SchedSys τ σ (ThreadRings τ σ)) :
    Option (SchedSys τ σ (ThreadRings τ σ)) := do
  let a := { a with rtSchedulerLockNest := a.rtSchedulerLockNest - 1 }
  if a.rtSchedulerLockNest ≤ 0 then
    let a := { a with rtSchedulerLockNest := 0 }
    if a.rtCurrentThread.isSome then schedule a else return a
  else return a

/-- Moving a thread from whatever list it is on to the end of its ready list. -/
def makeReady (a : SchedSys τ σ (ThreadRings τ σ)) (t : τ) :
    Option (SchedSys τ σ (ThreadRings τ σ)) := do
  let l ← remove a.list t
  insertThread { a with list := l } t

def resume (a : SchedSys τ σ (ThreadRings τ σ)) (t : τ) :
    Option (Int × SchedSys τ σ (ThreadRings τ σ)) := do
  if (a.thread t).stat ≠ .suspend then return (-RT_ERROR, a)
  let a ← makeReady a t
  return (RT_EOK, a)

def startup (a : SchedSys τ σ (ThreadRings τ σ)) (t : τ) :
    Option (SchedSys τ σ (ThreadRings τ σ)) := do
  let r := a.thread t
  let a := a.setThread t
    { r with
      currentPriority := r.initPriority
      numberMask := 1#32 <<< r.initPriority
      stat := .suspend }
  let (_, a) ← resume a t
  if a.rtCurrentThread.isSome then schedule a else return a

def timeout (a : SchedSys τ σ (ThreadRings τ σ)) (t : τ) :
    Option (SchedSys τ σ (ThreadRings τ σ)) := do
  let a ← makeReady (a.setError t (-RT_ETIMEOUT)) t
  schedule a

def yield (a : SchedSys τ σ (ThreadRings τ σ)) : Option (SchedSys τ σ (ThreadRings τ σ)) := do
  let t ← a.rtCurrentThread
  if (a.thread t).stat = .ready ∧ a.readyList (a.thread t).currentPriority ≠ [t] then
    let l ← remove a.list t
    let l ← pushBack l (.ready (a.thread t).currentPriority) t
    schedule { a with list := l }
  else return a

def tickSlice (a : SchedSys τ σ (ThreadRings τ σ)) :
    Option (SchedSys τ σ (ThreadRings τ σ)) := do
  let t ← a.rtCurrentThread
  let remaining := (a.thread t).remainingTick - 1
  let a := a.setThread t { a.thread t with remainingTick := remaining }
  if remaining = 0 then
    yield (a.setThread t { a.thread t with remainingTick := (a.thread t).initTick })
  else return a

/-- Waiters stand in order of arrival or, under `RT_IPC_FLAG_PRIO`, a new one
before the first of lower urgency. -/
def ipcInsert (a : SchedSys τ σ (ThreadRings τ σ)) (s : σ) (t : τ) :
    Option (SchedSys τ σ (ThreadRings τ σ)) := do
  if (a.sem s).flag = RT_IPC_FLAG_FIFO then
    let l ← pushBack a.list (.suspend s) t
    return { a with list := l }
  else if (a.sem s).flag = RT_IPC_FLAG_PRIO then
    let l ← insertOrdered
      (fun t u => (a.thread t).currentPriority < (a.thread u).currentPriority)
      a.list (.suspend s) t
    return { a with list := l }
  else return a

def ipcResume (a : SchedSys τ σ (ThreadRings τ σ)) (s : σ) :
    Option (SchedSys τ σ (ThreadRings τ σ)) := do
  let t ← (a.waiters s).head?
  let (_, a) ← resume a t
  return a

def ipcResumeAll (s : σ) :
    Nat → SchedSys τ σ (ThreadRings τ σ) → Option (SchedSys τ σ (ThreadRings τ σ))
  | 0, _ => none
  | fuel + 1, a =>
      if isEmpty a.list (.suspend s) then some a
      else do
        let t ← (a.waiters s).head?
        let (_, a) ← resume (a.setError t (-RT_ERROR)) t
        ipcResumeAll s fuel a

def semInit (a : SchedSys τ σ (ThreadRings τ σ)) (s : σ) (value : BitVec 32)
    (flag : BitVec 8) : SchedSys τ σ (ThreadRings τ σ) :=
  let a := { a with list := a.list.mark (.head (.suspend s)) }
  a.setSem s { value := value.setWidth 16, flag := flag }

def semDetach [Fintype τ] (a : SchedSys τ σ (ThreadRings τ σ)) (s : σ) :
    Option (SchedSys τ σ (ThreadRings τ σ)) :=
  ipcResumeAll s (Fintype.card τ + 1) a

def semRelease (a : SchedSys τ σ (ThreadRings τ σ)) (s : σ) :
    Option (SchedSys τ σ (ThreadRings τ σ)) := do
  if ¬ isEmpty a.list (.suspend s) then
    let a ← ipcResume a s
    schedule a
  else return a.setSem s { a.sem s with value := (a.sem s).value + 1 }

def semControl [Fintype τ] (a : SchedSys τ σ (ThreadRings τ σ)) (s : σ) (cmd : Int)
    (arg : BitVec 32) : Option (Int × SchedSys τ σ (ThreadRings τ σ)) := do
  if cmd = RT_IPC_CMD_RESET then
    let a ← ipcResumeAll s (Fintype.card τ + 1) a
    let a := a.setSem s { a.sem s with value := arg.setWidth 16 }
    let a ← schedule a
    return (RT_EOK, a)
  else return (-RT_ERROR, a)

end Abs

/-! ## Lockstep -/

/-- The links of `k` are the sequences of `a`; everything else is the same. -/
inductive SchedRel : SchedSys τ σ (ThreadLinks τ σ) → SchedSys τ σ (ThreadRings τ σ) → Prop where
  | mk (a : SchedSys τ σ (ThreadRings τ σ)) (l : ThreadLinks τ σ) (h : Rep l a.list) :
      SchedRel (a.withList l) a

namespace SchedRel
variable {k : SchedSys τ σ (ThreadLinks τ σ)} {a : SchedSys τ σ (ThreadRings τ σ)}

theorem eq_withList (h : SchedRel k a) : ∃ l, k = a.withList l := by
  cases h with
  | mk _ l _ => exact ⟨l, rfl⟩

theorem rep (h : SchedRel k a) : Rep k.list a.list := by
  cases h with
  | mk _ _ h => exact h

theorem thread (h : SchedRel k a) : k.thread = a.thread := by
  cases h with
  | mk => rfl

theorem sem (h : SchedRel k a) : k.sem = a.sem := by
  cases h with
  | mk => rfl

theorem current (h : SchedRel k a) : k.rtCurrentThread = a.rtCurrentThread := by
  cases h with
  | mk => rfl

theorem lockNest (h : SchedRel k a) : k.rtSchedulerLockNest = a.rtSchedulerLockNest := by
  cases h with
  | mk => rfl

theorem group (h : SchedRel k a) :
    k.rtThreadReadyPriorityGroup = a.rtThreadReadyPriorityGroup := by
  cases h with
  | mk => rfl

theorem setList (h : SchedRel k a) {l : ThreadLinks τ σ} {r : ThreadRings τ σ} (hr : Rep l r) :
    SchedRel { k with list := l } { a with list := r } := by
  cases h with
  | mk => exact .mk { a with list := r } l hr

theorem setThread (h : SchedRel k a) (t : τ) (r : RtThread) :
    SchedRel (k.setThread t r) (a.setThread t r) := by
  cases h with
  | mk _ l h => exact .mk (a.setThread t r) l h

theorem setSem (h : SchedRel k a) (s : σ) (r : RtSemaphore) :
    SchedRel (k.setSem s r) (a.setSem s r) := by
  cases h with
  | mk _ l h => exact .mk (a.setSem s r) l h

theorem setStat (h : SchedRel k a) (t : τ) (st : ThreadStat) :
    SchedRel (k.setStat t st) (a.setStat t st) := by
  rw [SchedSys.setStat, SchedSys.setStat, h.thread]
  exact h.setThread t _

theorem setError (h : SchedRel k a) (t : τ) (e : Int) :
    SchedRel (k.setError t e) (a.setError t e) := by
  rw [SchedSys.setError, SchedSys.setError, h.thread]
  exact h.setThread t _

theorem setGroupBit (h : SchedRel k a) (t : τ) :
    SchedRel (k.setGroupBit t) (a.setGroupBit t) := by
  cases h with
  | mk _ l h => exact .mk (a.setGroupBit t) l h

theorem clearGroupBit (h : SchedRel k a) (t : τ) :
    SchedRel (k.clearGroupBit t) (a.clearGroupBit t) := by
  cases h with
  | mk _ l h => exact .mk (a.clearGroupBit t) l h

theorem setLockNest (h : SchedRel k a) (n : Int) :
    SchedRel { k with rtSchedulerLockNest := n } { a with rtSchedulerLockNest := n } := by
  cases h with
  | mk _ l h => exact .mk { a with rtSchedulerLockNest := n } l h

theorem enterCritical (h : SchedRel k a) :
    SchedRel k.rtEnterCritical a.rtEnterCritical := by
  rw [SchedSys.rtEnterCritical, SchedSys.rtEnterCritical, h.lockNest]
  split
  · exact h.setLockNest _
  · exact h

theorem startAt (h : SchedRel k a) (t : τ) : SchedRel (k.startAt t) (a.startAt t) := by
  cases h with
  | mk _ l h => exact .mk (a.startAt t) l h

theorem switchTo (h : SchedRel k a) (t : τ) : SchedRel (k.switchTo t) (a.switchTo t) := by
  cases h with
  | mk _ l h =>
    by_cases hc : a.rtSchedulerLockNest = 0 ∧ some t ≠ a.rtCurrentThread
    · rw [SchedSys.switchTo, SchedSys.switchTo, if_pos hc, if_pos (by exact hc)]
      exact .mk { a with
        rtCurrentThread := some t
        port := a.port.rtHwContextSwitch (spOf a.rtCurrentThread) (.sp t) } l h
    · rw [SchedSys.switchTo, SchedSys.switchTo, if_neg hc, if_neg (by exact hc)]
      exact .mk a l h

theorem highestReadyPriority (h : SchedRel k a) :
    k.highestReadyPriority = a.highestReadyPriority := by
  rw [SchedSys.highestReadyPriority, SchedSys.highestReadyPriority, h.group]

/-- The first node under a head, read as a thread, is the first of the sequence. -/
theorem first (h : SchedRel k a) (hd : ThreadHead σ) :
    (k.list.next (.head hd) >>= rtThreadEntry) = (a.list.seq hd).head? := by
  by_cases hlive : a.list.live (.head hd) = true
  · rw [h.rep.next_head hlive]
    cases a.list.seq hd <;> rfl
  · have hempty : a.list.seq hd = [] := by
      by_contra hne
      exact hlive (h.rep.valid.head_live hne)
    rw [(h.rep.null _ (by simpa using hlive)).1, hempty]
    rfl

end SchedRel

variable {k : SchedSys τ σ (ThreadLinks τ σ)} {a : SchedSys τ σ (ThreadRings τ σ)}

theorem rtSystemSchedulerInit_rel (h : SchedRel k a) (hempty : ∀ p, a.readyList p = []) :
    SchedRel (rtSystemSchedulerInit k) (Abs.schedInit a) := by
  have hfold : ∀ (ps : List Nat) (l : ThreadLinks τ σ) (r : ThreadRings τ σ), Rep l r →
      r.seq = a.list.seq →
      Rep (ps.foldl (fun l p => rtListInit l (.head (.ready p))) l)
        (ps.foldl (fun r p => r.mark (.head (.ready p))) r) := by
    intro ps
    induction ps with
    | nil => exact fun _ _ hr _ => hr
    | cons p ps ih =>
      intro l r hr hseq
      have hp : r.seq (.ready p) = [] := by rw [hseq]; exact hempty p
      exact ih _ _ (hr.selfLink (.inl ⟨.ready p, rfl, hp⟩)) hseq
  cases h with
  | mk _ l h => exact .mk (Abs.schedInit a) _ (hfold _ l a.list h rfl)

theorem highestReadyThread_rel (h : SchedRel k a) :
    highestReadyThread k = Abs.highestReadyThread a := by
  rw [highestReadyThread, h.highestReadyPriority]
  exact h.first _

theorem rtSystemSchedulerStart_rel (h : SchedRel k a) :
    Option.Rel SchedRel (rtSystemSchedulerStart k) (Abs.schedStart a) := by
  rw [rtSystemSchedulerStart, Abs.schedStart, highestReadyThread_rel h]
  exact Lockstep.bind (Lockstep.refl _) fun t _ _ _ ht => ht ▸ .some (h.startAt t)

theorem rtSchedule_rel (h : SchedRel k a) :
    Option.Rel SchedRel (rtSchedule k) (Abs.schedule a) := by
  rw [rtSchedule, Abs.schedule, highestReadyThread_rel h]
  exact Lockstep.bind (Lockstep.refl _) fun t _ _ _ ht => ht ▸ .some (h.switchTo t)

theorem rtScheduleInsertThread_rel (h : SchedRel k a) {t : τ} (hf : a.list.Free t) :
    Option.Rel SchedRel (rtScheduleInsertThread k t) (Abs.insertThread a t) := by
  obtain ⟨a, l, hl⟩ := h
  have h := SchedRel.mk a l hl
  unfold rtScheduleInsertThread Abs.insertThread
  have h₁ := h.setStat t .ready
  exact Lockstep.bind (rtListInsertBefore_head h₁.rep _ hf) fun l r _ _ hr =>
    .some ((h₁.setList hr).setGroupBit t)

theorem rtScheduleRemoveThread_rel (h : SchedRel k a) (t : τ) :
    Option.Rel SchedRel (rtScheduleRemoveThread k t) (Abs.removeThread a t) := by
  obtain ⟨a, l, hl⟩ := h
  have h := SchedRel.mk a l hl
  unfold rtScheduleRemoveThread Abs.removeThread
  refine Lockstep.bind (rtListRemove_rep h.rep t) fun l r _ _ hr => ?_
  have h₁ := h.setList hr
  exact Lockstep.ite (by rw [rtListIsempty_rep hr]; exact Iff.rfl)
    (fun _ => .some (h₁.clearGroupBit t)) fun _ => .some h₁

theorem rtExitCritical_rel (h : SchedRel k a) :
    Option.Rel SchedRel (rtExitCritical k) (Abs.exitCritical a) := by
  obtain ⟨a, l, hl⟩ := h
  have h := SchedRel.mk a l hl
  unfold rtExitCritical Abs.exitCritical
  refine Lockstep.ite Iff.rfl (fun _ => ?_) fun _ => .some (h.setLockNest _)
  have h₁ := h.setLockNest 0
  exact Lockstep.ite Iff.rfl (fun _ => rtSchedule_rel h₁) fun _ => .some h₁

section
omit [DecidableEq σ]

/-- A removed item is free to be listed again. -/
theorem remove_free {r r' : ThreadRings τ σ} (hv : r.Valid) {t : τ}
    (h : remove r t = some r') : r'.Free t := by
  unfold remove at h
  split at h
  · cases h
    exact hv.erase_free t
  · cases h

end

theorem makeReady_rel (h : SchedRel k a) (t : τ) :
    Option.Rel SchedRel
      (do
        let l ← rtListRemove k.list (.item t)
        rtScheduleInsertThread { k with list := l } t)
      (Abs.makeReady a t) :=
  Lockstep.bind (rtListRemove_rep h.rep t) fun _ _ _ hr hrep =>
    rtScheduleInsertThread_rel (h.setList hrep) (remove_free h.rep.valid hr)

theorem rtThreadResume_rel (h : SchedRel k a) (t : τ) :
    Option.Rel (fun x y => x.1 = y.1 ∧ SchedRel x.2 y.2) (rtThreadResume k t)
      (Abs.resume a t) := by
  obtain ⟨a, l, hl⟩ := h
  have h := SchedRel.mk a l hl
  unfold rtThreadResume Abs.resume
  refine Lockstep.ite Iff.rfl (fun _ => .some ⟨rfl, h⟩) fun _ => ?_
  rw [← bind_assoc]
  exact Lockstep.bind (makeReady_rel h t) fun _ _ _ _ h₁ => .some ⟨rfl, h₁⟩

theorem rtThreadStartup_rel (h : SchedRel k a) (t : τ) :
    Option.Rel SchedRel (rtThreadStartup k t) (Abs.startup a t) := by
  obtain ⟨a, l, hl⟩ := h
  have h := SchedRel.mk a l hl
  unfold rtThreadStartup Abs.startup
  refine Lockstep.bind (rtThreadResume_rel (h.setThread t _) t) ?_
  rintro ⟨_, k₁⟩ ⟨_, a₁⟩ - - ⟨-, h₁⟩
  exact Lockstep.ite (by rw [h₁.current]) (fun _ => rtSchedule_rel h₁) fun _ => .some h₁

theorem rtThreadTimeout_rel (h : SchedRel k a) (t : τ) :
    Option.Rel SchedRel (rtThreadTimeout k t) (Abs.timeout a t) := by
  unfold rtThreadTimeout Abs.timeout
  rw [← bind_assoc]
  exact Lockstep.bind (makeReady_rel (h.setError t _) t) fun _ _ _ _ h₁ => rtSchedule_rel h₁

/-- A thread on its ready list has different neighbours unless it is alone there. -/
theorem neighbours_ne_iff (h : SchedRel k a) {t : τ} {hd : ThreadHead σ}
    (ht : t ∈ a.list.seq hd) :
    k.list.next (.item t) ≠ k.list.prev (.item t) ↔ a.list.seq hd ≠ [t] := by
  obtain ⟨xs, ys, hs⟩ := List.append_of_mem ht
  have hnd := h.rep.valid.nodup hd
  rw [h.rep.next_item hs, h.rep.prev_item hs, hs]
  rw [hs] at hnd
  cases ys with
  | nil =>
    rcases List.eq_nil_or_concat xs with rfl | ⟨xs, x, rfl⟩
    · simp
    · refine iff_of_true (by simp [List.concat_eq_append]) fun heq => ?_
      have hlen := congrArg List.length heq
      simp at hlen
  | cons y ys =>
    have hlast : lastNode hd xs ≠ .item y :=
      Rep.lastNode_ne_item fun hy => by simpa [hy] using (List.nodup_append.mp hnd).2.2 y hy y
    refine iff_of_true ?_ fun heq => ?_
    · simpa using fun heq => hlast heq.symm
    · have hlen := congrArg List.length heq
      simp at hlen
      omega

theorem rtThreadYield_rel (h : SchedRel k a)
    (hready : ∀ t, (a.thread t).stat = .ready → t ∈ a.readyList (a.thread t).currentPriority) :
    Option.Rel SchedRel (rtThreadYield k) (Abs.yield a) := by
  obtain ⟨a, l, hl⟩ := h
  have h := SchedRel.mk a l hl
  unfold rtThreadYield Abs.yield
  refine Lockstep.bind (Lockstep.refl _) fun t _ _ _ ht => ?_
  subst ht
  refine Lockstep.ite (and_congr_right fun hst => neighbours_ne_iff h (hready t hst))
    (fun _ => ?_) fun _ => .some h
  refine Lockstep.bind (rtListRemove_rep h.rep t) fun _ _ _ hr hrep => ?_
  exact Lockstep.bind (rtListInsertBefore_head hrep _ (remove_free h.rep.valid hr))
    fun _ _ _ _ hrep => rtSchedule_rel (h.setList hrep)

theorem rtTickSlice_rel (h : SchedRel k a)
    (hready : ∀ t, (a.thread t).stat = .ready → t ∈ a.readyList (a.thread t).currentPriority) :
    Option.Rel SchedRel (rtTickSlice k) (Abs.tickSlice a) := by
  obtain ⟨a, l, hl⟩ := h
  have h := SchedRel.mk a l hl
  unfold rtTickSlice Abs.tickSlice
  refine Lockstep.bind (Lockstep.refl _) fun t _ _ _ ht => ?_
  subst ht
  have h₁ := h.setThread t { a.thread t with remainingTick := (a.thread t).remainingTick - 1 }
  refine Lockstep.ite Iff.rfl (fun _ => ?_) fun _ => .some h₁
  refine rtThreadYield_rel (h₁.setThread t _) fun u hu => ?_
  by_cases hut : u = t
  · subst hut
    simpa [SchedSys.setThread, SchedSys.readyList] using
      hready u (by simpa [SchedSys.setThread] using hu)
  · simpa [SchedSys.setThread, SchedSys.readyList, hut] using
      hready u (by simpa [SchedSys.setThread, hut] using hu)

/-! ## Semaphores -/

/-- The search under `RT_IPC_FLAG_PRIO` stops before the first thread of lower
urgency, or at the head. -/
theorem rtIpcListSearch_eq {l : ThreadLinks τ σ} (hr : Rep l a.list) {s : σ} (t : τ) :
    ∀ (fuel : Nat) (xs ys : List τ), a.waiters s = xs ++ ys → ys.length < fuel →
      rtIpcListSearch (a.withList l) s t fuel (firstNode (.suspend s) ys) =
        some (firstNode (.suspend s)
          (ys.dropWhile fun u =>
            ¬ (a.thread t).currentPriority < (a.thread u).currentPriority)) := by
  intro fuel
  induction fuel with
  | zero => intro xs ys _ hlen; omega
  | succ fuel ih =>
    intro xs ys hs hlen
    cases ys with
    | nil => simp [rtIpcListSearch]
    | cons u ys =>
      have hrest := ih (xs ++ [u]) ys (by simp [hs]) (by simpa using hlen)
      by_cases hlt : (a.thread t).currentPriority < (a.thread u).currentPriority
      · simp [rtIpcListSearch, rtThreadEntry, SchedSys.withList, hlt]
      · have hnext : (a.withList l).list.next (.item u) = some (firstNode (.suspend s) ys) :=
          hr.next_item hs
        have hlt' : ¬ ((a.withList l).thread t).currentPriority <
            ((a.withList l).thread u).currentPriority := hlt
        simp only [rtIpcListSearch, firstNode_cons, reduceCtorEq, rtThreadEntry, hlt', hnext,
          if_false, Option.bind_eq_bind, Option.bind_some, hrest, List.dropWhile_cons, hlt,
          not_false_eq_true, decide_true, if_true]

theorem rtIpcListInsert_rel [Fintype τ] (h : SchedRel k a) (s : σ) {t : τ}
    (hf : a.list.Free t) :
    Option.Rel SchedRel (rtIpcListInsert k s t) (Abs.ipcInsert a s t) := by
  obtain ⟨a, l, hl⟩ := h
  have h := SchedRel.mk a l hl
  unfold rtIpcListInsert Abs.ipcInsert
  refine Lockstep.ite Iff.rfl (fun _ => ?_) fun _ => Lockstep.ite Iff.rfl (fun _ => ?_) ?_
  · exact Lockstep.bind (rtListInsertBefore_head hl _ hf) fun _ _ _ _ hr => .some (h.setList hr)
  · by_cases hlive : a.list.live (.head (.suspend s)) = true
    · have hlen : (a.waiters s).length < Fintype.card τ + 1 :=
        Nat.lt_succ_of_le (hl.valid.nodup _).length_le_card
      have hsearch := rtIpcListSearch_eq hl t _ [] (a.waiters s) rfl hlen
      have hcut : a.waiters s =
          (a.waiters s).takeWhile (fun u =>
              ¬ (a.thread t).currentPriority < (a.thread u).currentPriority) ++
            (a.waiters s).dropWhile (fun u =>
              ¬ (a.thread t).currentPriority < (a.thread u).currentPriority) :=
        List.takeWhile_append_dropWhile.symm
      have hnext : (a.withList l).list.next (.head (.suspend s)) =
          some (firstNode (.suspend s) (a.waiters s)) := hl.next_head hlive
      rw [hnext, Option.bind_eq_bind, Option.bind_some, hsearch, Option.bind_eq_bind,
        Option.bind_some]
      exact Lockstep.bind (rtListInsertBefore_rep hl hcut hf hlive) fun _ _ _ _ hr =>
        .some (h.setList hr)
    · have hnull := hl.null (.head (.suspend s)) (by simpa using hlive)
      simp only [SchedSys.withList, hnull.1, Option.bind_eq_bind, Option.bind_none, insertOrdered,
        insertAt, hlive]
      exact .none
  · exact fun _ => .some h

theorem rtIpcListResume_rel (h : SchedRel k a) (s : σ) :
    Option.Rel SchedRel (rtIpcListResume k s) (Abs.ipcResume a s) := by
  unfold rtIpcListResume Abs.ipcResume
  rw [← bind_assoc, h.first, SchedSys.waiters]
  refine Lockstep.bind (Lockstep.refl _) fun t _ _ _ ht => ?_
  subst ht
  exact Lockstep.bind (rtThreadResume_rel h t) fun _ _ _ _ h₁ => .some h₁.2

theorem rtIpcListResumeAll_rel (s : σ) (fuel : Nat) :
    ∀ {k : SchedSys τ σ (ThreadLinks τ σ)} {a : SchedSys τ σ (ThreadRings τ σ)}, SchedRel k a →
      Option.Rel SchedRel (rtIpcListResumeAll s fuel k) (Abs.ipcResumeAll s fuel a) := by
  induction fuel with
  | zero => exact fun _ => .none
  | succ fuel ih =>
    intro k a h
    rw [rtIpcListResumeAll, Abs.ipcResumeAll]
    refine Lockstep.ite (by rw [rtListIsempty_rep h.rep]) (fun _ => .some h) fun _ => ?_
    rw [← bind_assoc, h.first, SchedSys.waiters]
    refine Lockstep.bind (Lockstep.refl _) fun t _ _ _ ht => ?_
    subst ht
    exact Lockstep.bind (rtThreadResume_rel (h.setError t _) t) fun _ _ _ _ h₁ => ih h₁.2

theorem rtSemInit_rel (h : SchedRel k a) {s : σ} (hempty : a.waiters s = []) (value : BitVec 32)
    (flag : BitVec 8) : SchedRel (rtSemInit k s value flag) (Abs.semInit a s value flag) :=
  SchedRel.setSem (h.setList (h.rep.selfLink (.inl ⟨.suspend s, rfl, hempty⟩))) s _

theorem rtSemDetach_rel [Fintype τ] (h : SchedRel k a) (s : σ) :
    Option.Rel SchedRel (rtSemDetach k s) (Abs.semDetach a s) :=
  rtIpcListResumeAll_rel s _ h

theorem rtSemRelease_rel (h : SchedRel k a) (s : σ) :
    Option.Rel SchedRel (rtSemRelease k s) (Abs.semRelease a s) := by
  unfold rtSemRelease Abs.semRelease
  rw [h.sem]
  refine Lockstep.ite (by rw [rtListIsempty_rep h.rep]) (fun _ => ?_) fun _ =>
    .some (h.setSem s _)
  exact Lockstep.bind (rtIpcListResume_rel h s) fun _ _ _ _ h₁ => rtSchedule_rel h₁

theorem rtSemControl_rel [Fintype τ] (h : SchedRel k a) (s : σ) (cmd : Int) (arg : BitVec 32) :
    Option.Rel (fun x y => x.1 = y.1 ∧ SchedRel x.2 y.2) (rtSemControl k s cmd arg)
      (Abs.semControl a s cmd arg) := by
  unfold rtSemControl Abs.semControl
  refine Lockstep.ite Iff.rfl (fun _ => ?_) fun _ => .some ⟨rfl, h⟩
  refine Lockstep.bind (rtIpcListResumeAll_rel s _ h) fun _ _ _ _ h₁ => ?_
  rw [h₁.sem]
  exact Lockstep.bind (rtSchedule_rel (h₁.setSem s _)) fun _ _ _ _ h₂ => .some ⟨rfl, h₂⟩

end Seq

end SampleRtos
