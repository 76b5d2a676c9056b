import SampleRtos.Kernel.Observe

/-!
# Operations that pass a node by

A node of the thread lists that no other node leads to, and that is not the
current thread's, is passed by: no operation on other threads reads or writes
its links, and if it is a thread's, the operation runs the same whatever the
record of that thread is. All of this is about links; nothing is assumed about
the lists the rest of the kernel is made of.
-/

namespace SampleRtos

open Intrusive

section Bypass
variable {τ σ υ : Type} [DecidableEq τ] [DecidableEq σ] [DecidableEq υ]

/-! ## Replacing a record -/

/-- The record of the thread whose node is `z`, if `z` is a thread's, is replaced. -/
def SchedSys.withRecord {L : Type} (e : SchedSys τ σ L) (z : ThreadNode τ σ) (r : RtThread) :
    SchedSys τ σ L :=
  match z with
  | .head _ => e
  | .item t => e.setThread t r

section WithRecord
variable {L : Type} {e : SchedSys τ σ L} {z : ThreadNode τ σ} {r : RtThread} {t : τ}

section
omit [DecidableEq σ]

theorem withRecord_list : (e.withRecord z r).list = e.list := by cases z <;> rfl

theorem withRecord_sem : (e.withRecord z r).sem = e.sem := by cases z <;> rfl

theorem withRecord_current : (e.withRecord z r).rtCurrentThread = e.rtCurrentThread := by
  cases z <;> rfl

theorem withRecord_highest : (e.withRecord z r).highestReadyPriority = e.highestReadyPriority := by
  cases z <;> rfl

theorem withRecord_thread (ht : z ≠ .item t) : (e.withRecord z r).thread t = e.thread t := by
  cases z with
  | head h => rfl
  | item u =>
    have htu : t ≠ u := fun h => ht (by rw [h])
    exact Function.update_of_ne htu ..

theorem withRecord_setThread (ht : z ≠ .item t) (q : RtThread) :
    (e.withRecord z r).setThread t q = (e.setThread t q).withRecord z r := by
  cases z with
  | head h => rfl
  | item u =>
    have htu : t ≠ u := fun h => ht (by rw [h])
    simp only [SchedSys.withRecord, SchedSys.setThread, Function.update_comm htu]

theorem withRecord_setStat (ht : z ≠ .item t) (st : ThreadStat) :
    (e.withRecord z r).setStat t st = (e.setStat t st).withRecord z r := by
  rw [SchedSys.setStat, withRecord_thread ht, withRecord_setThread ht]
  rfl

theorem withRecord_setError (ht : z ≠ .item t) (c : Int) :
    (e.withRecord z r).setError t c = (e.setError t c).withRecord z r := by
  rw [SchedSys.setError, withRecord_thread ht, withRecord_setThread ht]
  rfl

end

theorem withRecord_setSem (s : σ) (q : RtSemaphore) :
    (e.withRecord z r).setSem s q = (e.setSem s q).withRecord z r := by
  cases z <;> rfl

section
omit [DecidableEq σ]

theorem withRecord_setList {L' : Type} (l : L') :
    ({ e.withRecord z r with list := l } : SchedSys τ σ L') =
      ({ e with list := l } : SchedSys τ σ L').withRecord z r := by
  cases z <;> rfl

theorem withRecord_setLockNest (n : Int) :
    { e.withRecord z r with rtSchedulerLockNest := n } =
      ({ e with rtSchedulerLockNest := n } : SchedSys τ σ L).withRecord z r := by
  cases z <;> rfl

theorem withRecord_setGroupBit (ht : z ≠ .item t) :
    (e.withRecord z r).setGroupBit t = (e.setGroupBit t).withRecord z r := by
  rw [SchedSys.setGroupBit, withRecord_thread ht]
  cases z <;> rfl

theorem withRecord_clearGroupBit (ht : z ≠ .item t) :
    (e.withRecord z r).clearGroupBit t = (e.clearGroupBit t).withRecord z r := by
  rw [SchedSys.clearGroupBit, withRecord_thread ht]
  cases z <;> rfl

theorem withRecord_switchTo : (e.withRecord z r).switchTo t = (e.switchTo t).withRecord z r := by
  cases z with
  | head h => rfl
  | item u =>
    simp only [SchedSys.withRecord, SchedSys.setThread, SchedSys.switchTo]
    split
    · rename_i hfree
      exact if_pos hfree
    · rename_i hfree
      exact if_neg hfree

theorem withRecord_enterCritical :
    (e.withRecord z r).rtEnterCritical = e.rtEnterCritical.withRecord z r := by
  cases z with
  | head h => rfl
  | item u =>
    simp only [SchedSys.withRecord, SchedSys.setThread, SchedSys.rtEnterCritical]
    split
    · rename_i hlt
      exact if_pos hlt
    · rename_i hlt
      exact if_neg hlt

end

end WithRecord

/-! ## Passing by -/

/-- Only `z` leads to `z`, and the current thread is another. -/
structure Bypassed (z : ThreadNode τ σ) (own : Option (ThreadNode τ σ))
    (e : SchedSys τ σ (ThreadLinks τ σ)) : Prop where
  apart : Apart e.list z own
  current : ∀ t ∈ e.rtCurrentThread, z ≠ .item t

/-- The head of no ready list and of no waiting list. -/
structure Outside (z : ThreadNode τ σ) : Prop where
  ready : ∀ p, .head (.ready p) ≠ z
  suspend : ∀ s, .head (.suspend s) ≠ z

section
omit [DecidableEq τ] [DecidableEq σ]

theorem outside_item (t : τ) : Outside (.item t : ThreadNode τ σ) := ⟨by simp, by simp⟩

theorem outside_defunct : Outside (.head .defunct : ThreadNode τ σ) := ⟨by simp, by simp⟩

end

/-- The kernel with another record for the thread of the node `z`. -/
def Sys.withRecord (k : RtKernel τ σ υ) (z : ThreadNode τ σ) (r : RtThread) : RtKernel τ σ υ :=
  { k with env := k.env.withRecord z r }

/-- Performing `f` has led from `e` to `e'` past `z`. -/
structure PassesBy (z : ThreadNode τ σ) (own : Option (ThreadNode τ σ))
    (f : SchedSys τ σ (ThreadLinks τ σ) → Option (SchedSys τ σ (ThreadLinks τ σ)))
    (e e' : SchedSys τ σ (ThreadLinks τ σ)) : Prop where
  bypassed : Bypassed z own e'
  same : ∀ r, f (e.withRecord z r) = some (e'.withRecord z r)

namespace PassesBy
variable {z : ThreadNode τ σ} {own : Option (ThreadNode τ σ)}
  {e e' : SchedSys τ σ (ThreadLinks τ σ)} {t : τ} {s : σ}

section
omit [DecidableEq τ] [DecidableEq σ]

/-- The thread a head of a list of threads leads to is not at `z`. -/
theorem entry_ne (h : Bypassed z own e) {hd : ThreadHead σ} (hz : .head hd ≠ z)
    {n : ThreadNode τ σ} (hn : e.list.next (.head hd) = some n) (ht : rtThreadEntry n = some t) :
    z ≠ .item t := by
  have hne : n ≠ z := h.apart.ne_next hz hn
  cases n with
  | head hd => cases ht
  | item u =>
    obtain rfl := Option.some.inj ht
    exact hne.symm

theorem highest_ne (h : Bypassed z own e) (hz : Outside z) (ht : highestReadyThread e = some t) :
    z ≠ .item t := by
  obtain ⟨n, hn, ht⟩ := Option.bind_eq_some_iff.mp ht
  exact entry_ne h (hz.ready _) hn ht

end

section
omit [DecidableEq σ]

theorem highest_same (r : RtThread) :
    highestReadyThread (e.withRecord z r) = highestReadyThread e := by
  rw [highestReadyThread, withRecord_list, withRecord_highest]
  rfl

theorem schedule (h : Bypassed z own e) (hz : Outside z) (hrun : rtSchedule e = some e') :
    PassesBy z own rtSchedule e e' := by
  obtain ⟨t, ht, hret⟩ := Option.bind_eq_some_iff.mp hrun
  cases hret
  have htz : z ≠ .item t := highest_ne h hz ht
  refine ⟨?_, fun r => ?_⟩
  · unfold SchedSys.switchTo
    split
    · exact ⟨h.apart, fun u hu => by cases hu; exact htz⟩
    · exact h
  · rw [rtSchedule, highest_same, ht]
    exact congrArg some withRecord_switchTo

theorem schedulerStart (h : Bypassed z own e) (hz : Outside z)
    (hrun : rtSystemSchedulerStart e = some e') : PassesBy z own rtSystemSchedulerStart e e' := by
  obtain ⟨t, ht, hret⟩ := Option.bind_eq_some_iff.mp hrun
  cases hret
  refine ⟨⟨h.apart, fun u hu => by cases hu; exact highest_ne h hz ht⟩, fun r => ?_⟩
  rw [rtSystemSchedulerStart, highest_same, ht]
  cases z <;> rfl

end

theorem insertThread (h : Bypassed z own e) (hz : Outside z) (ht : z ≠ .item t)
    (hrun : rtScheduleInsertThread e t = some e') :
    PassesBy z own (rtScheduleInsertThread · t) e e' := by
  obtain ⟨l, hins, hret⟩ := Option.bind_eq_some_iff.mp hrun
  cases hret
  refine ⟨⟨Apart.insertBefore (m := e.list) h.apart (hz.ready _) ht.symm hins, h.current⟩,
    fun r => ?_⟩
  show (rtListInsertBefore ((e.withRecord z r).setStat t .ready).list (.head (.ready
    (((e.withRecord z r).setStat t .ready).thread t).currentPriority)) (.item t)).bind _ = _
  rw [withRecord_setStat ht, withRecord_list, withRecord_thread ht, hins, Option.bind_some]
  exact congrArg some (by rw [withRecord_setList, withRecord_setGroupBit ht])

theorem removeThread (h : Bypassed z own e) (ht : z ≠ .item t)
    (hrun : rtScheduleRemoveThread e t = some e') :
    PassesBy z own (rtScheduleRemoveThread · t) e e' := by
  obtain ⟨l, hrem, hrun⟩ := Option.bind_eq_some_iff.mp hrun
  have hl : Bypassed z own { e with list := l } := ⟨h.apart.remove ht.symm hrem, h.current⟩
  have hsame : ∀ r, rtScheduleRemoveThread (e.withRecord z r) t =
      if rtListIsempty l (.head (.ready (e.thread t).currentPriority)) then
        some ((({ e with list := l } : SchedSys τ σ _).clearGroupBit t).withRecord z r)
      else some (({ e with list := l } : SchedSys τ σ _).withRecord z r) := by
    intro r
    rw [rtScheduleRemoveThread, withRecord_list, hrem, Option.bind_eq_bind, Option.bind_some,
      withRecord_setList]
    simp only [withRecord_list, withRecord_thread ht, withRecord_clearGroupBit ht, Option.pure_def]
  dsimp only at hrun
  split at hrun
  · rename_i hempty
    cases hrun
    exact ⟨⟨hl.apart, hl.current⟩, fun r => by rw [hsame, if_pos hempty]⟩
  · rename_i hempty
    cases hrun
    exact ⟨hl, fun r => by rw [hsame, if_neg hempty]⟩

theorem resume {c : Int} (h : Bypassed z own e) (hz : Outside z) (ht : z ≠ .item t)
    (hrun : rtThreadResume e t = some (c, e')) : Bypassed z own e' ∧
      ∀ r, rtThreadResume (e.withRecord z r) t = some (c, e'.withRecord z r) := by
  unfold rtThreadResume at hrun
  split at hrun
  · rename_i hst
    cases hrun
    refine ⟨h, fun r => ?_⟩
    rw [rtThreadResume, withRecord_thread ht, if_pos hst]
    rfl
  · rename_i hst
    obtain ⟨l, hrem, hrun⟩ := Option.bind_eq_some_iff.mp hrun
    obtain ⟨e₁, hins, hret⟩ := Option.bind_eq_some_iff.mp hrun
    cases hret
    have hl : Bypassed z own { e with list := l } := ⟨h.apart.remove ht.symm hrem, h.current⟩
    obtain ⟨h₁, hsame⟩ := insertThread hl hz ht hins
    refine ⟨h₁, fun r => ?_⟩
    rw [rtThreadResume, withRecord_thread ht, if_neg hst, withRecord_list, hrem,
      Option.bind_eq_bind, Option.bind_some, withRecord_setList, hsame]
    rfl

theorem startup (h : Bypassed z own e) (hz : Outside z) (ht : z ≠ .item t)
    (hrun : rtThreadStartup e t = some e') : PassesBy z own (rtThreadStartup · t) e e' := by
  obtain ⟨⟨c, e₁⟩, hresume, hrun⟩ := Option.bind_eq_some_iff.mp hrun
  obtain ⟨h₁, hsame⟩ := resume (e := e.setThread t _) ⟨h.apart, h.current⟩ hz ht hresume
  have hstep : ∀ r, rtThreadStartup (e.withRecord z r) t =
      if e₁.rtCurrentThread.isSome then rtSchedule (e₁.withRecord z r)
      else some (e₁.withRecord z r) := by
    intro r
    rw [rtThreadStartup, withRecord_thread ht, withRecord_setThread ht, hsame,
      Option.bind_eq_bind, Option.bind_some]
    simp only [withRecord_current, Option.pure_def]
  dsimp only at hrun
  split at hrun
  · rename_i hcur
    obtain ⟨h₂, hsched⟩ := schedule h₁ hz hrun
    exact ⟨h₂, fun r => by rw [hstep, if_pos hcur, hsched]⟩
  · rename_i hcur
    cases hrun
    exact ⟨h₁, fun r => by rw [hstep, if_neg hcur]⟩

theorem timeout (h : Bypassed z own e) (hz : Outside z) (ht : z ≠ .item t)
    (hrun : rtThreadTimeout e t = some e') : PassesBy z own (rtThreadTimeout · t) e e' := by
  obtain ⟨l, hrem, hrun⟩ := Option.bind_eq_some_iff.mp hrun
  obtain ⟨e₁, hins, hsched⟩ := Option.bind_eq_some_iff.mp hrun
  have hl : Bypassed z own { e.setError t (-RT_ETIMEOUT) with list := l } :=
    ⟨Apart.remove h.apart ht.symm hrem, h.current⟩
  obtain ⟨h₁, hsame₁⟩ := insertThread hl hz ht hins
  obtain ⟨h₂, hsame₂⟩ := schedule h₁ hz hsched
  refine ⟨h₂, fun r => ?_⟩
  rw [rtThreadTimeout, withRecord_setError ht, withRecord_list, hrem, Option.bind_eq_bind,
    Option.bind_some, withRecord_setList, hsame₁]
  exact hsame₂ r

theorem yield (h : Bypassed z own e) (hz : Outside z) (hrun : rtThreadYield e = some e') :
    PassesBy z own rtThreadYield e e' := by
  obtain ⟨t, hcur, hrun⟩ := Option.bind_eq_some_iff.mp hrun
  have ht : z ≠ .item t := h.current t hcur
  have hstep : ∀ r, rtThreadYield (e.withRecord z r) =
      if (e.thread t).stat = .ready ∧ e.list.next (.item t) ≠ e.list.prev (.item t) then do
        let l ← rtListRemove e.list (.item t)
        let l ← rtListInsertBefore l (.head (.ready (e.thread t).currentPriority)) (.item t)
        rtSchedule { e.withRecord z r with list := l }
      else some (e.withRecord z r) := by
    intro r
    rw [rtThreadYield, withRecord_current, hcur, Option.bind_eq_bind, Option.bind_some]
    simp only [withRecord_thread ht, withRecord_list, Option.pure_def]
    rw [withRecord_current, hcur]
  split at hrun
  · rename_i hmoves
    obtain ⟨l, hrem, hrun⟩ := Option.bind_eq_some_iff.mp hrun
    obtain ⟨l', hins, hsched⟩ := Option.bind_eq_some_iff.mp hrun
    have hl : Bypassed z own { e with list := l' } :=
      ⟨(h.apart.remove ht.symm hrem).insertBefore (hz.ready _) ht.symm hins, h.current⟩
    obtain ⟨h₁, hsame⟩ := schedule hl hz hsched
    refine ⟨h₁, fun r => ?_⟩
    rw [hstep, if_pos hmoves, hrem, Option.bind_eq_bind, Option.bind_some, hins,
      Option.bind_some, withRecord_setList, hsame]
  · rename_i hmoves
    cases hrun
    exact ⟨h, fun r => by rw [hstep, if_neg hmoves]⟩

theorem tickSlice (h : Bypassed z own e) (hz : Outside z) (hrun : rtTickSlice e = some e') :
    PassesBy z own rtTickSlice e e' := by
  obtain ⟨t, hcur, hrun⟩ := Option.bind_eq_some_iff.mp hrun
  have ht : z ≠ .item t := h.current t hcur
  have hset : ∀ {f : SchedSys τ σ (ThreadLinks τ σ)} (q : RtThread), Bypassed z own f →
      Bypassed z own (f.setThread t q) := fun _ hf => ⟨hf.apart, hf.current⟩
  have hstep : ∀ r, rtTickSlice (e.withRecord z r) =
      let charged := e.setThread t
        { e.thread t with remainingTick := (e.thread t).remainingTick - 1 }
      if (e.thread t).remainingTick - 1 = 0 then
        rtThreadYield ((charged.setThread t
          { charged.thread t with remainingTick := (charged.thread t).initTick }).withRecord z r)
      else some (charged.withRecord z r) := by
    intro r
    rw [rtTickSlice, withRecord_current, hcur, Option.bind_eq_bind, Option.bind_some]
    simp only [withRecord_thread ht, withRecord_setThread ht, Option.pure_def]
  dsimp only at hrun
  split at hrun
  · rename_i hzero
    obtain ⟨h₁, hsame⟩ := yield (hset _ (hset _ h)) hz hrun
    exact ⟨h₁, fun r => by rw [hstep]; exact (if_pos hzero).trans (hsame r)⟩
  · rename_i hzero
    cases hrun
    exact ⟨hset _ h, fun r => by rw [hstep]; exact if_neg hzero⟩

/-- The search through the waiters stops at a node a link leads to. -/
theorem ipcSearch (h : Bypassed z own e) (ht : z ≠ .item t) (fuel : Nat) :
    ∀ {n n' : ThreadNode τ σ}, n ≠ z → rtIpcListSearch e s t fuel n = some n' →
      n' ≠ z ∧ ∀ r, rtIpcListSearch (e.withRecord z r) s t fuel n = some n' := by
  -- a walk that starts off `z` is never led to it, so it compares no record there
  induction fuel with
  | zero => intro n n' _ hrun; cases hrun
  | succ fuel ih =>
    intro n n' hn hrun
    rw [rtIpcListSearch] at hrun
    split at hrun
    · rename_i hhead
      cases hrun
      exact ⟨hn, fun r => by rw [rtIpcListSearch, if_pos hhead]⟩
    · rename_i hhead
      obtain ⟨u, hu, hrun⟩ := Option.bind_eq_some_iff.mp hrun
      have huz : z ≠ .item u := by
        cases n with
        | head hd => cases hu
        | item v =>
          obtain rfl := Option.some.inj hu
          exact hn.symm
      split at hrun
      · rename_i hprec
        cases hrun
        refine ⟨hn, fun r => ?_⟩
        rw [rtIpcListSearch, if_neg hhead, hu, Option.bind_eq_bind, Option.bind_some,
          withRecord_thread ht, withRecord_thread huz, if_pos hprec]
        rfl
      · rename_i hprec
        obtain ⟨q, hq, hrun⟩ := Option.bind_eq_some_iff.mp hrun
        obtain ⟨hne, hsame⟩ := ih (h.apart.ne_next hn hq) hrun
        refine ⟨hne, fun r => ?_⟩
        rw [rtIpcListSearch, if_neg hhead, hu, Option.bind_eq_bind, Option.bind_some,
          withRecord_thread ht, withRecord_thread huz, if_neg hprec, withRecord_list, hq]
        exact hsame r

theorem ipcInsert [Fintype τ] (h : Bypassed z own e) (hz : Outside z) (ht : z ≠ .item t)
    (hrun : rtIpcListInsert e s t = some e') :
    PassesBy z own (rtIpcListInsert · s t) e e' := by
  unfold rtIpcListInsert at hrun
  split at hrun
  · rename_i hfifo
    obtain ⟨l, hins, hret⟩ := Option.bind_eq_some_iff.mp hrun
    cases hret
    refine ⟨⟨h.apart.insertBefore (hz.suspend s) ht.symm hins, h.current⟩, fun r => ?_⟩
    simp only [rtIpcListInsert, withRecord_sem, withRecord_list, if_pos hfifo, hins,
      Option.bind_eq_bind, Option.bind_some, Option.pure_def]
    cases z <;> rfl
  · rename_i hfifo
    split at hrun
    · rename_i hprio
      obtain ⟨n, hn, hrun⟩ := Option.bind_eq_some_iff.mp hrun
      obtain ⟨n', hsearch, hrun⟩ := Option.bind_eq_some_iff.mp hrun
      obtain ⟨l, hins, hret⟩ := Option.bind_eq_some_iff.mp hrun
      cases hret
      obtain ⟨hne, hsame⟩ := ipcSearch h ht _ (h.apart.ne_next (hz.suspend s) hn) hsearch
      refine ⟨⟨h.apart.insertBefore hne ht.symm hins, h.current⟩, fun r => ?_⟩
      simp only [rtIpcListInsert, withRecord_sem, withRecord_list, if_neg hfifo, if_pos hprio, hn,
        hsame, hins, Option.bind_eq_bind, Option.bind_some, Option.pure_def]
      cases z <;> rfl
    · rename_i hprio
      cases hrun
      refine ⟨h, fun r => ?_⟩
      simp only [rtIpcListInsert, withRecord_sem, if_neg hfifo, if_neg hprio, Option.pure_def]

theorem ipcResumeAll (hz : Outside z) (s : σ) (fuel : Nat) :
    ∀ {e e' : SchedSys τ σ (ThreadLinks τ σ)}, Bypassed z own e →
      rtIpcListResumeAll s fuel e = some e' →
        PassesBy z own (rtIpcListResumeAll s fuel) e e' := by
  induction fuel with
  | zero => intro e e' _ hrun; cases hrun
  | succ fuel ih =>
    intro e e' h hrun
    rw [rtIpcListResumeAll] at hrun
    split at hrun
    · rename_i hempty
      cases hrun
      exact ⟨h, fun r => by rw [rtIpcListResumeAll, withRecord_list, if_pos hempty]⟩
    · rename_i hempty
      obtain ⟨n, hn, hrun⟩ := Option.bind_eq_some_iff.mp hrun
      obtain ⟨t, ht, hrun⟩ := Option.bind_eq_some_iff.mp hrun
      obtain ⟨⟨c, e₁⟩, hresume, hrun⟩ := Option.bind_eq_some_iff.mp hrun
      have htz : z ≠ .item t := entry_ne h (hz.suspend s) hn ht
      have herr : Bypassed z own (e.setError t (-RT_ERROR)) := ⟨h.apart, h.current⟩
      obtain ⟨h₁, hsame⟩ := resume herr hz htz hresume
      obtain ⟨h₂, hrest⟩ := ih h₁ hrun
      refine ⟨h₂, fun r => ?_⟩
      rw [rtIpcListResumeAll, withRecord_list, if_neg hempty, hn, Option.bind_eq_bind,
        Option.bind_some, ht, Option.bind_eq_bind, Option.bind_some, withRecord_setError htz, hsame]
      exact hrest r

theorem semRelease (h : Bypassed z own e) (hz : Outside z) (hrun : rtSemRelease e s = some e') :
    PassesBy z own (rtSemRelease · s) e e' := by
  unfold rtSemRelease at hrun
  split at hrun
  · rename_i hsome
    obtain ⟨e₁, hresume, hsched⟩ := Option.bind_eq_some_iff.mp hrun
    obtain ⟨n, hn, hresume⟩ := Option.bind_eq_some_iff.mp hresume
    obtain ⟨t, ht, hresume⟩ := Option.bind_eq_some_iff.mp hresume
    obtain ⟨⟨c, e₂⟩, hresume, hret⟩ := Option.bind_eq_some_iff.mp hresume
    cases hret
    obtain ⟨h₁, hsame₁⟩ := resume h hz (entry_ne h (hz.suspend s) hn ht) hresume
    obtain ⟨h₂, hsame₂⟩ := schedule h₁ hz hsched
    have hfirst : ∀ r, rtIpcListResume (e.withRecord z r) s = some (e₁.withRecord z r) := by
      intro r
      rw [rtIpcListResume, withRecord_list, hn, Option.bind_eq_bind, Option.bind_some, ht,
        Option.bind_eq_bind, Option.bind_some, hsame₁]
      rfl
    refine ⟨h₂, fun r => ?_⟩
    rw [rtSemRelease, withRecord_list, if_pos hsome, hfirst]
    exact hsame₂ r
  · rename_i hsome
    cases hrun
    refine ⟨⟨h.apart, h.current⟩, fun r => ?_⟩
    rw [rtSemRelease, withRecord_list, if_neg hsome, withRecord_sem, withRecord_setSem]
    rfl

theorem semControl [Fintype τ] {cmd c : Int} {arg : BitVec 32} (h : Bypassed z own e)
    (hz : Outside z) (hrun : rtSemControl e s cmd arg = some (c, e')) :
    PassesBy z own (fun e => (rtSemControl e s cmd arg).map Prod.snd) e e' := by
  unfold rtSemControl at hrun
  split at hrun
  · rename_i hcmd
    obtain ⟨e₁, hall, hrun⟩ := Option.bind_eq_some_iff.mp hrun
    obtain ⟨e₂, hsched, hret⟩ := Option.bind_eq_some_iff.mp hrun
    cases hret
    obtain ⟨h₁, hsame₁⟩ := ipcResumeAll hz s _ h hall
    obtain ⟨h₂, hsame₂⟩ := schedule (e := e₁.setSem s _) ⟨h₁.apart, h₁.current⟩ hz hsched
    refine ⟨h₂, fun r => ?_⟩
    rw [rtSemControl, if_pos hcmd, hsame₁, Option.bind_eq_bind, Option.bind_some, withRecord_sem,
      withRecord_setSem]
    show Option.map Prod.snd ((rtSchedule ((e₁.setSem s
      { e₁.sem s with value := arg.setWidth 16 }).withRecord z r)).bind _) = _
    rw [hsame₂]
    rfl
  · rename_i hcmd
    cases hrun
    exact ⟨h, fun r => by rw [rtSemControl, if_neg hcmd]; rfl⟩

section
omit [DecidableEq σ]

theorem exitCritical (h : Bypassed z own e) (hz : Outside z) (hrun : rtExitCritical e = some e') :
    PassesBy z own rtExitCritical e e' := by
  have hstep : ∀ r, rtExitCritical (e.withRecord z r) =
      if e.rtSchedulerLockNest - 1 ≤ 0 then
        if e.rtCurrentThread.isSome then
          rtSchedule (({ e with rtSchedulerLockNest := 0 } : SchedSys τ σ _).withRecord z r)
        else some (({ e with rtSchedulerLockNest := 0 } : SchedSys τ σ _).withRecord z r)
      else some (({ e with rtSchedulerLockNest := e.rtSchedulerLockNest - 1 } :
        SchedSys τ σ _).withRecord z r) := by
    intro r
    rw [← withRecord_setLockNest, ← withRecord_setLockNest]
    cases z <;> rfl
  unfold rtExitCritical at hrun
  dsimp only at hrun
  split at hrun
  · rename_i hlast
    split at hrun
    · rename_i hcur
      have h₀ : Bypassed z own { e with rtSchedulerLockNest := 0 } := ⟨h.apart, h.current⟩
      obtain ⟨h₁, hsame⟩ := schedule h₀ hz hrun
      exact ⟨h₁, fun r => by rw [hstep, if_pos hlast, if_pos hcur, hsame]⟩
    · rename_i hcur
      cases hrun
      exact ⟨⟨h.apart, h.current⟩, fun r => by rw [hstep, if_pos hlast, if_neg hcur]⟩
  · rename_i hlast
    cases hrun
    exact ⟨⟨h.apart, h.current⟩, fun r => by rw [hstep, if_neg hlast]⟩

end

end PassesBy

end Bypass

end SampleRtos
