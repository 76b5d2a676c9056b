import SampleRtos.Sched.Wf

/-!
# What each scheduling operation does

One inversion lemma for each operation on sequences: if it returns, its result
is the state before after one of the four moves of `Sched.Wf`, followed by a
reschedule where the source has one. Everything later argues from these.
-/

namespace SampleRtos

open Intrusive

section Spec
variable {τ σ : Type} [DecidableEq τ] [DecidableEq σ]
  {a a' : SchedSys τ σ (ThreadRings τ σ)} {t : τ} {s : σ}

/-! ## Rescheduling -/

namespace SchedSys
variable {L : Type} (k : SchedSys τ σ L) (t : τ)

section
omit [DecidableEq σ]

@[simp] theorem switchTo_thread : (k.switchTo t).thread = k.thread := by
  unfold switchTo; split <;> rfl

@[simp] theorem switchTo_sem : (k.switchTo t).sem = k.sem := by
  unfold switchTo; split <;> rfl

@[simp] theorem switchTo_list : (k.switchTo t).list = k.list := by
  unfold switchTo; split <;> rfl

@[simp] theorem switchTo_group :
    (k.switchTo t).rtThreadReadyPriorityGroup = k.rtThreadReadyPriorityGroup := by
  unfold switchTo; split <;> rfl

@[simp] theorem switchTo_lockNest :
    (k.switchTo t).rtSchedulerLockNest = k.rtSchedulerLockNest := by
  unfold switchTo; split <;> rfl

@[simp] theorem switchTo_waiters (a : SchedSys τ σ (ThreadRings τ σ)) (t : τ) :
    (a.switchTo t).waiters = a.waiters := by
  unfold switchTo; split <;> rfl

@[simp] theorem switchTo_readyList (a : SchedSys τ σ (ThreadRings τ σ)) (t : τ) :
    (a.switchTo t).readyList = a.readyList := by
  unfold switchTo; split <;> rfl

/-- The scheduler makes `t` the current thread exactly when it is not locked. -/
theorem switchTo_current :
    (k.switchTo t).rtCurrentThread =
      if k.rtSchedulerLockNest = 0 then some t else k.rtCurrentThread := by
  unfold switchTo
  by_cases hlock : k.rtSchedulerLockNest = 0
  · by_cases hcur : some t = k.rtCurrentThread
    · simp [hlock, ← hcur]
    · simp [hlock, hcur]
  · simp [hlock]

end

end SchedSys

/-- The states agree on all but the current thread and the port. -/
structure SameLists (a a' : SchedSys τ σ (ThreadRings τ σ)) : Prop where
  thread : a'.thread = a.thread
  sem : a'.sem = a.sem
  list : a'.list = a.list
  group : a'.rtThreadReadyPriorityGroup = a.rtThreadReadyPriorityGroup
  lockNest : a'.rtSchedulerLockNest = a.rtSchedulerLockNest

namespace SameLists

section
omit [DecidableEq τ] [DecidableEq σ]

theorem waiters (h : SameLists a a') : a'.waiters = a.waiters := by
  funext s; rw [SchedSys.waiters, SchedSys.waiters, h.list]

theorem readyList (h : SameLists a a') : a'.readyList = a.readyList := by
  funext p; rw [SchedSys.readyList, SchedSys.readyList, h.list]

theorem wf (h : SameLists a a') (hw : SchedWf a) : SchedWf a' :=
  hw.congr h.thread h.list h.group

end

end SameLists

section
omit [DecidableEq σ]

theorem schedule_spec (h : Abs.schedule a = some a') :
    ∃ t, Abs.highestReadyThread a = some t ∧ a' = a.switchTo t := by
  unfold Abs.schedule at h
  obtain ⟨t, ht, hret⟩ := Option.bind_eq_some_iff.mp h
  exact ⟨t, ht, (Option.some.inj hret).symm⟩

theorem schedule_same (h : Abs.schedule a = some a') : SameLists a a' := by
  obtain ⟨t, -, rfl⟩ := schedule_spec h
  constructor <;> simp

end

section
omit [DecidableEq τ] [DecidableEq σ]

theorem schedStart_spec (h : Abs.schedStart a = some a') :
    ∃ t, Abs.highestReadyThread a = some t ∧ a' = a.startAt t := by
  unfold Abs.schedStart at h
  obtain ⟨t, ht, hret⟩ := Option.bind_eq_some_iff.mp h
  exact ⟨t, ht, (Option.some.inj hret).symm⟩

end

section
omit [DecidableEq σ]

theorem exitCritical_spec (h : Abs.exitCritical a = some a') :
    ∃ n, a' = { a with rtSchedulerLockNest := n } ∨
      Abs.schedule { a with rtSchedulerLockNest := n } = some a' := by
  unfold Abs.exitCritical at h
  dsimp only at h
  split at h
  · split at h
    · exact ⟨0, .inr h⟩
    · exact ⟨0, .inl (Option.some.inj h).symm⟩
  · exact ⟨_, .inl (Option.some.inj h).symm⟩

end

/-! ## Making a thread ready -/

theorem makeReady_spec (h : Abs.makeReady a t = some a') :
    a.list.live (.item t) = true ∧
      a' = a.relistReady t { a.thread t with stat := .ready } := by
  unfold Abs.makeReady remove at h
  split at h
  · rename_i hlive
    refine ⟨hlive, ?_⟩
    simp only [Abs.insertThread, pushBack, insertAt, Option.bind_eq_bind, Option.bind_some] at h
    split at h
    · cases h
      have hmark : (a.list.erase t).mark (.item t) = a.list.erase t := Rings.mark_of_live hlive
      simp [SchedSys.relistReady, SchedSys.setStat, SchedSys.setThread, SchedSys.setGroupBit,
        SchedSys.readyList, hmark]
    · cases h
  · cases h

/-- An initialised thread can be made ready. -/
theorem makeReady_eq (hw : SchedWf a) (hlive : a.list.live (.item t) = true) :
    Abs.makeReady a t = some (a.relistReady t { a.thread t with stat := .ready }) := by
  have hhead := (hw.head_live _).mpr (hw.prio_lt t)
  have hmark : (a.list.erase t).mark (.item t) = a.list.erase t := Rings.mark_of_live hlive
  simp [Abs.makeReady, remove, hlive, Abs.insertThread, pushBack, insertAt, SchedSys.setStat,
    SchedSys.setThread, SchedSys.setGroupBit, SchedSys.relistReady, SchedSys.readyList, hhead,
    hmark]

/-- A record written just before the move is the record moved. -/
theorem relistReady_setThread (a : SchedSys τ σ (ThreadRings τ σ)) (t : τ) (r r' : RtThread) :
    (a.setThread t r).relistReady t r' = a.relistReady t r' := by
  simp [SchedSys.relistReady, SchedSys.setThread, SchedSys.readyList]

theorem resume_spec {e : Int} (h : Abs.resume a t = some (e, a')) :
    ((a.thread t).stat ≠ .suspend ∧ e = -RT_ERROR ∧ a' = a) ∨
      ((a.thread t).stat = .suspend ∧ e = RT_EOK ∧ a.list.live (.item t) = true ∧
        a' = a.relistReady t { a.thread t with stat := .ready }) := by
  unfold Abs.resume at h
  split at h
  · rename_i hst
    cases h
    exact .inl ⟨hst, rfl, rfl⟩
  · rename_i hst
    obtain ⟨a₁, hmake, hret⟩ := Option.bind_eq_some_iff.mp h
    obtain ⟨hlive, rfl⟩ := makeReady_spec hmake
    cases hret
    exact .inr ⟨not_not.mp hst, rfl, hlive, rfl⟩

/-- The record of a thread that `rt_thread_startup` has started. -/
def RtThread.started (r : RtThread) : RtThread :=
  { r with
    currentPriority := r.initPriority
    numberMask := 1#32 <<< r.initPriority
    stat := .ready }

theorem startup_spec (h : Abs.startup a t = some a') :
    a.list.live (.item t) = true ∧
      (a.rtCurrentThread = none ∧ a' = a.relistReady t (a.thread t).started ∨
        a.rtCurrentThread ≠ none ∧
          Abs.schedule (a.relistReady t (a.thread t).started) = some a') := by
  unfold Abs.startup at h
  obtain ⟨⟨e, a₁⟩, hresume, hrest⟩ := Option.bind_eq_some_iff.mp h
  rcases resume_spec hresume with ⟨hst, -⟩ | ⟨-, -, hlive, rfl⟩
  · simp [SchedSys.setThread] at hst
  · rw [relistReady_setThread] at hrest
    simp only [SchedSys.setThread_thread, Function.update_self] at hrest
    refine ⟨hlive, ?_⟩
    split at hrest
    · rename_i hcur
      exact .inr ⟨fun hnone => by simp [hnone] at hcur, hrest⟩
    · rename_i hcur
      exact .inl ⟨by simpa using hcur, (Option.some.inj hrest).symm⟩

/-- The record of a thread whose timer has fired. -/
def RtThread.timedOut (r : RtThread) : RtThread :=
  { r with error := -RT_ETIMEOUT, stat := .ready }

theorem timeout_spec (h : Abs.timeout a t = some a') :
    a.list.live (.item t) = true ∧
      Abs.schedule (a.relistReady t (a.thread t).timedOut) = some a' := by
  unfold Abs.timeout at h
  obtain ⟨a₁, hmake, hsched⟩ := Option.bind_eq_some_iff.mp h
  obtain ⟨hlive, rfl⟩ := makeReady_spec hmake
  rw [SchedSys.setError, relistReady_setThread] at hsched
  simp only [SchedSys.setThread_thread, Function.update_self] at hsched
  exact ⟨hlive, hsched⟩

/-- A ready thread is moved to the end of its list without touching the bitmap. -/
theorem relistReady_of_ready (hw : SchedWf a) (hst : (a.thread t).stat = .ready) :
    a.relistReady t (a.thread t) =
      { a with
        list := (a.list.erase t).setSeq (.ready (a.thread t).currentPriority)
          ((a.readyList (a.thread t).currentPriority).erase t ++ [t]) } := by
  have hgroup : a.rtThreadReadyPriorityGroup ||| (a.thread t).numberMask =
      a.rtThreadReadyPriorityGroup := by
    refine BitVec.eq_of_getLsbD_eq fun p hp => ?_
    rw [BitVec.getLsbD_or, hw.mask_eq (.inl hst), getLsbD_one_shiftLeft hp]
    by_cases hpr : p = (a.thread t).currentPriority
    · subst hpr
      have hbit := (hw.group _ hp).mpr (List.ne_nil_of_mem (hw.mem_ready hst))
      simp [hbit]
    · simp [hpr]
  simp [SchedSys.relistReady, hgroup]

theorem yield_spec (hw : SchedWf a) (h : Abs.yield a = some a') :
    ∃ t, a.rtCurrentThread = some t ∧
      (a' = a ∧ ((a.thread t).stat = .ready → a.readyList (a.thread t).currentPriority = [t]) ∨
        (a.thread t).stat = .ready ∧ Abs.schedule (a.relistReady t (a.thread t)) = some a') := by
  unfold Abs.yield at h
  obtain ⟨t, hcur, h⟩ := Option.bind_eq_some_iff.mp h
  refine ⟨t, hcur, ?_⟩
  split at h
  · rename_i hc
    refine .inr ⟨hc.1, ?_⟩
    have hlive := hw.live t (by simp [hc.1])
    have hhead := (hw.head_live _).mpr (hw.prio_lt t)
    have hmark : (a.list.erase t).mark (.item t) = a.list.erase t := Rings.mark_of_live hlive
    rw [relistReady_of_ready hw hc.1]
    simpa [remove, hlive, pushBack, insertAt, hhead, hmark, SchedSys.readyList] using h
  · rename_i hc
    refine .inl ⟨(Option.some.inj h).symm, fun hst => ?_⟩
    by_contra hne
    exact hc ⟨hst, hne⟩

/-- The current thread's record after a tick that leaves `n` of its slice. -/
def RtThread.withRemaining (r : RtThread) (n : BitVec 32) : RtThread :=
  { r with remainingTick := n }

/-- The slice accounting of one tick: either the slice goes on, or it is renewed
and the current thread, if ready, goes to the end of its list. -/
theorem tickSlice_spec (hw : SchedWf a) (h : Abs.tickSlice a = some a') :
    ∃ t, a.rtCurrentThread = some t ∧
      ((a.thread t).remainingTick ≠ 1 ∧
          a' = a.setThread t ((a.thread t).withRemaining ((a.thread t).remainingTick - 1)) ∨
        (a.thread t).remainingTick = 1 ∧
          (a' = a.setThread t ((a.thread t).withRemaining (a.thread t).initTick) ∧
              ((a.thread t).stat = .ready →
                a.readyList (a.thread t).currentPriority = [t]) ∨
            (a.thread t).stat = .ready ∧
              Abs.schedule
                (a.relistReady t ((a.thread t).withRemaining (a.thread t).initTick)) =
                some a')) := by
  unfold Abs.tickSlice at h
  obtain ⟨t, hcur, h⟩ := Option.bind_eq_some_iff.mp h
  refine ⟨t, hcur, ?_⟩
  dsimp only at h
  split at h
  · rename_i hzero
    have hone : (a.thread t).remainingTick = 1 := by bv_omega
    refine .inr ⟨hone, ?_⟩
    have hset : ∀ r : RtThread, (a.setThread t r).setThread t
        { (a.setThread t r).thread t with remainingTick := ((a.setThread t r).thread t).initTick } =
          a.setThread t { r with remainingTick := r.initTick } := by
      intro r; simp [SchedSys.setThread]
    rw [hset] at h
    have hw' : SchedWf (a.setThread t ((a.thread t).withRemaining (a.thread t).initTick)) :=
      hw.setThread rfl rfl rfl rfl
    obtain ⟨u, hu, hcase⟩ := yield_spec hw' h
    obtain rfl : u = t := Option.some.inj (hu.symm.trans hcur)
    rcases hcase with ⟨rfl, halone⟩ | ⟨hst, hsched⟩
    · refine .inl ⟨rfl, fun hst => ?_⟩
      simpa [RtThread.withRemaining] using halone (by simpa [RtThread.withRemaining] using hst)
    · refine .inr ⟨by simpa [RtThread.withRemaining] using hst, ?_⟩
      rw [relistReady_setThread] at hsched
      simpa using hsched
  · rename_i hne
    refine .inl ⟨fun hone => hne (by simp [hone]), (Option.some.inj h).symm⟩

/-! ## Taking a thread off the lists -/

section
omit [DecidableEq σ]

theorem removeThread_spec (hw : ∀ p, a.list.live (.head (.ready p)) = true ↔
      p < RT_THREAD_PRIORITY_MAX) (hlt : (a.thread t).currentPriority < RT_THREAD_PRIORITY_MAX)
    (h : Abs.removeThread a t = some a') :
    a.list.live (.item t) = true ∧ a' = a.unlist t (a.thread t) := by
  unfold Abs.removeThread remove at h
  split at h
  · rename_i hlive
    refine ⟨hlive, ?_⟩
    have hhead := (hw _).mpr hlt
    simp only [isEmpty, Rings.erase_live, hhead, Bool.true_and, List.isEmpty_iff,
      Rings.erase_seq, Option.bind_eq_bind, Option.bind_some] at h
    split at h <;> rename_i hempty <;> cases h <;>
      simp [SchedSys.unlist, SchedSys.clearGroupBit, SchedSys.readyList, hempty]
  · cases h

end

/-! ## Semaphores -/

/-- A thread joins the waiting list of `s` behind everyone already there or,
under `RT_IPC_FLAG_PRIO`, behind everyone at least as urgent. -/
theorem ipcInsert_spec (hlive : a.list.live (.item t) = true)
    (h : Abs.ipcInsert a s t = some a') :
    ((a.sem s).flag ≠ RT_IPC_FLAG_FIFO ∧ (a.sem s).flag ≠ RT_IPC_FLAG_PRIO ∧ a' = a) ∨
      ∃ xs ys, a.waiters s = xs ++ ys ∧ a.list.live (.head (.suspend s)) = true ∧
        a' = a.setWaiters s (xs ++ t :: ys) ∧
        ((a.sem s).flag = RT_IPC_FLAG_FIFO → ys = []) ∧
        ((a.sem s).flag = RT_IPC_FLAG_PRIO →
          (∀ u ∈ xs, (a.thread u).currentPriority ≤ (a.thread t).currentPriority) ∧
          ∀ u ∈ ys.head?, (a.thread t).currentPriority < (a.thread u).currentPriority) := by
  have hmark : a.list.mark (.item t) = a.list := Rings.mark_of_live hlive
  unfold Abs.ipcInsert at h
  split at h
  · rename_i hfifo
    simp only [pushBack, insertAt, hmark] at h
    split at h
    · rename_i hhead
      cases h
      refine .inr ⟨a.waiters s, [], by simp, hhead, rfl, fun _ => rfl, fun hprio => ?_⟩
      simp [hfifo, RT_IPC_FLAG_FIFO, RT_IPC_FLAG_PRIO] at hprio
    · cases h
  · rename_i hfifo
    split at h
    · rename_i hprio
      obtain ⟨l, hins, hret⟩ := Option.bind_eq_some_iff.mp h
      obtain ⟨hhead, xs, ys, hs, rfl, hxs, hys⟩ := insertOrdered_spec hins
      cases hret
      refine .inr ⟨xs, ys, hs, hhead, by rw [hmark]; rfl, fun hf => absurd hf hfifo,
        fun _ => ⟨fun u hu => not_lt.mp (hxs u hu), hys⟩⟩
    · rename_i hprio
      exact .inl ⟨hfifo, hprio, (Option.some.inj h).symm⟩

theorem ipcResume_spec (hw : SchedWf a) (h : Abs.ipcResume a s = some a') :
    ∃ t ts, a.waiters s = t :: ts ∧ (a.thread t).stat = .suspend ∧
      a' = a.relistReady t { a.thread t with stat := .ready } := by
  unfold Abs.ipcResume at h
  obtain ⟨t, hhead, h⟩ := Option.bind_eq_some_iff.mp h
  obtain ⟨⟨e, a₁⟩, hresume, hret⟩ := Option.bind_eq_some_iff.mp h
  obtain ⟨ts, hts⟩ := List.head?_eq_some_iff.mp hhead
  have hst : (a.thread t).stat = .suspend := hw.waiting t s (by simp [hts])
  cases hret
  rcases resume_spec hresume with ⟨hne, -⟩ | ⟨-, -, -, rfl⟩
  · exact absurd hst hne
  · exact ⟨t, ts, hts, hst, rfl⟩

/-- The record of a waiter woken with an error. -/
def RtThread.failed (r : RtThread) : RtThread :=
  { r with error := -RT_ERROR, stat := .ready }

/-- The threads of a list woken with an error, one after the other. -/
def SchedSys.failAll (a : SchedSys τ σ (ThreadRings τ σ)) (ts : List τ) :
    SchedSys τ σ (ThreadRings τ σ) :=
  ts.foldl (fun a t => a.relistReady t (a.thread t).failed) a

/-- Who is ready after a move was ready before or is the thread moved. -/
theorem relistReady_ready {r : RtThread} {u : τ}
    (hu : ((a.relistReady t r).thread u).stat = .ready) :
    u = t ∨ (a.thread u).stat = .ready := by
  by_cases hut : u = t
  · exact .inl hut
  · exact .inr (by simpa [hut] using hu)

theorem failAll_ready {ts : List τ} {u : τ} : ∀ {a : SchedSys τ σ (ThreadRings τ σ)},
    ((a.failAll ts).thread u).stat = .ready → u ∈ ts ∨ (a.thread u).stat = .ready := by
  induction ts with
  | nil => exact fun hu => .inr hu
  | cons t ts ih =>
    intro a hu
    rcases ih hu with hmem | hu
    · exact .inl (by simp [hmem])
    · exact (relistReady_ready hu).imp_left fun hut => by simp [hut]

@[simp] theorem failAll_current (ts : List τ) : ∀ a : SchedSys τ σ (ThreadRings τ σ),
    (a.failAll ts).rtCurrentThread = a.rtCurrentThread := by
  induction ts with
  | nil => exact fun _ => rfl
  | cons t ts ih => exact fun a => ih _

@[simp] theorem failAll_lockNest (ts : List τ) : ∀ a : SchedSys τ σ (ThreadRings τ σ),
    (a.failAll ts).rtSchedulerLockNest = a.rtSchedulerLockNest := by
  induction ts with
  | nil => exact fun _ => rfl
  | cons t ts ih => exact fun a => ih _

/-- Waking a thread that is started and initialised keeps the invariant. -/
theorem SchedWf.wake (hw : SchedWf a) {r : RtThread}
    (hst : (a.thread t).stat = .ready ∨ (a.thread t).stat = .suspend) (hstat : r.stat = .ready)
    (hprio : r.currentPriority = (a.thread t).currentPriority)
    (hinit : r.initPriority = (a.thread t).initPriority)
    (hmask : r.numberMask = (a.thread t).numberMask) : SchedWf (a.relistReady t r) :=
  hw.relistReady (hw.live t (by rcases hst with hst | hst <;> simp [hst])) hstat hprio hinit
    (by rw [hmask, hprio]; exact hw.mask_eq hst)

section
omit [DecidableEq τ] [DecidableEq σ]

theorem isEmpty_eq_true {r : ThreadRings τ σ} {hd : ThreadHead σ} (h : isEmpty r hd = true) :
    r.seq hd = [] := by
  simpa using (Bool.and_eq_true_iff.mp h).2

end

/-- Waking one waiter with an error leaves the others waiting. -/
theorem failOne_wf (hw : SchedWf a) {ts : List τ} (hts : a.waiters s = t :: ts) :
    SchedWf (a.relistReady t (a.thread t).failed) ∧
      (a.relistReady t (a.thread t).failed).waiters s = ts := by
  have hst : (a.thread t).stat = .suspend := hw.waiting t s (by simp [hts])
  exact ⟨hw.wake (.inr hst) rfl rfl rfl rfl, by simp [hts]⟩

theorem ipcResumeAll_spec (s : σ) (fuel : Nat) :
    ∀ {a a' : SchedSys τ σ (ThreadRings τ σ)}, SchedWf a →
      Abs.ipcResumeAll s fuel a = some a' → a' = a.failAll (a.waiters s) := by
  induction fuel with
  | zero => intro a a' _ h; cases h
  | succ fuel ih =>
    intro a a' hw h
    rw [Abs.ipcResumeAll] at h
    split at h
    · rename_i hempty
      cases h
      rw [SchedSys.waiters, isEmpty_eq_true hempty]
      rfl
    · obtain ⟨t, hhead, h⟩ := Option.bind_eq_some_iff.mp h
      obtain ⟨⟨e, a₁⟩, hresume, h⟩ := Option.bind_eq_some_iff.mp h
      obtain ⟨ts, hts⟩ := List.head?_eq_some_iff.mp hhead
      have hst : (a.thread t).stat = .suspend := hw.waiting t s (by simp [hts])
      obtain ⟨hw₁, hts₁⟩ := failOne_wf hw hts
      rcases resume_spec hresume with ⟨hne, -⟩ | ⟨-, -, -, rfl⟩
      · simp [SchedSys.setError, hst] at hne
      · have heq : (a.setError t (-RT_ERROR)).relistReady t
            { (a.setError t (-RT_ERROR)).thread t with stat := .ready } =
              a.relistReady t (a.thread t).failed := by
          rw [SchedSys.setError, relistReady_setThread]
          simp [RtThread.failed]
        rw [heq] at h
        rw [ih hw₁ h, hts₁, hts]
        rfl

theorem SchedWf.failAll {ts : List τ} :
    ∀ {a : SchedSys τ σ (ThreadRings τ σ)}, SchedWf a → a.waiters s = ts →
      SchedWf (a.failAll ts) ∧ (a.failAll ts).waiters s = [] := by
  induction ts with
  | nil => exact fun hw hts => ⟨hw, hts⟩
  | cons t ts ih =>
    intro a hw hts
    obtain ⟨hw₁, hts₁⟩ := failOne_wf hw hts
    exact ih hw₁ hts₁

theorem semRelease_spec (hw : SchedWf a) (h : Abs.semRelease a s = some a') :
    (a.waiters s = [] ∧ a' = a.setSem s { a.sem s with value := (a.sem s).value + 1 }) ∨
      ∃ t ts, a.waiters s = t :: ts ∧ (a.thread t).stat = .suspend ∧
        Abs.schedule (a.relistReady t { a.thread t with stat := .ready }) = some a' := by
  unfold Abs.semRelease at h
  split at h
  · obtain ⟨a₁, hresume, hsched⟩ := Option.bind_eq_some_iff.mp h
    obtain ⟨t, ts, hts, hst, rfl⟩ := ipcResume_spec hw hresume
    exact .inr ⟨t, ts, hts, hst, hsched⟩
  · rename_i hempty
    exact .inl ⟨isEmpty_eq_true (not_not.mp hempty), (Option.some.inj h).symm⟩

theorem semControl_spec [Fintype τ] (hw : SchedWf a) {cmd e : Int} {arg : BitVec 32}
    (h : Abs.semControl a s cmd arg = some (e, a')) :
    (cmd ≠ RT_IPC_CMD_RESET ∧ e = -RT_ERROR ∧ a' = a) ∨
      (cmd = RT_IPC_CMD_RESET ∧ e = RT_EOK ∧
        Abs.schedule ((a.failAll (a.waiters s)).setSem s
          { (a.failAll (a.waiters s)).sem s with value := arg.setWidth 16 }) = some a') := by
  unfold Abs.semControl at h
  split at h
  · rename_i hcmd
    obtain ⟨a₁, hall, h⟩ := Option.bind_eq_some_iff.mp h
    obtain ⟨a₂, hsched, hret⟩ := Option.bind_eq_some_iff.mp h
    cases hret
    rw [ipcResumeAll_spec s _ hw hall] at hsched
    exact .inr ⟨hcmd, rfl, hsched⟩
  · rename_i hcmd
    cases h
    exact .inl ⟨hcmd, rfl, rfl⟩

theorem semDetach_spec [Fintype τ] (hw : SchedWf a) (h : Abs.semDetach a s = some a') :
    a' = a.failAll (a.waiters s) :=
  ipcResumeAll_spec s _ hw h

end Spec

end SampleRtos
