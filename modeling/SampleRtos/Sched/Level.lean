import SampleRtos.Sched.Step

/-!
# One level of priority left alone

What an operation that is not about the ready threads of priority `p` does to
them: their list and their slices stay as they were, and if one of them is the
current thread it is the first.
-/

namespace SampleRtos

open Intrusive

section Level
variable {τ σ : Type} [DecidableEq τ] [DecidableEq σ] {p : Nat}
  {e e' e'' : SchedSys τ σ (ThreadRings τ σ)} {t : τ} {s : σ}

/-- A current thread of level `p` is the first of its list. -/
def AtFront (p : Nat) (e : SchedSys τ σ (ThreadRings τ σ)) : Prop :=
  ∀ t ∈ e.rtCurrentThread, t ∈ e.readyList p → (e.readyList p).head? = some t

structure LevelKept (p : Nat) (e e' : SchedSys τ σ (ThreadRings τ σ)) : Prop where
  list : e'.readyList p = e.readyList p
  initTick : ∀ t ∈ e.readyList p, (e'.thread t).initTick = (e.thread t).initTick
  remaining : ∀ t ∈ e.readyList p, (e'.thread t).remainingTick = (e.thread t).remainingTick
  lock : e.rtSchedulerLockNest = 0 → e'.rtSchedulerLockNest = 0
  front : AtFront p e → AtFront p e'

section
omit [DecidableEq τ] [DecidableEq σ]

/-- The thread the bitmap points to is first of the one list it is on. -/
theorem highestReadyThread_front (hw : SchedWf e) (h : Abs.highestReadyThread e = some t)
    (ht : t ∈ e.readyList p) : (e.readyList p).head? = some t := by
  have hq := ((hw.ready_iff t _).mp (List.mem_of_mem_head? h)).2
  have hp := ((hw.ready_iff t p).mp ht).2
  obtain rfl : e.highestReadyPriority = p := hq.symm.trans hp
  exact h

end

section
omit [DecidableEq σ]

/-- An unlocked scheduler runs the first of a list. -/
theorem schedule_atFront (hw : SchedWf e) (hlock : e.rtSchedulerLockNest = 0)
    (h : Abs.schedule e = some e') : AtFront p e' := by
  obtain ⟨u, hhead, rfl⟩ := schedule_spec h
  intro t ht hmem
  rw [SchedSys.switchTo_current, if_pos hlock] at ht
  obtain rfl : u = t := Option.some.inj ht
  rw [SchedSys.switchTo_readyList] at hmem ⊢
  exact highestReadyThread_front hw hhead hmem

end

namespace LevelKept

section
omit [DecidableEq τ] [DecidableEq σ]

theorem refl (e : SchedSys τ σ (ThreadRings τ σ)) : LevelKept p e e :=
  ⟨rfl, fun _ _ => rfl, fun _ _ => rfl, id, id⟩

theorem trans (h : LevelKept p e e') (h' : LevelKept p e' e'') : LevelKept p e e'' where
  list := h'.list.trans h.list
  initTick t ht := (h'.initTick t (h.list ▸ ht)).trans (h.initTick t ht)
  remaining t ht := (h'.remaining t (h.list ▸ ht)).trans (h.remaining t ht)
  lock hlock := h'.lock (h.lock hlock)
  front hfront := h'.front (h.front hfront)

/-- Nothing but records of other threads and fields of no concern change. -/
theorem of_frame (hlist : e'.readyList p = e.readyList p)
    (hthread : ∀ u ∈ e.readyList p, (e'.thread u).initTick = (e.thread u).initTick ∧
      (e'.thread u).remainingTick = (e.thread u).remainingTick)
    (hlock : e.rtSchedulerLockNest = 0 → e'.rtSchedulerLockNest = 0)
    (hcur : e'.rtCurrentThread = e.rtCurrentThread) : LevelKept p e e' where
  list := hlist
  initTick u hu := (hthread u hu).1
  remaining u hu := (hthread u hu).2
  lock := hlock
  front hfront := by
    intro u hu hmem
    rw [hlist] at hmem ⊢
    exact hfront u (hcur ▸ hu) hmem

end

section
omit [DecidableEq σ]

/-- A reschedule finds the first of a list or leaves the current thread running. -/
theorem schedule (hw : SchedWf e) (h : Abs.schedule e = some e') : LevelKept p e e' := by
  have hsame := schedule_same h
  refine ⟨by rw [hsame.readyList], fun u _ => by rw [hsame.thread], fun u _ => by rw [hsame.thread],
    fun hlock => by rw [hsame.lockNest]; exact hlock, fun hfront => ?_⟩
  by_cases hlock : e.rtSchedulerLockNest = 0
  · exact schedule_atFront hw hlock h
  · obtain ⟨u, -, rfl⟩ := schedule_spec h
    intro v hv hmem
    rw [SchedSys.switchTo_current, if_neg hlock] at hv
    rw [SchedSys.switchTo_readyList] at hmem ⊢
    exact hfront v hv hmem

end

section
omit [DecidableEq τ] [DecidableEq σ]

theorem schedStart (hw : SchedWf e) (h : Abs.schedStart e = some e') : LevelKept p e e' := by
  obtain ⟨u, hhead, rfl⟩ := schedStart_spec h
  refine ⟨rfl, fun _ _ => rfl, fun _ _ => rfl, id, fun _ t ht hmem => ?_⟩
  obtain rfl : u = t := Option.some.inj ht
  exact highestReadyThread_front (e := e) hw hhead hmem

end

/-- A thread of another priority goes to the end of its list. -/
theorem relist (hw : SchedWf e) {r : RtThread}
    (hprio : r.currentPriority = (e.thread t).currentPriority)
    (ht : (e.thread t).currentPriority ≠ p) : LevelKept p e (e.relistReady t r) := by
  have hnot : t ∉ e.readyList p := fun hmem => ht (hw.prio_of_mem hmem).symm
  refine of_frame ?_ (fun u hu => ?_) id rfl
  · rw [SchedSys.relistReady_readyList, if_neg (by rw [hprio]; exact ht.symm),
      List.erase_of_not_mem hnot]
  · have hut : u ≠ t := fun hut => hnot (hut ▸ hu)
    simp [hut]

section
omit [DecidableEq σ]

theorem unlist {r : RtThread} (ht : t ∉ e.readyList p) : LevelKept p e (e.unlist t r) := by
  refine of_frame ?_ (fun u hu => ?_) id rfl
  · rw [SchedSys.unlist_readyList, List.erase_of_not_mem ht]
  · have hut : u ≠ t := fun hut => ht (hut ▸ hu)
    simp [hut]

theorem setThread {r : RtThread} (hr : t ∈ e.readyList p →
      r.initTick = (e.thread t).initTick ∧ r.remainingTick = (e.thread t).remainingTick) :
    LevelKept p e (e.setThread t r) := by
  refine of_frame rfl (fun u hu => ?_) id rfl
  by_cases hut : u = t
  · subst hut; simpa using hr hu
  · simp [hut]

end

section
omit [DecidableEq τ]

theorem setSem (r : RtSemaphore) : LevelKept p e (e.setSem s r) :=
  of_frame rfl (fun _ _ => ⟨rfl, rfl⟩) id rfl

end

/-- Waiters of other priorities are woken with an error. -/
theorem failAll {ts : List τ} : ∀ {e : SchedSys τ σ (ThreadRings τ σ)}, SchedWf e →
    e.waiters s = ts → (∀ t ∈ ts, (e.thread t).currentPriority ≠ p) →
      LevelKept p e (e.failAll ts) := by
  induction ts with
  | nil => exact fun _ _ _ => refl _
  | cons t ts ih =>
    intro e hw hts hprio
    obtain ⟨hw₁, hts₁⟩ := failOne_wf hw hts
    refine (relist (r := (e.thread t).failed) hw rfl (hprio t (List.mem_cons_self ..))).trans
      (ih hw₁ hts₁ fun u hu => ?_)
    have hu' := hprio u (List.mem_cons_of_mem _ hu)
    by_cases hut : u = t
    · subst hut; simpa [RtThread.failed] using hu'
    · simpa [hut] using hu'

/-! ## The operations -/

theorem resume (hw : SchedWf e) {c : Int}
    (ht : (e.thread t).stat = .suspend → (e.thread t).currentPriority ≠ p)
    (h : Abs.resume e t = some (c, e')) : LevelKept p e e' := by
  rcases resume_spec h with ⟨-, -, rfl⟩ | ⟨hst, -, -, rfl⟩
  · exact refl _
  · exact relist hw rfl (ht hst)

theorem startup (hw : SchedWf e) (ht : (e.thread t).currentPriority ≠ p)
    (h : Abs.startup e t = some e') : LevelKept p e e' := by
  have hrelist : LevelKept p e (e.relistReady t (e.thread t).started) :=
    relist hw (hw.init_prio t) ht
  obtain ⟨hlive, ⟨-, rfl⟩ | ⟨-, hsched⟩⟩ := startup_spec h
  · exact hrelist
  · have hw₁ : SchedWf (e.relistReady t (e.thread t).started) :=
      hw.relistReady hlive rfl (hw.init_prio t) rfl rfl
    exact hrelist.trans (schedule hw₁ hsched)

theorem timeout (hw : SchedWf e) (hact : (e.thread t).Active)
    (ht : (e.thread t).currentPriority ≠ p) (h : Abs.timeout e t = some e') :
    LevelKept p e e' := by
  have hw₁ : SchedWf (e.relistReady t (e.thread t).timedOut) := hw.wake hact rfl rfl rfl rfl
  exact (relist hw (by rfl) ht).trans (schedule hw₁ (timeout_spec h).2)

theorem yield (hw : SchedWf e) (ht : ∀ t ∈ e.rtCurrentThread, t ∉ e.readyList p)
    (h : Abs.yield e = some e') : LevelKept p e e' := by
  obtain ⟨t, hcur, ⟨rfl, -⟩ | ⟨hst, hsched⟩⟩ := yield_spec hw h
  · exact refl _
  · have hprio : (e.thread t).currentPriority ≠ p := fun hp =>
      ht t hcur ((hw.ready_iff t p).mpr ⟨hst, hp⟩)
    have hw₁ : SchedWf (e.relistReady t (e.thread t)) := hw.wake (.inl hst) hst rfl rfl rfl
    exact (relist hw rfl hprio).trans (schedule hw₁ hsched)

/-- A tick charged to a thread of another level. -/
theorem tickSlice (hw : SchedWf e) (ht : ∀ t ∈ e.rtCurrentThread, t ∉ e.readyList p)
    (h : Abs.tickSlice e = some e') : LevelKept p e e' := by
  obtain ⟨t, hcur, ⟨-, rfl⟩ | ⟨-, ⟨rfl, -⟩ | ⟨hst, hsched⟩⟩⟩ := tickSlice_spec hw h
  · exact setThread fun hmem => absurd hmem (ht t hcur)
  · exact setThread fun hmem => absurd hmem (ht t hcur)
  · have hprio : (e.thread t).currentPriority ≠ p := fun hp =>
      ht t hcur ((hw.ready_iff t p).mpr ⟨hst, hp⟩)
    have hw₁ : SchedWf (e.relistReady t ((e.thread t).withRemaining (e.thread t).initTick)) :=
      hw.wake (.inl hst) hst rfl rfl rfl
    exact (relist hw (by rfl) hprio).trans (schedule hw₁ hsched)

theorem semRelease (hw : SchedWf e)
    (ht : ∀ t ∈ (e.waiters s).take 1, (e.thread t).currentPriority ≠ p)
    (h : Abs.semRelease e s = some e') : LevelKept p e e' := by
  rcases semRelease_spec hw h with ⟨-, rfl⟩ | ⟨t, ts, hts, hst, hsched⟩
  · exact setSem _
  · have hprio := ht t (by rw [hts]; exact List.mem_cons_self ..)
    have hw₁ : SchedWf (e.relistReady t { e.thread t with stat := .ready }) :=
      hw.wake (.inr hst) rfl rfl rfl rfl
    exact (relist hw (by rfl) hprio).trans (schedule hw₁ hsched)

theorem semControl [Fintype τ] (hw : SchedWf e) {cmd c : Int} {arg : BitVec 32}
    (ht : cmd = RT_IPC_CMD_RESET → ∀ t ∈ e.waiters s, (e.thread t).currentPriority ≠ p)
    (h : Abs.semControl e s cmd arg = some (c, e')) : LevelKept p e e' := by
  rcases semControl_spec hw h with ⟨-, -, rfl⟩ | ⟨hcmd, -, hsched⟩
  · exact refl _
  · have hw₁ : SchedWf ((e.failAll (e.waiters s)).setSem s
        { (e.failAll (e.waiters s)).sem s with value := arg.setWidth 16 }) :=
      (hw.failAll rfl).1.congr rfl rfl rfl
    exact ((failAll hw rfl (ht hcmd)).trans (setSem _)).trans (schedule hw₁ hsched)

theorem semDetach [Fintype τ] (hw : SchedWf e)
    (ht : ∀ t ∈ e.waiters s, (e.thread t).currentPriority ≠ p)
    (h : Abs.semDetach e s = some e') : LevelKept p e e' := by
  rw [semDetach_spec hw h]
  exact failAll hw rfl ht

section
omit [DecidableEq σ]

theorem exitCritical (hw : SchedWf e) (h : Abs.exitCritical e = some e') :
    LevelKept p e e' := by
  have hset : LevelKept p e { e with rtSchedulerLockNest := 0 } :=
    of_frame rfl (fun _ _ => ⟨rfl, rfl⟩) (fun _ => rfl) rfl
  unfold Abs.exitCritical at h
  dsimp only at h
  split at h
  · split at h
    · exact hset.trans (schedule (hw.congr rfl rfl rfl) h)
    · cases h
      exact hset
  · rename_i hpos
    cases h
    exact of_frame rfl (fun _ _ => ⟨rfl, rfl⟩) (fun hlock => absurd (by omega) hpos) rfl

end

end LevelKept

end Level

end SampleRtos
