import SampleRtos.Sched.Spec

/-!
# What every scheduling operation keeps

The operations of the scheduling part, the insertion into a waiting list apart,
wake threads and reorder ready lists and do nothing else to the lists. `Waking`
says so once: the invariant holds after it, a ready thread is still ready, a
started one still started, priorities and flags stand, waiting lists only lose
members, a semaphore whose value changes has no waiters left, and a thread that
becomes current is ready.
-/

namespace SampleRtos

open Intrusive

section Step
variable {τ σ : Type} [DecidableEq τ] [DecidableEq σ]
  {a a' a'' : SchedSys τ σ (ThreadRings τ σ)} {t : τ} {s : σ}

/-- A thread that has been started and not detached. -/
def RtThread.Active (r : RtThread) : Prop := r.stat = .ready ∨ r.stat = .suspend

structure Waking (a a' : SchedSys τ σ (ThreadRings τ σ)) : Prop where
  wf : SchedWf a'
  ready : ∀ u, (a.thread u).stat = .ready → (a'.thread u).stat = .ready
  active : ∀ u, (a.thread u).Active → (a'.thread u).Active
  prio : ∀ u, (a'.thread u).currentPriority = (a.thread u).currentPriority
  waiters : ∀ s, (a'.waiters s).Sublist (a.waiters s)
  flag : ∀ s, (a'.sem s).flag = (a.sem s).flag
  value : ∀ s, (a'.sem s).value = (a.sem s).value ∨ a'.waiters s = []
  live : ∀ n, a'.list.live n = a.list.live n
  current : a'.rtCurrentThread = a.rtCurrentThread ∨
    ∃ t, a'.rtCurrentThread = some t ∧ (a'.thread t).stat = .ready

namespace Waking

section
omit [DecidableEq τ] [DecidableEq σ]

theorem refl (hw : SchedWf a) : Waking a a :=
  ⟨hw, fun _ => id, fun _ => id, fun _ => rfl, fun _ => .refl _, fun _ => rfl,
    fun _ => .inl rfl, fun _ => rfl, .inl rfl⟩

theorem trans (h : Waking a a') (h' : Waking a' a'') : Waking a a'' where
  wf := h'.wf
  ready u hu := h'.ready u (h.ready u hu)
  active u hu := h'.active u (h.active u hu)
  prio u := (h'.prio u).trans (h.prio u)
  waiters s := (h'.waiters s).trans (h.waiters s)
  flag s := (h'.flag s).trans (h.flag s)
  value s := by
    rcases h'.value s with heq | hnil
    · rcases h.value s with heq₀ | hnil
      · exact .inl (heq.trans heq₀)
      · exact .inr (List.sublist_nil.mp (hnil ▸ h'.waiters s))
    · exact .inr hnil
  live n := (h'.live n).trans (h.live n)
  current := by
    rcases h'.current with heq | hready
    · rcases h.current with heq₀ | ⟨t, hcur, hst⟩
      · exact .inl (heq.trans heq₀)
      · exact .inr ⟨t, heq.trans hcur, h'.ready t hst⟩
    · exact .inr hready

/-- The scheduler hands the processor to a ready thread or to nobody. -/
theorem of_same (hw : SchedWf a) (h : SameLists a a')
    (hcur : a'.rtCurrentThread = a.rtCurrentThread ∨
      ∃ t, a'.rtCurrentThread = some t ∧ Abs.highestReadyThread a = some t) : Waking a a' where
  wf := h.wf hw
  ready u hu := by rwa [h.thread]
  active u hu := by rwa [h.thread]
  prio u := by rw [h.thread]
  waiters s := by rw [h.waiters]
  flag s := by rw [h.sem]
  value s := .inl (by rw [h.sem])
  live n := by rw [h.list]
  current := by
    refine hcur.imp_right fun ⟨t, hcur, hhead⟩ => ⟨t, hcur, ?_⟩
    rw [h.thread]
    exact ((hw.ready_iff t _).mp (List.mem_of_mem_head? hhead)).1

end

section
omit [DecidableEq σ]

theorem schedule (hw : SchedWf a) (h : Abs.schedule a = some a') : Waking a a' := by
  refine of_same hw (schedule_same h) ?_
  obtain ⟨t, hhead, rfl⟩ := schedule_spec h
  rw [SchedSys.switchTo_current]
  split
  · exact .inr ⟨t, rfl, hhead⟩
  · exact .inl rfl

end

/-- A started thread is moved to its ready list. -/
theorem wake (hw : SchedWf a) {r : RtThread} (hst : (a.thread t).Active) (hstat : r.stat = .ready)
    (hprio : r.currentPriority = (a.thread t).currentPriority)
    (hinit : r.initPriority = (a.thread t).initPriority)
    (hmask : r.numberMask = (a.thread t).numberMask) : Waking a (a.relistReady t r) where
  wf := hw.wake hst hstat hprio hinit hmask
  ready u hu := by
    by_cases hut : u = t
    · subst hut; simpa using hstat
    · simpa [hut] using hu
  active u hu := by
    by_cases hut : u = t
    · subst hut; simp [RtThread.Active, hstat]
    · simpa [hut] using hu
  prio u := by
    by_cases hut : u = t
    · subst hut; simpa using hprio
    · simp [hut]
  waiters s := by
    rw [SchedSys.relistReady_waiters]
    exact List.erase_sublist
  flag _ := rfl
  value _ := .inl rfl
  live n := rfl
  current := .inl rfl

section
omit [DecidableEq σ]

/-- A field outside the invariant is written. -/
theorem setThread (hw : SchedWf a) {r : RtThread} (hstat : r.stat = (a.thread t).stat)
    (hprio : r.currentPriority = (a.thread t).currentPriority)
    (hinit : r.initPriority = (a.thread t).initPriority)
    (hmask : r.numberMask = (a.thread t).numberMask) : Waking a (a.setThread t r) where
  wf := hw.setThread hstat hprio hinit hmask
  ready u hu := by
    by_cases hut : u = t
    · subst hut; simpa [hstat] using hu
    · simpa [hut] using hu
  active u hu := by
    by_cases hut : u = t
    · subst hut; simpa [RtThread.Active, hstat] using hu
    · simpa [hut] using hu
  prio u := by
    by_cases hut : u = t
    · subst hut; simpa using hprio
    · simp [hut]
  waiters s := .refl _
  flag _ := rfl
  value _ := .inl rfl
  live n := rfl
  current := .inl rfl

end

section
omit [DecidableEq τ]

/-- A semaphore without waiters, or with its value unchanged, is written. -/
theorem setSem (hw : SchedWf a) {s : σ} {r : RtSemaphore} (hflag : r.flag = (a.sem s).flag)
    (hvalue : r.value = (a.sem s).value ∨ a.waiters s = []) : Waking a (a.setSem s r) where
  wf := hw.congr rfl rfl rfl
  ready _ := id
  active _ := id
  prio _ := rfl
  waiters _ := .refl _
  flag s' := by
    by_cases hs : s' = s
    · subst hs; simpa [SchedSys.setSem] using hflag
    · simp [SchedSys.setSem, hs]
  value s' := by
    by_cases hs : s' = s
    · subst hs
      exact hvalue.imp (fun heq => by simpa [SchedSys.setSem] using heq) id
    · simp [SchedSys.setSem, hs]
  live _ := rfl
  current := .inl rfl

end

section
omit [DecidableEq τ] [DecidableEq σ]

theorem setLockNest (hw : SchedWf a) (n : Int) :
    Waking a { a with rtSchedulerLockNest := n } where
  wf := hw.congr rfl rfl rfl
  ready _ := id
  active _ := id
  prio _ := rfl
  waiters _ := .refl _
  flag _ := rfl
  value _ := .inl rfl
  live _ := rfl
  current := .inl rfl

end

theorem failAll {ts : List τ} :
    ∀ {a : SchedSys τ σ (ThreadRings τ σ)}, SchedWf a → a.waiters s = ts →
      Waking a (a.failAll ts) := by
  induction ts with
  | nil => exact fun hw _ => refl hw
  | cons t ts ih =>
    intro a hw hts
    have hst : (a.thread t).stat = .suspend := hw.waiting t s (by simp [hts])
    obtain ⟨hw₁, hts₁⟩ := failOne_wf hw hts
    have h₁ : Waking a (a.relistReady t (a.thread t).failed) :=
      wake hw (.inr hst) rfl rfl rfl rfl
    exact h₁.trans (ih hw₁ hts₁)

/-! ## The operations -/

section
omit [DecidableEq τ] [DecidableEq σ]

theorem schedStart (hw : SchedWf a) (h : Abs.schedStart a = some a') : Waking a a' := by
  obtain ⟨t, hhead, rfl⟩ := schedStart_spec h
  exact of_same hw ⟨rfl, rfl, rfl, rfl, rfl⟩ (.inr ⟨t, rfl, hhead⟩)

theorem enterCritical (hw : SchedWf a) : Waking a a.rtEnterCritical := by
  unfold SchedSys.rtEnterCritical
  split
  · exact setLockNest hw _
  · exact refl hw

end

section
omit [DecidableEq σ]

theorem exitCritical (hw : SchedWf a) (h : Abs.exitCritical a = some a') : Waking a a' := by
  obtain ⟨n, rfl | hsched⟩ := exitCritical_spec h
  · exact setLockNest hw n
  · have h₁ := setLockNest hw n
    exact h₁.trans (schedule h₁.wf hsched)

end

theorem resume (hw : SchedWf a) {e : Int} (h : Abs.resume a t = some (e, a')) :
    Waking a a' := by
  rcases resume_spec h with ⟨-, -, rfl⟩ | ⟨hst, -, -, rfl⟩
  · exact refl hw
  · exact wake hw (.inr hst) rfl rfl rfl rfl

theorem startup (hw : SchedWf a) (h : Abs.startup a t = some a') : Waking a a' := by
  have hprio : (a.thread t).started.currentPriority = (a.thread t).currentPriority :=
    hw.init_prio t
  obtain ⟨hlive, h⟩ := startup_spec h
  -- the thread may never have been started, so its mask is written here
  have h₁ : Waking a (a.relistReady t (a.thread t).started) :=
    { wf := hw.relistReady hlive rfl hprio rfl rfl
      ready := fun u hu => by
        by_cases hut : u = t
        · subst hut; simp [RtThread.started]
        · simpa [hut] using hu
      active := fun u hu => by
        by_cases hut : u = t
        · subst hut; simp [RtThread.Active, RtThread.started]
        · simpa [hut] using hu
      prio := fun u => by
        by_cases hut : u = t
        · subst hut; simpa using hprio
        · simp [hut]
      waiters := fun s => by
        rw [SchedSys.relistReady_waiters]
        exact List.erase_sublist
      flag := fun _ => rfl
      value := fun _ => .inl rfl
      live := fun n => rfl
      current := .inl rfl }
  rcases h with ⟨-, rfl⟩ | ⟨-, hsched⟩
  · exact h₁
  · exact h₁.trans (schedule h₁.wf hsched)

theorem timeout (hw : SchedWf a) (hst : (a.thread t).Active)
    (h : Abs.timeout a t = some a') : Waking a a' := by
  obtain ⟨-, hsched⟩ := timeout_spec h
  have h₁ : Waking a (a.relistReady t (a.thread t).timedOut) := wake hw hst rfl rfl rfl rfl
  exact h₁.trans (schedule h₁.wf hsched)

theorem yield (hw : SchedWf a) (h : Abs.yield a = some a') : Waking a a' := by
  obtain ⟨t, -, ⟨rfl, -⟩ | ⟨hst, hsched⟩⟩ := yield_spec hw h
  · exact refl hw
  · have h₁ : Waking a (a.relistReady t (a.thread t)) := wake hw (.inl hst) hst rfl rfl rfl
    exact h₁.trans (schedule h₁.wf hsched)

theorem tickSlice (hw : SchedWf a) (h : Abs.tickSlice a = some a') : Waking a a' := by
  obtain ⟨t, -, ⟨-, rfl⟩ | ⟨-, ⟨rfl, -⟩ | ⟨hst, hsched⟩⟩⟩ := tickSlice_spec hw h
  · exact setThread hw rfl rfl rfl rfl
  · exact setThread hw rfl rfl rfl rfl
  · have h₁ : Waking a
        (a.relistReady t ((a.thread t).withRemaining (a.thread t).initTick)) :=
      wake hw (.inl hst) hst rfl rfl rfl
    exact h₁.trans (schedule h₁.wf hsched)

theorem semRelease (hw : SchedWf a) (h : Abs.semRelease a s = some a') : Waking a a' := by
  rcases semRelease_spec hw h with ⟨hnil, rfl⟩ | ⟨t, ts, -, hst, hsched⟩
  · exact setSem hw rfl (.inr hnil)
  · have h₁ : Waking a (a.relistReady t { a.thread t with stat := .ready }) :=
      wake hw (.inr hst) rfl rfl rfl rfl
    exact h₁.trans (schedule h₁.wf hsched)

theorem semControl [Fintype τ] (hw : SchedWf a) {cmd e : Int} {arg : BitVec 32}
    (h : Abs.semControl a s cmd arg = some (e, a')) : Waking a a' := by
  rcases semControl_spec hw h with ⟨-, -, rfl⟩ | ⟨-, -, hsched⟩
  · exact refl hw
  · have h₁ : Waking a (a.failAll (a.waiters s)) := failAll hw rfl
    have hnil : (a.failAll (a.waiters s)).waiters s = [] := (hw.failAll rfl).2
    have h₂ := h₁.trans (setSem (s := s)
      (r := { (a.failAll (a.waiters s)).sem s with value := arg.setWidth 16 }) h₁.wf rfl
      (.inr hnil))
    exact h₂.trans (schedule h₂.wf hsched)

theorem semDetach [Fintype τ] (hw : SchedWf a) (h : Abs.semDetach a s = some a') :
    Waking a a' := by
  rw [semDetach_spec hw h]
  exact failAll hw rfl

end Waking

/-! ## Blocking -/

/-- Joining a waiting list keeps the invariant and every thread as it was. -/
theorem ipcInsert_wf (hw : SchedWf a) (hf : a.list.Free t) (hst : (a.thread t).stat = .suspend)
    (h : Abs.ipcInsert a s t = some a') :
    SchedWf a' ∧ a'.thread = a.thread ∧ a'.list.live = a.list.live := by
  rcases ipcInsert_spec (hw.live t (by simp [hst])) h with
    ⟨-, -, rfl⟩ | ⟨xs, ys, hs, hhead, rfl, -, -⟩
  · exact ⟨hw, rfl, rfl⟩
  · exact ⟨hw.join hs hf hst hhead, rfl, rfl⟩

section
omit [DecidableEq σ]

/-- A ready thread is suspended. -/
theorem suspend_wf (hw : SchedWf a) (hst : (a.thread t).stat = .ready) :
    SchedWf (a.unlist t { a.thread t with stat := .suspend }) :=
  hw.unlist (hw.live t (by simp [hst])) (by simp) rfl rfl rfl (.inl (hw.mask_eq (.inl hst)))

end

section
omit [DecidableEq τ] [DecidableEq σ]

theorem SchedWf.closed_mask (hw : SchedWf a) (t : τ) :
    ({ a.thread t with stat := .close } : RtThread).MaskOk := by
  rcases hw.mask t with hm | ⟨hm, -⟩
  · exact .inl hm
  · exact .inr ⟨hm, .inr rfl⟩

end

section
omit [DecidableEq σ]

/-- A started thread is detached. -/
theorem detach_wf (hw : SchedWf a) (hst : (a.thread t).stat ≠ .init) :
    SchedWf (a.unlist t { a.thread t with stat := .close }) :=
  hw.unlist (hw.live t hst) (by simp) rfl rfl rfl (hw.closed_mask t)

end

/-! ## What the scheduler finds -/

section
omit [DecidableEq τ] [DecidableEq σ]

/-- With a ready thread about, the bitmap leads to the first thread of the most
urgent list that is not empty. -/
theorem highestReadyThread_spec {a : SchedSys τ σ (ThreadRings τ σ)} (hw : SchedWf a)
    (hready : ∃ u, (a.thread u).stat = .ready) :
    a.rtThreadReadyPriorityGroup ≠ 0 ∧ a.highestReadyPriority < RT_THREAD_PRIORITY_MAX ∧
      ∃ t ts, a.readyList a.highestReadyPriority = t :: ts ∧ (a.thread t).stat = .ready ∧
        ∀ u, (a.thread u).stat = .ready →
          (a.thread t).currentPriority ≤ (a.thread u).currentPriority := by
  have hbit : ∀ u, (a.thread u).stat = .ready →
      a.rtThreadReadyPriorityGroup.getLsbD (a.thread u).currentPriority = true := fun u hu =>
    (hw.group _ (hw.prio_lt u)).mpr (List.ne_nil_of_mem (hw.mem_ready hu))
  have hne : a.rtThreadReadyPriorityGroup ≠ 0 := by
    obtain ⟨u, hu⟩ := hready
    intro hzero
    simp [hzero] at hbit
    exact hbit u hu
  obtain ⟨i, hi, hffs, hset, hlow⟩ := rtFfs_lowestBit hne
  have hidx : a.highestReadyPriority = i := by
    rw [SchedSys.highestReadyPriority, hffs]
    bv_omega
  rw [hidx]
  refine ⟨hne, hi, ?_⟩
  cases hlist : a.readyList i with
  | nil => exact absurd hlist ((hw.group i hi).mp hset)
  | cons t ts =>
    have ht := (hw.ready_iff t i).mp (by simp [hlist])
    refine ⟨t, ts, rfl, ht.1, fun u hu => ?_⟩
    rw [ht.2]
    by_contra hlt
    have hclear := hlow _ (show (a.thread u).currentPriority < i by omega)
    rw [hbit u hu] at hclear
    cases hclear

end

section
omit [DecidableEq σ]

/-- With a ready thread about, rescheduling succeeds. -/
theorem schedule_eq (hw : SchedWf a) (hready : ∃ u, (a.thread u).stat = .ready) :
    ∃ u, Abs.schedule a = some (a.switchTo u) := by
  obtain ⟨-, -, u, us, hlist, -⟩ := highestReadyThread_spec hw hready
  refine ⟨u, ?_⟩
  rw [Abs.schedule, Abs.highestReadyThread, hlist]
  rfl

/-- Rescheduling dispatches a ready thread unless the scheduler is locked. -/
theorem schedule_dispatch (hw : SchedWf a) (h : Abs.schedule a = some a') :
    ∃ u, (a'.thread u).stat = .ready ∧
      a'.rtCurrentThread = if a.rtSchedulerLockNest = 0 then some u else a.rtCurrentThread := by
  obtain ⟨u, hhead, rfl⟩ := schedule_spec h
  refine ⟨u, ?_, SchedSys.switchTo_current _ _⟩
  rw [SchedSys.switchTo_thread]
  exact ((hw.ready_iff u _).mp (List.mem_of_mem_head? hhead)).1

end

theorem resume_eq (hw : SchedWf a) (hst : (a.thread t).stat = .suspend) :
    Abs.resume a t = some (RT_EOK, a.relistReady t { a.thread t with stat := .ready }) := by
  simp [Abs.resume, hst, makeReady_eq hw (hw.live t (by simp [hst]))]

/-- A release that finds waiters succeeds and wakes the first of them. -/
theorem semRelease_eq (hw : SchedWf a) {ts : List τ} (hts : a.waiters s = t :: ts) :
    ∃ u, Abs.semRelease a s =
      some ((a.relistReady t { a.thread t with stat := .ready }).switchTo u) := by
  have hst : (a.thread t).stat = .suspend := hw.waiting t s (by simp [hts])
  have hne : ¬ isEmpty a.list (.suspend s) = true := fun hempty => by
    have hnil : a.waiters s = [] := isEmpty_eq_true hempty
    simp [hnil] at hts
  have hw' : SchedWf (a.relistReady t { a.thread t with stat := .ready }) :=
    hw.wake (.inr hst) rfl rfl rfl rfl
  obtain ⟨u, hsched⟩ := schedule_eq hw' ⟨t, by simp⟩
  refine ⟨u, ?_⟩
  simp only [Abs.semRelease, hne, Abs.ipcResume, hts, List.head?_cons, Option.bind_eq_bind,
    Option.bind_some, resume_eq hw hst]
  exact hsched

end Step

end SampleRtos
