import SampleRtos.Kernel.Takes

/-!
# Semaphores grant what they have

`demand` is what a semaphore still has and what it has granted, `supply` what it
was given. Every event keeps the one within the other as long as no take waits
under the scheduler lock and nobody resumes the thread of an undecided take:
then whoever returns `RT_EOK` from waiting has been woken by a release.
-/

namespace SampleRtos

open Intrusive

namespace Takes
section Units
variable {τ σ L : Type} [DecidableEq τ] [DecidableEq σ]

/-! ## The ledger -/

/-- The value of `s`, its takes that returned `RT_EOK` and its waiters woken by a
release that have not returned. -/
def demand (e : SchedSys τ σ L) (g : Takes τ σ) (s : σ) : Nat :=
  (e.sem s).value.toNat + g.acquired s + (g.woken s).card

/-- The initial value of `s` and its releases. -/
def supply (g : Takes τ σ) (s : σ) : Nat := (g.initial s).getD 0 + g.released s

/-- What the history says of itself: nothing is released before it is initialised,
and holders, releases, takes and foreign releases add up. -/
structure Ledger (g : Takes τ σ) : Prop where
  unborn : ∀ s, g.initial s = none → g.released s = 0
  held : ∀ s, (g.holders s).length + g.released s = g.acquired s + g.foreign s

namespace Ledger
variable {g : Takes τ σ} {s : σ}

section
omit [DecidableEq τ]

theorem acquire (h : Ledger g) (s : σ) (who : Option τ) : Ledger (g.acquire s who) where
  unborn := h.unborn
  held s' := by
    have hs' := h.held s'
    by_cases hs : s' = s
    · subst hs
      simp only [Takes.acquire, Function.update_self, List.length_cons]
      omega
    · simpa [Takes.acquire, hs] using hs'

end

theorem release (h : Ledger g) (hs : (g.initial s).isSome) (who first : Option τ) :
    Ledger (g.release s who first) where
  unborn s' hnone := by
    have hne : s' ≠ s := by
      rintro rfl
      rw [show g.initial s' = none from hnone] at hs
      cases hs
    simpa [Takes.release, hne] using h.unborn s' hnone
  held s' := by
    have hs' := h.held s'
    by_cases hss : s' = s
    · subst hss
      by_cases hwho : who ∈ g.holders s'
      · have hlen := List.length_erase_of_mem hwho
        have hpos := List.length_pos_of_mem hwho
        simp only [Takes.release, Function.update_self, if_pos hwho]
        omega
      · simp only [Takes.release, Function.update_self, if_neg hwho, List.erase_of_not_mem hwho]
        omega
    · by_cases hwho : who ∈ g.holders s <;> simpa [Takes.release, hss, hwho] using hs'

theorem leave (h : Ledger g) (t : τ) (s : σ) : Ledger (g.leave t s) := ⟨h.unborn, h.held⟩

theorem note {k : SchedSys τ σ L} {waiters : σ → List τ} (h : Ledger g) {e : TakeEvent τ σ}
    (hperf : Performs k g e) : Ledger (g.note k waiters e) := by
  unfold Takes.note
  split
  · rename_i s value flag
    refine ⟨fun s' hnone => h.unborn s' ?_, h.held⟩
    by_cases hs : s' = s
    · subst hs; simp at hnone
    · simpa [hs] using hnone
  · split
    · exact h.acquire _ _
    · exact h
  · exact h.release hperf.1 _ _
  · split
    · exact h.acquire _ _
    · split
      · exact h
      · split
        · exact ⟨h.unborn, h.held⟩
        · exact h
  · exact h
  · split
    · exact h
    · rename_i t hcur
      split
      · exact h
      · rename_i s hin
        split
        · exact (h.leave t s).acquire _ _
        · exact h.leave t s

end Ledger

/-! ## Demand and supply -/

section Balance
variable {e e' : SchedSys τ σ L} {g : Takes τ σ} {t : τ} {s : σ}

/-- `s` demands and supplies the same number of units more. -/
def Balanced (e : SchedSys τ σ L) (g : Takes τ σ) (e' : SchedSys τ σ L) (g' : Takes τ σ) (s : σ) :
    Prop :=
  ∃ d, demand e' g' s = demand e g s + d ∧ supply g' s = supply g s + d

section
omit [DecidableEq τ] [DecidableEq σ]

theorem Balanced.same (hsem : e'.sem = e.sem) (g : Takes τ σ) (s : σ) : Balanced e g e' g s :=
  ⟨0, by rw [demand, hsem]; rfl, rfl⟩

end

section
omit [DecidableEq τ]

theorem Balanced.acquire (hpos : 0 < (e.sem s).value) (who : Option τ) (s' : σ) :
    Balanced e g (e.setSem s { e.sem s with value := (e.sem s).value - 1 }) (g.acquire s who)
      s' := by
  refine ⟨0, ?_, rfl⟩
  by_cases hs : s' = s
  · subst hs
    have hval : ((e.sem s').value - 1).toNat + 1 = (e.sem s').value.toNat := by bv_omega
    simp only [demand, SchedSys.setSem, Takes.acquire, Function.update_self]
    omega
  · simp [demand, SchedSys.setSem, Takes.acquire, hs]

end

theorem Balanced.give (hmax : (e.sem s).value ≠ 65535) (who : Option τ) (s' : σ) :
    Balanced e g (e.setSem s { e.sem s with value := (e.sem s).value + 1 })
      (g.release s who none) s' := by
  by_cases hs : s' = s
  · subst hs
    have hval : ((e.sem s').value + 1).toNat = (e.sem s').value.toNat + 1 := by bv_omega
    refine ⟨1, ?_, ?_⟩
    · simp only [demand, SchedSys.setSem, Takes.release, Function.update_self, Option.elim_none]
      omega
    · simp only [supply, Takes.release, Function.update_self]
      omega
  · exact ⟨0, by simp [demand, SchedSys.setSem, Takes.release, hs],
      by simp [supply, Takes.release, hs]⟩

theorem Balanced.grant (hsem : e'.sem = e.sem) (hnew : t ∉ g.woken s) (who : Option τ) (s' : σ) :
    Balanced e g e' (g.release s who (some t)) s' := by
  by_cases hs : s' = s
  · subst hs
    have hcard := Finset.card_insert_of_notMem hnew
    refine ⟨1, ?_, ?_⟩
    · simp only [demand, hsem, Takes.release, Function.update_self, Option.elim_some]
      omega
    · simp only [supply, Takes.release, Function.update_self]
      omega
  · exact ⟨0, by simp [demand, hsem, Takes.release, hs], by simp [supply, Takes.release, hs]⟩

end Balance

/-! ## Every event -/

variable {a a' : SeqKernel τ σ Empty} {g : Takes τ σ}

/-- Calls that do not touch a semaphore. -/
theorem execCall_sem [Fintype τ] (hw : KernelWf a) {c : Call τ σ Empty}
    (hperf : Performs a.env g (.op (.call c))) (hinit : ∀ s v f, c ≠ .semInit s v f)
    (htake : ∀ s, c ≠ .semTrytake s) (hrelease : ∀ s, c ≠ .semRelease s)
    (hrun : Abs.execCall a c = some a') : a'.env.sem = a.env.sem := by
  unfold Abs.execCall at hrun
  cases c with
  | threadInit t priority tick => cases hrun; rfl
  | threadStartup t =>
    obtain ⟨-, ⟨-, henv⟩ | ⟨-, hsched⟩⟩ := startup_spec (onSched_spec hrun).1
    · rw [henv]; rfl
    · rw [(schedule_same hsched).sem]; rfl
  | threadResume t =>
    obtain ⟨_, hr⟩ := returned_of_map (onSched_spec hrun).1
    rcases resume_spec hr with ⟨-, -, henv⟩ | ⟨-, -, -, henv⟩ <;> rw [henv]
    rfl
  | threadSuspend t =>
    obtain ⟨_, hr⟩ := returned_of_map hrun
    rcases threadSuspend_spec hw.sched hr with ⟨-, -, rfl⟩ | ⟨-, -, henv, -⟩
    · rfl
    · rw [henv]; rfl
  | semInit s value flag => exact absurd rfl (hinit s value flag)
  | semTrytake s => exact absurd rfl (htake s)
  | semRelease s => exact absurd rfl (hrelease s)
  | enterCritical =>
    cases hrun
    simp only [SchedSys.rtEnterCritical]
    split <;> rfl
  | exitCritical =>
    obtain ⟨n, henv | hsched⟩ := exitCritical_spec (onSched_spec hrun).1
    · rw [henv]
    · rw [(schedule_same hsched).sem]
  | timerInit v => cases v
  | timerStart v => cases v
  | timerStop v => cases v
  | timerControl v => cases v
  | timerDetach v => cases v
  | _ => exact hperf.elim

theorem tickSlice_sem {e e' : SchedSys τ σ (ThreadRings τ σ)} (hw : SchedWf e)
    (h : Abs.tickSlice e = some e') : e'.sem = e.sem := by
  obtain ⟨t, -, ⟨-, rfl⟩ | ⟨-, ⟨rfl, -⟩ | ⟨-, hsched⟩⟩⟩ := tickSlice_spec hw h
  · rfl
  · rfl
  · rw [(schedule_same hsched).sem]
    rfl

/-- An operation other than an initialisation is balanced. -/
theorem exec_balanced [Fintype τ] (hw : KernelWf a) (hpos : Positions a.env g)
    {o : Op τ σ Empty} (hop : Abs.Allowed a o) (hperf : Performs a.env g (.op o))
    (hinit : ∀ s v f, o ≠ .call (.semInit s v f)) (hrun : Abs.exec a o = some a') (s : σ) :
    Balanced a.env g a'.env (g.note a.env a.env.waiters (.op o)) s := by
  unfold Abs.exec at hrun
  cases o with
  | call c =>
    cases c with
    | semInit s v f => exact absurd rfl (hinit s v f)
    | semTrytake q =>
      obtain ⟨_, hr⟩ := returned_of_map hrun
      rcases semTake_spec hr with ⟨hval, -, rfl⟩ | ⟨hval, -, -, rfl⟩ | ⟨hb, -⟩
      · rw [note, if_pos hval]
        exact .acquire hval _ _
      · rw [note, if_neg (by simp [hval])]
        exact .same rfl _ _
      · exact absurd rfl hb.2
    | semRelease q =>
      have hrun : a.onSched (fun e => Abs.semRelease e q) = some a' := hrun
      rcases semRelease_spec hw.sched (onSched_spec hrun).1 with
        ⟨hnil, henv⟩ | ⟨t, ts, hts, -, hsched⟩
      · rw [henv, note, hnil]
        exact .give hperf.2 _ _
      · rw [note, hts]
        exact .grant (schedule_same hsched).sem (hpos.waiting q t (by simp [hts])).2.1 _ _
    | _ =>
      exact .same (execCall_sem hw hperf (by simp) (by simp) (by simp) hrun) _ _
  | threadSleep tick =>
    obtain ⟨t, hcur, hcan⟩ := hop
    exact .same (threadSleep_sleeps hw hcan hcur hrun).sem _ _
  | semTake q time =>
    obtain ⟨_, hr⟩ := returned_of_map hrun
    rcases semTake_spec hr with ⟨hval, -, rfl⟩ | ⟨hval, htime, -, rfl⟩ | ⟨hb, t, hcur, -, hwait⟩
    · rw [note, if_pos hval]
      exact .acquire hval _ _
    · rw [note, if_neg (by simp [hval]), if_pos htime]
      exact .same rfl _ _
    · -- waiting moves no unit yet
      obtain ⟨t', hcur', hcan⟩ := hop hb
      obtain rfl : t = t' := Option.some.inj (hcur.symm.trans hcur')
      rw [note, if_neg (by simp [hb.1]), if_neg hb.2, hcur]
      exact ⟨0, by rw [demand, (takeWait_waits hw hcan hwait).sem]; rfl, rfl⟩
  | tickIncrease script =>
    obtain ⟨e, hslice, -, hexp, -⟩ := tick_expires hw hrun
    exact .same (hexp.sem.trans (tickSlice_sem hw.sched hslice)) _ _
  | schedulerStart =>
    obtain ⟨t, -, henv⟩ := schedStart_spec (onSched_spec hrun).1
    exact .same (by rw [henv]; rfl) _ _

theorem semInit_demand {e : SchedSys τ σ (ThreadRings τ σ)} {s : σ} {value : BitVec 32}
    {flag : BitVec 8} (hvalue : value.toNat ≤ 65535) (g' : Takes τ σ) :
    demand (Abs.semInit e s value flag) g' s = value.toNat + g'.acquired s + (g'.woken s).card := by
  have hval : (value.setWidth 16).toNat = value.toNat := by
    rw [BitVec.toNat_setWidth]
    exact Nat.mod_eq_of_lt (by omega)
  simp [demand, Abs.semInit, SchedSys.setSem, hval]

section Returns
variable {e : SchedSys τ σ L} {t : τ} {s : σ}

theorem leave_demand_le (s' : σ) : demand e (g.leave t s) s' ≤ demand e g s' := by
  by_cases hs : s' = s
  · subst hs
    have hcard := Finset.card_erase_le (s := g.woken s') (a := t)
    simp only [demand, leave, Function.update_self]
    omega
  · simp [demand, leave, hs]

theorem leave_demand_eq (ht : t ∉ g.woken s) (s' : σ) :
    demand e (g.leave t s) s' = demand e g s' := by
  by_cases hs : s' = s
  · subst hs; simp [demand, leave, ht]
  · simp [demand, leave, hs]

/-- A woken waiter that returns `RT_EOK` turns its grant into a take. -/
theorem return_demand (ht : t ∈ g.woken s) (who : Option τ) (s' : σ) :
    demand e ((g.leave t s).acquire s who) s' = demand e g s' := by
  by_cases hs : s' = s
  · subst hs
    have hcard := Finset.card_erase_add_one ht
    simp only [demand, leave, acquire, Function.update_self]
    omega
  · simp [demand, leave, acquire, hs]

end Returns

section
omit [DecidableEq σ]

/-- Only a woken waiter returns `RT_EOK`. -/
theorem Positions.woken_of_return {e : SchedSys τ σ (ThreadRings τ σ)} (h : Positions e g) {t : τ}
    {s : σ} (hcur : e.rtCurrentThread = some t) (hin : g.inside t = some s)
    (hret : rtSemTakeReturn e t = RT_EOK) : t ∈ g.woken s := by
  by_contra hnot
  refine (h.undecided t ⟨s, hin, hnot, fun herr => ?_⟩).2 hcur
  simp [rtSemTakeReturn, herr, RT_ETIMEOUT, RT_EOK] at hret

end

/-! ## The bound -/

/-- No take waits under the scheduler lock and no undecided one is resumed. -/
def UnitSafe (k : RtKernel τ σ Empty) (g : Takes τ σ) : TakeEvent τ σ → Prop
  | .op (.semTake s time) => TakeBlocks k s time → k.env.rtSchedulerLockNest = 0
  | .op (.call (.threadResume t)) => ¬ Undecided k.env g t
  | _ => True

instance (k : RtKernel τ σ Empty) (g : Takes τ σ) (e : TakeEvent τ σ) :
    Decidable (UnitSafe k g e) := by
  rcases e with (c | _ | _ | _ | _) | _
  · rcases c <;> dsimp only [UnitSafe] <;> infer_instance
  all_goals dsimp only [UnitSafe]; infer_instance

structure Sound (a : SeqKernel τ σ Empty) (g : Takes τ σ) : Prop where
  positions : Positions a.env g
  ledger : Ledger g
  bound : ∀ s, demand a.env g s ≤ supply g s

theorem undecided_rel {k : RtKernel τ σ Empty} (h : KernelRel k a) (g : Takes τ σ) (t : τ) :
    Undecided k.env g t ↔ Undecided a.env g t := by
  rw [Undecided, Undecided, h.env.thread]

theorem Sound.boot {idle : τ} (h : Abs.boot idle = some a) : Sound a start where
  positions :=
    { waiting := fun s t ht => by simp [(boot_spec h).waiters] at ht
      undecided := by rintro t ⟨s, hin, -⟩; cases hin
      woken := fun s t ht => by simp [start] at ht
      active := fun t s hin => by cases hin
      running := fun t ht => by simp [(boot_spec h).current] at ht }
  ledger := ⟨fun _ _ => rfl, fun _ => rfl⟩
  bound s := by simp [demand, supply, start, (boot_spec h).sem, Abs.systemInit, Abs.schedInit,
    zeroSched]

theorem Sound.exec [Fintype τ] (hw : KernelWf a) (h : Sound a g) {o : Op τ σ Empty}
    (hop : Abs.Allowed a o) (hturn : Turn a.env g (.op o)) (hperf : Performs a.env g (.op o))
    (hlock : ∀ s time, o = .semTake s time → TakeBlocks a s time →
      a.env.rtSchedulerLockNest = 0)
    (hresume : ∀ t, o = .call (.threadResume t) → ¬ Undecided a.env g t)
    (hrun : Abs.exec a o = some a') : Sound a' (g.note a.env a.env.waiters (.op o)) where
  positions := h.positions.exec hw hop hturn hperf hlock hresume hrun
  ledger := h.ledger.note hperf
  bound s := by
    by_cases hinit : ∃ q v f, o = .call (.semInit q v f)
    · obtain ⟨q, v, f, rfl⟩ := hinit
      obtain ⟨hfresh, hv⟩ := hperf
      have hbound := h.bound s
      cases hrun
      by_cases hs : s = q
      · -- a semaphore not initialised before has granted and released nothing
        subst hs
        have hzero := h.ledger.unborn s hfresh
        simp only [demand, supply, hfresh, Option.getD_none, hzero] at hbound
        rw [semInit_demand hv, supply, note]
        simp only [Function.update_self, Option.getD_some]
        omega
      · simpa [demand, supply, note, Abs.semInit, SchedSys.setSem, hs] using hbound
    · obtain ⟨d, hd, hs⟩ := exec_balanced hw h.positions hop hperf
        (fun q v f ho => hinit ⟨q, v, f, ho⟩) hrun s
      rw [hd, hs]
      exact Nat.add_le_add_right (h.bound s) d

theorem Sound.takeReturn (h : Sound a g) (hturn : Turn a.env g .takeReturn) :
    Sound a (g.note a.env a.env.waiters .takeReturn) := by
  obtain ⟨t, hcur, hin⟩ := hturn
  obtain ⟨s, hin⟩ := Option.isSome_iff_exists.mp hin
  have hleft := h.positions.left hcur hin
  refine ⟨?_, h.ledger.note trivial, fun s' => ?_⟩ <;>
    simp only [note, show a.env.rtCurrentThread = some t from hcur, hin] <;> split
  · exact hleft.history rfl rfl
  · exact hleft
  · rename_i hret
    rw [return_demand (h.positions.woken_of_return hcur hin hret)]
    exact h.bound s'
  · exact (leave_demand_le s').trans (h.bound s')

section
omit [DecidableEq τ] [DecidableEq σ]

/-- The thread that runs may wait: it is ready, or suspended and on no list. -/
theorem Positions.mayBlock (hw : SchedWf a.env) (h : Positions a.env g)
    (hcur : a.env.rtCurrentThread ≠ none) : Abs.MayBlock a := by
  obtain ⟨t, ht⟩ := Option.ne_none_iff_exists'.mp hcur
  refine ⟨t, ht, (h.running t ht).imp_right fun hst => ⟨hst, fun hd hmem => ?_⟩⟩
  cases hd with
  | ready p => simp [((hw.ready_iff t p).mp hmem).1] at hst
  | suspend s => exact h.not_waiting ht s hmem
  | defunct =>
    have hlive := hw.valid.head_live (List.ne_nil_of_mem hmem)
    rw [hw.defunct] at hlive
    cases hlive

end

/-- **A semaphore grants no more than it has.** The takes that have returned
`RT_EOK` are within the initial value and the releases, and if only holders
release there are never more holders than the initial value. The running thread
may always wait, so that no take is ruled out. -/
theorem units_bounded [Fintype τ] {idle : τ} {k : RtKernel τ σ Empty}
    (hk : (observer UnitSafe).Reachable idle start k g) :
    (∀ s v, g.initial s = some v → g.acquired s ≤ v + g.released s ∧
      (g.foreign s = 0 → (g.holders s).length ≤ v)) ∧
    (k.env.rtCurrentThread ≠ none → MayBlock k) := by
  obtain ⟨a, h, hw, hsound⟩ := hk.invariant (I := Sound) (fun a ha _ => Sound.boot ha)
    (fun k a g e h _ hI hok hperf => by
      cases e with
      | op o => cases hperf
      | takeReturn =>
        have hnote : (observer UnitSafe).note k g .takeReturn = _ := note_rel h g .takeReturn
        rw [hnote]
        exact hI.takeReturn ((turn_rel h g _).mp hok.1))
    fun k a g e op a' h hw hI hok hperf hop hrun => by
      cases e with
      | takeReturn => cases hperf
      | op o =>
        cases hperf
        have hnote : (observer UnitSafe).note k g (.op op) = _ := note_rel h g (.op op)
        rw [hnote]
        refine hI.exec hw hop ((turn_rel h g _).mp hok.1) ((performs_rel h g _).mp hok.2.1)
          (fun s time ho hb => ?_) (fun t ho => ?_) hrun
        · subst ho
          rw [← h.env.lockNest]
          exact hok.2.2 ((takeBlocks_iff h s time).mpr hb)
        · subst ho
          exact fun hund => hok.2.2 ((undecided_rel h g t).mpr hund)
  refine ⟨fun s v hv => ?_, fun hcur => ?_⟩
  · have hbound := hsound.bound s
    have hheld := hsound.ledger.held s
    simp only [demand, supply, hv, Option.getD_some] at hbound
    exact ⟨by omega, fun hforeign => by omega⟩
  · rw [mayBlock_iff h hw.sched]
    rw [h.env.current] at hcur
    exact hsound.positions.mayBlock hw.sched hcur

end Units

/-- Two threads share a semaphore of one unit: thread 1 takes it and sleeps. -/
def lockTaken : List (TakeEvent (Fin 3) (Fin 1)) :=
  [.op (.call (.threadInit 1 3 10)), .op (.call (.threadInit 2 5 10)),
    .op (.call (.threadStartup 1)), .op (.call (.threadStartup 2)),
    .op (.call (.semInit 0 1 RT_IPC_FLAG_FIFO)), .op .schedulerStart,
    .op (.semTake 0 (-1)), .op (.threadSleep 1)]

/-- Thread 2 waits for the unit, gets it when thread 1 releases it, and returns. -/
def lockHandedOver : List (TakeEvent (Fin 3) (Fin 1)) :=
  lockTaken ++ [.op (.semTake 0 (-1)), .op (.tickIncrease [[]]), .op (.call (.semRelease 0)),
    .op (.threadSleep 5), .takeReturn]

theorem lock_handed_over : ∃ k g, (observer UnitSafe).runFrom 0 start lockHandedOver = some (k, g) ∧
    g.holders 0 = [some 2] ∧ g.acquired 0 = 2 ∧ g.acquired 0 ≤ 1 + g.released 0 := by
  obtain ⟨k, g, hrun, hreach, hp⟩ := (observer UnitSafe).reachable_of_runFrom 0 start lockHandedOver
    (fun x => x.2.initial 0 = some 1 ∧ x.2.holders 0 = [some 2] ∧ x.2.acquired 0 = 2)
    (by decide +kernel)
  obtain ⟨hinit, hholders, hacq⟩ := of_decide_eq_true hp
  exact ⟨k, g, hrun, hholders, hacq, ((units_bounded hreach).1 0 1 hinit).1⟩

/-- With the scheduler locked, the take of thread 2 returns `RT_EOK` at once and
both threads hold the one unit. -/
theorem locked_take_granted :
    ¬ ∀ (k : RtKernel (Fin 3) (Fin 1) Empty) g,
      (observer fun _ _ _ => True).Reachable 0 start k g →
        ∀ s v, g.initial s = some v → g.acquired s ≤ v + g.released s := by
  intro hclaim
  obtain ⟨k, g, -, hreach, hp⟩ := (observer fun _ _ _ => True).reachable_of_runFrom 0 start
    (lockTaken ++ [.op (.call .enterCritical), .op (.semTake 0 (-1)), .takeReturn])
    (fun x => x.2.initial 0 = some 1 ∧ x.2.acquired 0 = 2 ∧ x.2.released 0 = 0)
    (by decide +kernel)
  obtain ⟨hinit, hacq, hrel⟩ := of_decide_eq_true hp
  have hbound := hclaim k g hreach 0 1 hinit
  rw [show g.acquired 0 = 2 from hacq, show g.released 0 = 0 from hrel] at hbound
  omega

end Takes

end SampleRtos
