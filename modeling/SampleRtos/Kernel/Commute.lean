import SampleRtos.Kernel.Settle

/-!
# Releases of two semaphores commute

Two releases wake two threads, and each may dispatch. In either order the woken threads
come to stand at the ends of the same lists, the last dispatch finds the same thread, and
`rt_hw_context_switch` keeps the thread to save from the first of the two switches. What
has to be excluded is that the current thread is itself one of those woken: a thread that
waits is current only while the scheduler is locked.
-/

namespace SampleRtos

open Intrusive

section Commute
variable {τ σ υ : Type} [DecidableEq τ] [DecidableEq σ] [DecidableEq υ]

/-! ## Moves that commute -/

section Moves
variable {a : SchedSys τ σ (ThreadRings τ σ)} {t u : τ} {r q : RtThread}

theorem erase_snoc {l : List τ} (hne : t ≠ u) : (l ++ [t]).erase u = l.erase u ++ [t] := by
  by_cases hu : u ∈ l
  · exact List.erase_append_left [t] hu
  · rw [List.erase_append_right [t] hu, List.erase_of_not_mem hu,
      List.erase_of_not_mem (by simpa using hne.symm)]

/-- Two threads go to the ends of different ready lists in either order. -/
theorem relistReady_comm (hne : t ≠ u) (hprio : r.currentPriority ≠ q.currentPriority) :
    (a.relistReady t r).relistReady u q = (a.relistReady u q).relistReady t r := by
  have hseq : ((a.relistReady t r).relistReady u q).list.seq =
      ((a.relistReady u q).relistReady t r).list.seq := by
    funext hd
    simp only [SchedSys.relistReady, SchedSys.readyList, Rings.setSeq_seq, Rings.erase_seq]
    by_cases hr : hd = .ready r.currentPriority
    · have hq : hd ≠ .ready q.currentPriority := by
        rintro rfl
        exact hprio (ThreadHead.ready.inj hr).symm
      subst hr
      simp only [hq, if_true, if_false]
      rw [erase_snoc hne, List.erase_comm]
    · by_cases hq : hd = .ready q.currentPriority
      · subst hq
        simp only [hr, if_true, if_false]
        rw [erase_snoc hne.symm, List.erase_comm]
      · simp only [hr, hq, if_false]
        rw [List.erase_comm]
  have hlist : ((a.relistReady t r).relistReady u q).list =
      ((a.relistReady u q).relistReady t r).list :=
    congrArg (fun s => Rings.mk s a.list.live) hseq
  have hthread : Function.update (Function.update a.thread t r) u q =
      Function.update (Function.update a.thread u q) t r := Function.update_comm hne r q a.thread
  have hgroup : a.rtThreadReadyPriorityGroup ||| r.numberMask ||| q.numberMask =
      a.rtThreadReadyPriorityGroup ||| q.numberMask ||| r.numberMask := by
    rw [BitVec.or_assoc, BitVec.or_comm r.numberMask, ← BitVec.or_assoc]
  unfold SchedSys.relistReady at hlist ⊢
  simp only [SchedSys.mk.injEq]
  exact ⟨hthread, trivial, hlist, trivial, hgroup, trivial, trivial⟩

theorem relistReady_switchTo (v : τ) :
    (a.switchTo v).relistReady t r = (a.relistReady t r).switchTo v := by
  unfold SchedSys.switchTo
  by_cases hc : a.rtSchedulerLockNest = 0 ∧ some v ≠ a.rtCurrentThread
  · rw [if_pos hc, if_pos (by exact hc)]
    rfl
  · rw [if_neg hc, if_neg (by exact hc)]

theorem switchTo_setSem (v : τ) (s : σ) (m : RtSemaphore) :
    (a.setSem s m).switchTo v = (a.switchTo v).setSem s m := by
  unfold SchedSys.switchTo
  by_cases hc : a.rtSchedulerLockNest = 0 ∧ some v ≠ a.rtCurrentThread
  · rw [if_pos hc, if_pos (by exact hc)]
    rfl
  · rw [if_neg hc, if_neg (by exact hc)]

section
omit [DecidableEq σ]

/-- A switch on the way to `u` leaves no trace, unless `u` was current all along: the port
keeps the thread to save and replaces the thread to resume. -/
theorem switchTo_switchTo {v : τ} (h : some u = a.rtCurrentThread → v = u) :
    (a.switchTo v).switchTo u = a.switchTo u := by
  by_cases hlock : a.rtSchedulerLockNest = 0
  · by_cases hv : some v = a.rtCurrentThread
    · have hstay : a.switchTo v = a := by
        unfold SchedSys.switchTo
        rw [if_neg fun hc => hc.2 hv]
      rw [hstay]
    · have hu : some u ≠ a.rtCurrentThread := fun hu => hv (h hu ▸ hu)
      by_cases huv : u = v
      · subst huv
        simp [SchedSys.switchTo, hlock, hu]
      · have huv' : ¬ some u = some v := fun he => huv (Option.some.inj he)
        simp [SchedSys.switchTo, hlock, hu, hv, huv, Port.rtHwContextSwitch]
        split <;> simp
  · simp [SchedSys.switchTo, hlock]

end

end Moves

/-! ## What the scheduler finds after a wake -/

section Highest
variable {a : SchedSys τ σ (ThreadRings τ σ)} {t u : τ}

section
omit [DecidableEq τ] [DecidableEq σ]

/-- The thread found is the first of the list of its own priority, and that is the
index the bitmap gives. -/
theorem highestReadyThread_prio (hw : SchedWf a) (h : Abs.highestReadyThread a = some t) :
    (a.thread t).stat = .ready ∧ (a.thread t).currentPriority = a.highestReadyPriority ∧
      ∀ u, (a.thread u).stat = .ready →
        (a.thread t).currentPriority ≤ (a.thread u).currentPriority := by
  obtain ⟨hst, hprio⟩ := (hw.ready_iff t _).mp (List.mem_of_mem_head? h)
  obtain ⟨-, -, t', ts, hlist, -, hmin⟩ := highestReadyThread_spec hw ⟨t, hst⟩
  obtain rfl : t' = t := by
    rw [Abs.highestReadyThread, hlist] at h
    exact Option.some.inj h
  exact ⟨hst, hprio, hmin⟩

end

/-- If waking `u` leaves another thread the first choice, it was that before. -/
theorem highestReadyThread_before {r : RtThread} (hw : SchedWf a)
    (hst : (a.thread u).stat = .suspend)
    (hw' : SchedWf (a.relistReady u r)) (htu : t ≠ u)
    (h : Abs.highestReadyThread (a.relistReady u r) = some t) :
    Abs.highestReadyThread a = some t := by
  obtain ⟨ht, hprio, hmin⟩ := highestReadyThread_prio hw' h
  have hold : ∀ v, v ≠ u → (a.relistReady u r).thread v = a.thread v := fun v hv => by simp [hv]
  rw [hold t htu] at ht hprio hmin
  obtain ⟨-, -, v, vs, hlist, hv, hleast⟩ := highestReadyThread_spec hw ⟨t, ht⟩
  have hhead : Abs.highestReadyThread a = some v := by
    rw [Abs.highestReadyThread, hlist]
    rfl
  have hvu : v ≠ u := by
    rintro rfl
    rw [hst] at hv
    cases hv
  have hsame : (a.thread t).currentPriority = (a.thread v).currentPriority := by
    have hle := hmin v (by rw [hold v hvu]; exact hv)
    rw [hold v hvu] at hle
    exact le_antisymm hle (hleast t ht)
  -- both head the list of that priority, which the wake can only have made longer
  have hvprio := (highestReadyThread_prio hw hhead).2.1
  have hnot : u ∉ a.readyList (a.thread t).currentPriority := fun hu => by
    have hu' := ((hw.ready_iff u _).mp hu).1
    rw [hst] at hu'
    cases hu'
  rw [Abs.highestReadyThread, ← hprio, SchedSys.relistReady_readyList,
    List.erase_of_not_mem hnot] at h
  rw [Abs.highestReadyThread, ← hvprio, ← hsame] at hhead ⊢
  rw [hhead]
  obtain ⟨ws, hws⟩ := List.head?_eq_some_iff.mp hhead
  rw [hws] at h
  split at h <;> simpa using h

end Highest

/-! ## Releasing, with `rt_current_priority` -/

/-- `rt_schedule` together with `rt_current_priority`, which it writes and nothing reads. -/
def rtSchedulePriority (x : SchedSys τ σ (ThreadLinks τ σ) × BitVec 8) :
    Option (SchedSys τ σ (ThreadLinks τ σ) × BitVec 8) := do
  let toThread ← highestReadyThread x.1
  let rtCurrentPriority :=
    if x.1.rtSchedulerLockNest = 0 ∧ some toThread ≠ x.1.rtCurrentThread then
      BitVec.ofNat 8 x.1.highestReadyPriority
    else x.2
  return (x.1.switchTo toThread, rtCurrentPriority)

/-- `rt_sem_release` together with `rt_current_priority`. -/
def rtSemReleasePriority (s : σ) (x : SchedSys τ σ (ThreadLinks τ σ) × BitVec 8) :
    Option (SchedSys τ σ (ThreadLinks τ σ) × BitVec 8) := do
  if ¬ rtListIsempty x.1.list (.head (.suspend s)) then
    let k ← rtIpcListResume x.1 s
    rtSchedulePriority (k, x.2)
  else return (x.1.setSem s { x.1.sem s with value := (x.1.sem s).value + 1 }, x.2)

/-- Without the priority it is the release of the kernel's operations. -/
theorem rtSemReleasePriority_fst (s : σ) (x : SchedSys τ σ (ThreadLinks τ σ) × BitVec 8) :
    (rtSemReleasePriority s x).map Prod.fst = rtSemRelease x.1 s := by
  unfold rtSemReleasePriority rtSemRelease
  split
  · cases hres : rtIpcListResume x.1 s with
    | none => simp
    | some k =>
      simp only [Option.bind_eq_bind, Option.bind_some, rtSchedulePriority, rtSchedule]
      cases highestReadyThread k <;> rfl
  · rfl

namespace Abs

def schedulePriority (x : SchedSys τ σ (ThreadRings τ σ) × BitVec 8) :
    Option (SchedSys τ σ (ThreadRings τ σ) × BitVec 8) := do
  let toThread ← highestReadyThread x.1
  let rtCurrentPriority :=
    if x.1.rtSchedulerLockNest = 0 ∧ some toThread ≠ x.1.rtCurrentThread then
      BitVec.ofNat 8 x.1.highestReadyPriority
    else x.2
  return (x.1.switchTo toThread, rtCurrentPriority)

def semReleasePriority (s : σ) (x : SchedSys τ σ (ThreadRings τ σ) × BitVec 8) :
    Option (SchedSys τ σ (ThreadRings τ σ) × BitVec 8) := do
  if ¬ isEmpty x.1.list (.suspend s) then
    let a ← ipcResume x.1 s
    schedulePriority (a, x.2)
  else return (x.1.setSem s { x.1.sem s with value := (x.1.sem s).value + 1 }, x.2)

end Abs

/-- Related states with the same `rt_current_priority`. -/
def PriorityRel (x : SchedSys τ σ (ThreadLinks τ σ) × BitVec 8)
    (y : SchedSys τ σ (ThreadRings τ σ) × BitVec 8) : Prop :=
  SchedRel x.1 y.1 ∧ x.2 = y.2

theorem rtSchedulePriority_rel {x : SchedSys τ σ (ThreadLinks τ σ) × BitVec 8}
    {y : SchedSys τ σ (ThreadRings τ σ) × BitVec 8} (h : PriorityRel x y) :
    Option.Rel PriorityRel (rtSchedulePriority x) (Abs.schedulePriority y) := by
  unfold rtSchedulePriority Abs.schedulePriority
  refine Lockstep.bind (R := Eq) (highestReadyThread_rel h.1 ▸ Lockstep.refl _) ?_
  rintro t _ - - rfl
  rw [h.1.lockNest, h.1.current, h.1.highestReadyPriority, h.2]
  exact .some ⟨h.1.switchTo t, rfl⟩

theorem rtSemReleasePriority_rel {x : SchedSys τ σ (ThreadLinks τ σ) × BitVec 8}
    {y : SchedSys τ σ (ThreadRings τ σ) × BitVec 8} (h : PriorityRel x y) (s : σ) :
    Option.Rel PriorityRel (rtSemReleasePriority s x) (Abs.semReleasePriority s y) := by
  unfold rtSemReleasePriority Abs.semReleasePriority
  refine Lockstep.ite (by rw [rtListIsempty_rep h.1.rep]) (fun _ => ?_) fun _ => ?_
  · exact Lockstep.bind (rtIpcListResume_rel h.1 s) fun _ _ _ _ h₁ =>
      rtSchedulePriority_rel ⟨h₁, h.2⟩
  · rw [h.1.sem, h.2]
    exact .some ⟨h.1.setSem s _, rfl⟩

/-! ## Two releases on sequences -/

section Releases
variable {a : SchedSys τ σ (ThreadRings τ σ)} {A B s : σ} {t u : τ} {ts us : List τ}

/-- The first waiter is made ready. -/
def SchedSys.wakeFirst (a : SchedSys τ σ (ThreadRings τ σ)) (t : τ) :
    SchedSys τ σ (ThreadRings τ σ) :=
  a.relistReady t { a.thread t with stat := .ready }

theorem SchedSys.wakeFirst_setSem (m : RtSemaphore) :
    (a.setSem s m).wakeFirst t = (a.wakeFirst t).setSem s m := rfl

theorem SchedSys.wakeFirst_switchTo (v : τ) :
    (a.switchTo v).wakeFirst t = (a.wakeFirst t).switchTo v := by
  rw [SchedSys.wakeFirst, SchedSys.switchTo_thread, relistReady_switchTo]
  rfl

theorem SchedSys.wakeFirst_comm (hne : t ≠ u)
    (hprio : (a.thread t).currentPriority ≠ (a.thread u).currentPriority) :
    (a.wakeFirst t).wakeFirst u = (a.wakeFirst u).wakeFirst t := by
  simp only [SchedSys.wakeFirst, SchedSys.relistReady_thread, Function.update_of_ne hne,
    Function.update_of_ne hne.symm]
  exact relistReady_comm hne hprio

theorem SchedWf.wakeFirst (hw : SchedWf a) (ht : t ∈ a.waiters s) : SchedWf (a.wakeFirst t) :=
  hw.wake (.inr (hw.waiting t s ht)) rfl rfl rfl rfl

section
omit [DecidableEq τ] [DecidableEq σ]

/-- Who waits on two semaphores waits on the same one. -/
theorem SchedWf.waits_once (hw : SchedWf a) (hA : t ∈ a.waiters A) (hB : t ∈ a.waiters B) :
    A = B := by
  have hhead := hw.valid.disjoint hA hB
  exact ThreadHead.suspend.inj hhead

end

section
omit [DecidableEq σ]

/-- The reads of `rt_schedule` see no switch. -/
theorem highestReadyThread_switchTo (v : τ) :
    Abs.highestReadyThread (a.switchTo v) = Abs.highestReadyThread a ∧
      (a.switchTo v).highestReadyPriority = a.highestReadyPriority := by
  have hprio : (a.switchTo v).highestReadyPriority = a.highestReadyPriority := by
    rw [SchedSys.highestReadyPriority, SchedSys.switchTo_group]
    rfl
  rw [Abs.highestReadyThread, hprio, SchedSys.switchTo_readyList]
  exact ⟨rfl, rfl⟩

end

namespace Abs

theorem semReleasePriority_empty (hlive : a.list.live (.head (.suspend s)) = true)
    (hnil : a.waiters s = []) (p : BitVec 8) :
    semReleasePriority s (a, p) =
      some (a.setSem s { a.sem s with value := (a.sem s).value + 1 }, p) := by
  have hseq : a.list.seq (.suspend s) = [] := hnil
  rw [semReleasePriority, if_neg (by simp [isEmpty, hlive, hseq])]
  rfl

/-- With a waiter the release wakes it and looks for the thread to run. -/
theorem semReleasePriority_cons (hw : SchedWf a) (hts : a.waiters s = t :: ts) (p : BitVec 8) :
    ∃ v, highestReadyThread (a.wakeFirst t) = some v ∧
      semReleasePriority s (a, p) = some ((a.wakeFirst t).switchTo v,
        if a.rtSchedulerLockNest = 0 ∧ some v ≠ a.rtCurrentThread then
          BitVec.ofNat 8 (a.wakeFirst t).highestReadyPriority
        else p) := by
  have hmem : t ∈ a.waiters s := by simp [hts]
  have hst := hw.waiting t s hmem
  have hw₁ := hw.wakeFirst hmem
  have hready : ((a.wakeFirst t).thread t).stat = .ready := by simp [SchedSys.wakeFirst]
  obtain ⟨-, -, v, vs, hlist, -, -⟩ := highestReadyThread_spec hw₁ ⟨t, hready⟩
  have hhead : highestReadyThread (a.wakeFirst t) = some v := by
    rw [highestReadyThread, hlist]
    rfl
  have hseq : a.list.seq (.suspend s) = t :: ts := hts
  refine ⟨v, hhead, ?_⟩
  rw [semReleasePriority, if_pos (by simp [isEmpty, hseq]), ipcResume, hts]
  simp only [List.head?_cons, Option.bind_eq_bind, Option.bind_some, resume_eq hw hst]
  rw [← SchedSys.wakeFirst]
  simp only [Option.pure_def, Option.bind_some, schedulePriority, hhead, Option.bind_eq_bind]
  rfl

/-- Whoever is woken first, two wakes lead to one state: the two moves, and one switch to
the thread found at the end. -/
theorem semReleasePriority_both (hw : SchedWf a) (hlock : a.rtSchedulerLockNest = 0)
    (hcur : ∀ v ∈ a.rtCurrentThread, ∀ s, v ∉ a.waiters s) (hne : A ≠ B)
    (hA : a.waiters A = t :: ts) (hB : a.waiters B = u :: us) (p : BitVec 8) :
    ∃ v, highestReadyThread ((a.wakeFirst t).wakeFirst u) = some v ∧
      (semReleasePriority A (a, p) >>= semReleasePriority B) =
        some (((a.wakeFirst t).wakeFirst u).switchTo v,
          if some v ≠ a.rtCurrentThread then
            BitVec.ofNat 8 ((a.wakeFirst t).wakeFirst u).highestReadyPriority
          else p) := by
  have hmemA : t ∈ a.waiters A := by simp [hA]
  have hmemB : u ∈ a.waiters B := by simp [hB]
  have htu : u ≠ t := by
    rintro rfl
    exact hne (hw.waits_once hmemA hmemB)
  obtain ⟨v₁, hv₁, hfirst⟩ := semReleasePriority_cons hw hA p
  have hw₁ := hw.wakeFirst hmemA
  -- the first release leaves the waiters of `B` as they were
  have hB₁ : ((a.wakeFirst t).switchTo v₁).waiters B = u :: us := by
    have hnot : t ∉ a.waiters B := fun ht => hne (hw.waits_once hmemA ht)
    rw [SchedSys.switchTo_waiters, SchedSys.wakeFirst, SchedSys.relistReady_waiters,
      List.erase_of_not_mem hnot, hB]
  have hw₂ : SchedWf ((a.wakeFirst t).switchTo v₁) := hw₁.congr (by simp) (by simp) (by simp)
  obtain ⟨v, hv, hsecond⟩ := semReleasePriority_cons hw₂ hB₁
    (if some v₁ ≠ a.rtCurrentThread then
      BitVec.ofNat 8 (a.wakeFirst t).highestReadyPriority else p)
  rw [SchedSys.wakeFirst_switchTo] at hv hsecond
  rw [(highestReadyThread_switchTo v₁).1] at hv
  refine ⟨v, hv, ?_⟩
  -- what the second wake leaves in front was in front after the first
  have hmem₁ : u ∈ (a.wakeFirst t).waiters B := by
    rw [SchedSys.switchTo_waiters] at hB₁
    simp [hB₁]
  have hw₃ := hw₁.wakeFirst hmem₁
  have hstay : v ≠ u → v₁ = v := by
    intro hvu
    have hst : ((a.wakeFirst t).thread u).stat = .suspend := by
      simpa [SchedSys.wakeFirst, htu] using hw.waiting u B hmemB
    have hbefore := highestReadyThread_before hw₁ hst hw₃ hvu hv
    exact Option.some.inj (hv₁.symm.trans hbefore)
  -- the one in front at the end is the current one only if there was no switch between
  have hsame : some v = a.rtCurrentThread → v₁ = v := by
    intro hc
    refine hstay ?_
    rintro rfl
    exact hcur v hc.symm B hmemB
  have hprio : v₁ = v → (a.wakeFirst t).highestReadyPriority =
      ((a.wakeFirst t).wakeFirst u).highestReadyPriority := by
    rintro rfl
    rw [← (highestReadyThread_prio hw₁ hv₁).2.1, ← (highestReadyThread_prio hw₃ hv).2.1]
    by_cases hvu : v₁ = u
    · subst hvu
      simp [SchedSys.wakeFirst]
    · simp [SchedSys.wakeFirst, hvu]
  have hcurrent : ((a.wakeFirst t).switchTo v₁).rtCurrentThread = some v₁ := by
    rw [SchedSys.switchTo_current]
    exact if_pos hlock
  rw [hfirst]
  simp only [Option.bind_eq_bind, Option.bind_some, hlock, true_and]
  rw [hsecond, (highestReadyThread_switchTo v₁).2, hcurrent,
    switchTo_switchTo (by exact hsame)]
  congr 2
  simp only [SchedSys.switchTo_lockNest]
  by_cases hv₁v : v₁ = v
  · rw [if_neg (by simp [hv₁v]), hv₁v, hprio hv₁v]
  · have hnew : some v ≠ a.rtCurrentThread := fun hc => hv₁v (hsame hc)
    have hlock₁ : (a.wakeFirst t).rtSchedulerLockNest = 0 := hlock
    rw [if_pos ⟨hlock₁, fun h => hv₁v (Option.some.inj h).symm⟩, if_pos hnew]

end Abs

end Releases

/-- The two releases in either order, on sequences. -/
theorem Abs.semReleasePriority_comm {a : SchedSys τ σ (ThreadRings τ σ)} {A B : σ}
    (hw : SchedWf a) (hlock : a.rtSchedulerLockNest = 0)
    (hcur : ∀ v ∈ a.rtCurrentThread, ∀ s, v ∉ a.waiters s) (hne : A ≠ B)
    (hliveA : a.list.live (.head (.suspend A)) = true)
    (hliveB : a.list.live (.head (.suspend B)) = true)
    (hfirst : ∀ t ∈ (a.waiters A).head?, ∀ u ∈ (a.waiters B).head?,
      (a.thread t).currentPriority ≠ (a.thread u).currentPriority) (p : BitVec 8) :
    ∃ y, (semReleasePriority A (a, p) >>= semReleasePriority B) = some y ∧
      (semReleasePriority B (a, p) >>= semReleasePriority A) = some y := by
  -- one waits on `C`, nobody on `D`
  have hone : ∀ {C D : σ} {t : τ} {ts : List τ}, C ≠ D → a.list.live (.head (.suspend D)) = true →
      a.waiters C = t :: ts → a.waiters D = [] →
      ∃ y, (semReleasePriority C (a, p) >>= semReleasePriority D) = some y ∧
        (semReleasePriority D (a, p) >>= semReleasePriority C) = some y := by
    intro C D t ts hCD hliveD hC hD
    obtain ⟨v, hv, hrun⟩ := semReleasePriority_cons hw hC p
    have hD₁ : ((a.wakeFirst t).switchTo v).waiters D = [] := by
      rw [SchedSys.switchTo_waiters, SchedSys.wakeFirst, SchedSys.relistReady_waiters, hD]
      rfl
    have hlive₁ : ((a.wakeFirst t).switchTo v).list.live (.head (.suspend D)) = true := by
      rw [SchedSys.switchTo_list]
      exact hliveD
    have hw₁ : SchedWf (a.setSem D { a.sem D with value := (a.sem D).value + 1 }) :=
      hw.congr rfl rfl rfl
    obtain ⟨v', hv', hrun'⟩ := semReleasePriority_cons hw₁ (s := C) hC p
    obtain rfl : v = v' := Option.some.inj (hv.symm.trans hv')
    refine ⟨_, by rw [hrun]; exact semReleasePriority_empty hlive₁ hD₁ _, ?_⟩
    rw [semReleasePriority_empty hliveD hD]
    simp only [Option.bind_eq_bind, Option.bind_some]
    rw [hrun', SchedSys.wakeFirst_setSem, switchTo_setSem, SchedSys.switchTo_sem]
    rfl
  by_cases hA : a.waiters A = []
  · by_cases hB : a.waiters B = []
    · rw [semReleasePriority_empty hliveA hA, semReleasePriority_empty hliveB hB]
      simp only [Option.bind_eq_bind, Option.bind_some]
      rw [semReleasePriority_empty (a := a.setSem A _) hliveB hB p,
        semReleasePriority_empty (a := a.setSem B _) hliveA hA p]
      simp [SchedSys.setSem, hne, hne.symm, Function.update_comm hne]
    · obtain ⟨u, us, hus⟩ := List.exists_cons_of_ne_nil hB
      obtain ⟨y, hBA, hAB⟩ := hone hne.symm hliveA hus hA
      exact ⟨y, hAB, hBA⟩
  · obtain ⟨t, ts, hts⟩ := List.exists_cons_of_ne_nil hA
    by_cases hB : a.waiters B = []
    · exact hone hne hliveB hts hB
    · obtain ⟨u, us, hus⟩ := List.exists_cons_of_ne_nil hB
      have htu : t ≠ u := by
        rintro rfl
        have hmemA : t ∈ a.waiters A := by simp [hts]
        exact hne (hw.waits_once hmemA (by simp [hus]))
      have hprio : (a.thread t).currentPriority ≠ (a.thread u).currentPriority :=
        hfirst t (by simp [hts]) u (by simp [hus])
      obtain ⟨v, hv, hAB⟩ := semReleasePriority_both hw hlock hcur hne hts hus p
      obtain ⟨v', hv', hBA⟩ := semReleasePriority_both hw hlock hcur hne.symm hus hts p
      rw [SchedSys.wakeFirst_comm htu hprio] at hv hAB
      obtain rfl : v = v' := Option.some.inj (hv.symm.trans hv')
      exact ⟨_, hAB, hBA⟩

/-! ## The current thread waits only under the lock -/

structure RunsFree (e : SchedSys τ σ (ThreadRings τ σ)) : Prop where
  nonneg : 0 ≤ e.rtSchedulerLockNest
  free : e.rtSchedulerLockNest = 0 → ∀ t ∈ e.rtCurrentThread, ∀ s, t ∉ e.waiters s

namespace RunsFree
variable {e e' : SchedSys τ σ (ThreadRings τ σ)}

section
omit [DecidableEq τ] [DecidableEq σ]

/-- A reschedule puts a ready thread on, and a ready thread waits nowhere. -/
theorem dispatched (hnonneg : 0 ≤ e.rtSchedulerLockNest) (hw' : SchedWf e')
    (hlock : e'.rtSchedulerLockNest = e.rtSchedulerLockNest) (hd : Dispatches e e') :
    RunsFree e' := by
  refine ⟨hlock ▸ hnonneg, fun hzero t ht s hmem => ?_⟩
  obtain ⟨u, hready, hcur⟩ := hd
  rw [if_pos (hlock ▸ hzero)] at hcur
  obtain rfl : u = t := Option.some.inj (hcur.symm.trans ht)
  have hst := hw'.waiting u s hmem
  rw [hready] at hst
  cases hst

end

section
omit [DecidableEq σ]

/-- Nobody starts to wait. -/
theorem settles (h : RunsFree e) (hset : Settles e e')
    (hwaiters : ∀ s, (e'.waiters s).Sublist (e.waiters s)) : RunsFree e' := by
  cases hset with
  | kept hcur hlock =>
    refine ⟨hlock ▸ h.nonneg, fun hzero t ht s hmem => ?_⟩
    exact h.free (hlock ▸ hzero) t (hcur ▸ ht) s ((hwaiters s).subset hmem)
  | nested hcur hlock hpos => exact ⟨le_of_lt hpos, fun hzero => absurd hzero (ne_of_gt hpos)⟩
  | opened hcur hcur' hlock =>
    refine ⟨le_of_eq hlock.symm, fun _ t ht => ?_⟩
    rw [hcur'] at ht
    cases ht
  | scheduled f hw hcur hlock hrun =>
    have hsame := schedule_same hrun
    have hnonneg : 0 ≤ f.rtSchedulerLockNest := by
      rcases hlock with hlock | hlock
      · exact hlock ▸ h.nonneg
      · exact le_of_eq hlock.symm
    exact dispatched hnonneg (hsame.wf hw) hsame.lockNest (schedule_dispatch hw hrun)

end

section
omit [DecidableEq τ] [DecidableEq σ]

theorem enterCritical (h : RunsFree e) : RunsFree e.rtEnterCritical := by
  unfold SchedSys.rtEnterCritical
  split
  · have hpos : 0 < e.rtSchedulerLockNest + 1 := Int.lt_add_one_of_le h.nonneg
    exact ⟨le_of_lt hpos, fun hzero => absurd hzero (ne_of_gt hpos)⟩
  · exact h

end

theorem call [Fintype τ] {a a' : SeqKernel τ σ υ} (h : RunsFree a.env) (hw : KernelWf a)
    {c : Call τ σ υ} (hc : Abs.CallAllowed a c) (hrun : Abs.execCall a c = some a') :
    RunsFree a'.env := by
  by_cases hlocks : c = .enterCritical
  · subst hlocks
    cases hrun
    exact h.enterCritical
  · exact h.settles (Settles.call hw hlocks hrun) (execCall_effect hw hc hrun).waiters

theorem exec [Fintype τ] [Fintype υ] {k : RtKernel τ σ υ} {a a' : SeqKernel τ σ υ}
    (h : RunsFree a.env) (hk : KernelRel k a) (hw : KernelWf a) {op : Op τ σ υ}
    (hop : Abs.Allowed a op) (hrun : Abs.exec a op = some a') : RunsFree a'.env := by
  unfold Abs.exec at hrun
  cases op with
  | call c => exact h.call hw hop hrun
  | threadSleep tick =>
    obtain ⟨t, hcur, hcan⟩ := hop
    have hsleeps := threadSleep_sleeps hw hcan hcur hrun
    exact dispatched h.nonneg hsleeps.wf.sched hsleeps.lockNest hsleeps.dispatch
  | semTake s time =>
    obtain ⟨_, hr⟩ := returned_of_map hrun
    rcases semTake_spec hr with ⟨-, -, rfl⟩ | ⟨-, -, -, rfl⟩ | ⟨hb, t, hcur, -, hwait⟩
    · exact ⟨h.nonneg, h.free⟩
    · exact h
    · obtain ⟨t', hcur', hmay⟩ := hop hb
      obtain rfl : t = t' := Option.some.inj (hcur.symm.trans hcur')
      have hwaits := takeWait_waits hw hmay hwait
      exact dispatched h.nonneg hwaits.wf.sched hwaits.lockNest hwaits.dispatch
  | tickIncrease script =>
    refine tick_meets_invariant (I := RunsFree) (P := fun _ _ => True) ?_ ?_ ?_ hk hw
      (tickMeets_of_forall fun _ _ _ _ _ => trivial) h hrun
    · intro e e' hw h hslice
      exact h.settles (Settles.tickSlice hw hslice) (Waking.tickSlice hw hslice).waiters
    · intro a t e hw hact h htimeout
      exact h.settles (Settles.timeout hw.sched hact htimeout)
        (Waking.timeout hw.sched hact htimeout).waiters
    · intro k a c a' _ hw _ hc h hrun
      exact h.call hw hc hrun
  | schedulerStart =>
    obtain ⟨hstart, -⟩ := onSched_spec hrun
    obtain ⟨t, hhead, henv⟩ := schedStart_spec hstart
    rw [henv]
    refine ⟨h.nonneg, fun _ u hu s hmem => ?_⟩
    obtain rfl : t = u := Option.some.inj hu
    have hst := hw.sched.waiting t s hmem
    rw [((hw.sched.ready_iff t _).mp (List.mem_of_mem_head? hhead)).1] at hst
    cases hst

theorem boot {idle : τ} {a : SeqKernel τ σ υ} (h : Abs.boot idle = some a) : RunsFree a.env := by
  have hbooted := boot_spec h
  refine ⟨le_of_eq hbooted.lockNest.symm, fun _ t ht => ?_⟩
  rw [hbooted.current] at ht
  cases ht

end RunsFree

/-! ## The theorem -/

/-- Lists determine links. -/
theorem SchedRel.unique {k k' : SchedSys τ σ (ThreadLinks τ σ)}
    {a : SchedSys τ σ (ThreadRings τ σ)} (h : SchedRel k a) (h' : SchedRel k' a) : k = k' := by
  obtain ⟨l, rfl⟩ := h.eq_withList
  obtain ⟨l', rfl⟩ := h'.eq_withList
  have hl : l = l' := h.rep.unique h'.rep
  rw [hl]

/-- **Independent releases commute.** Two semaphores whose first waiters, if both have one,
differ in priority are released in either order to the same state: values, lists, bitmap,
current thread, `rt_current_priority` and the pending switch. -/
theorem releases_commute [Fintype τ] [Fintype υ] {idle : τ} {k : RtKernel τ σ υ}
    (hk : Reachable idle (fun _ _ => True) k) (hlock : k.env.rtSchedulerLockNest = 0) {A B : σ}
    (hne : A ≠ B) (hA : k.env.list.next (.head (.suspend A)) ≠ none)
    (hB : k.env.list.next (.head (.suspend B)) ≠ none)
    (hfirst : ∀ t ∈ (k.waiters A).head?, ∀ u ∈ (k.waiters B).head?,
      (k.env.thread t).currentPriority ≠ (k.env.thread u).currentPriority)
    (rtCurrentPriority : BitVec 8) :
    ∃ x, (rtSemReleasePriority A (k.env, rtCurrentPriority) >>= rtSemReleasePriority B) = some x ∧
      (rtSemReleasePriority B (k.env, rtCurrentPriority) >>= rtSemReleasePriority A) = some x := by
  obtain ⟨a, h, hw, hfree⟩ := hk.invariant (I := fun a => RunsFree a.env)
    (fun _ ha _ => RunsFree.boot ha) fun k a op a' h hw hI hop _ hrun => hI.exec h hw hop hrun
  have hlive : ∀ {s : σ}, k.env.list.next (.head (.suspend s)) ≠ none →
      a.env.list.live (.head (.suspend s)) = true := by
    intro s hs
    by_contra hdead
    exact hs (h.env.rep.null _ (by simpa using hdead)).1
  rw [h.env.lockNest] at hlock
  simp only [h.waiters, h.env.thread] at hfirst
  obtain ⟨y, hAB, hBA⟩ := Abs.semReleasePriority_comm hw.sched hlock (hfree.free hlock) hne
    (hlive hA) (hlive hB) hfirst rtCurrentPriority
  have hstart : PriorityRel (k.env, rtCurrentPriority) (a.env, rtCurrentPriority) := ⟨h.env, rfl⟩
  have hboth : ∀ C D : σ, Option.Rel PriorityRel
      (rtSemReleasePriority C (k.env, rtCurrentPriority) >>= rtSemReleasePriority D)
      (Abs.semReleasePriority C (a.env, rtCurrentPriority) >>= Abs.semReleasePriority D) :=
    fun C D => Lockstep.bind (rtSemReleasePriority_rel hstart C) fun _ _ _ _ h₁ =>
      rtSemReleasePriority_rel h₁ D
  obtain ⟨x, hx, hrel⟩ := Lockstep.exists_of_right (hboth A B) hAB
  obtain ⟨x', hx', hrel'⟩ := Lockstep.exists_of_right (hboth B A) hBA
  obtain rfl : x = x' := Prod.ext (hrel.1.unique hrel'.1) (hrel.2.trans hrel'.2.symm)
  exact ⟨x, hx, hx'⟩

end Commute

/-- Threads 1 and 2 wait for a semaphore each; thread 3, the least urgent, runs. -/
def twoWait : List (Op (Fin 4) (Fin 2) Empty) :=
  [.call (.threadInit 1 3 10), .call (.threadInit 2 5 10), .call (.threadInit 3 7 10),
    .call (.threadStartup 1), .call (.threadStartup 2), .call (.threadStartup 3),
    .call (.semInit 0 0 RT_IPC_FLAG_FIFO), .call (.semInit 1 0 RT_IPC_FLAG_FIFO),
    .schedulerStart, .semTake 0 (-1), .semTake 1 (-1)]

theorem two_releases : ∃ k x, runFrom 0 (fun _ _ => True) twoWait = some k ∧
    (rtSemReleasePriority 0 (k.env, 7) >>= rtSemReleasePriority 1) = some x ∧
    (rtSemReleasePriority 1 (k.env, 7) >>= rtSemReleasePriority 0) = some x := by
  obtain ⟨k, hk, hreach, hp⟩ := reachable_of_runFrom 0 (fun _ _ => True) twoWait
    (fun k => decide (k.env.rtSchedulerLockNest = 0) &&
      decide (k.env.list.next (.head (.suspend 0)) ≠ none) &&
      decide (k.env.list.next (.head (.suspend 1)) ≠ none) && decide (k.waiters 0 = [1]) &&
      decide (k.waiters 1 = [2]) &&
      decide ((k.env.thread 1).currentPriority ≠ (k.env.thread 2).currentPriority))
    (by decide +kernel)
  simp only [Bool.and_eq_true, decide_eq_true_eq] at hp
  obtain ⟨⟨⟨⟨⟨hlock, hA⟩, hB⟩, hwaitA⟩, hwaitB⟩, hprio⟩ := hp
  obtain ⟨x, hAB, hBA⟩ := releases_commute hreach hlock (A := 0) (B := 1) (by decide) hA hB
    (by simpa [hwaitA, hwaitB] using hprio) 7
  exact ⟨k, x, hk, hAB, hBA⟩

end SampleRtos
