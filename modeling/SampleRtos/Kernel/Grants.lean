import SampleRtos.Kernel.Dispatch
import SampleRtos.Kernel.Waiting
import SampleRtos.Kernel.Units

/-!
# No unit is lost

Programs that only take, release and sleep. A release hands its unit to the
waiter it wakes, which learns of it later from its `error`. As long as no tick
fires the timer of a thread that a release has woken and that has not returned,
no unit is lost: demand and supply are equal throughout.
-/

namespace SampleRtos

open Intrusive

namespace Takes
section Grants
variable {τ σ : Type} [DecidableEq τ] [DecidableEq σ] {a a' : SeqKernel τ σ Empty}
  {g : Takes τ σ} {t : τ} {s : σ}

/-- Taking, releasing, sleeping and ticks, after the initialisation of threads and
semaphores and the start of the scheduler. -/
def Plain : TakeEvent τ σ → Prop
  | .op (.call (.threadInit ..)) | .op (.call (.threadStartup _)) => True
  | .op (.call (.semInit ..)) | .op (.call (.semTrytake _)) => True
  | .op (.call (.semRelease _)) => True
  | .op (.call _) => False
  | _ => True

/-- The tick fires no timer of a thread that a release has woken and that has not
returned from its take. -/
def SparesWoken [Fintype τ] (k : RtKernel τ σ Empty) (g : Takes τ σ) : TakeEvent τ σ → Prop
  | .op (.tickIncrease _) => ∀ t ∈ k.expiring, ∀ s ∈ g.inside t, t ∉ g.woken s
  | _ => True

instance (e : TakeEvent τ σ) : Decidable (Plain e) := by
  rcases e with (c | _ | _ | _ | _) | _
  · rcases c <;> dsimp only [Plain] <;> infer_instance
  all_goals dsimp only [Plain]; infer_instance

instance [Fintype τ] (k : RtKernel τ σ Empty) (g : Takes τ σ) (e : TakeEvent τ σ) :
    Decidable (SparesWoken k g e) := by
  rcases e with (_ | _ | _ | _ | _) | _ <;> dsimp only [SparesWoken] <;> infer_instance

/-! ## Grants -/

structure Granting (a : SeqKernel τ σ Empty) (g : Takes τ σ) : Prop where
  positions : Positions a.env g
  ledger : Ledger g
  balance : ∀ s, demand a.env g s = supply g s
  granted : ∀ s, ∀ t ∈ g.woken s,
    (a.env.thread t).error = RT_EOK ∧ (a.env.thread t).stat = .ready
  unlocked : a.env.rtSchedulerLockNest = 0

/-- No plain call touches the scheduler lock. -/
theorem execCall_lockNest [Fintype τ] (hw : KernelWf a) {c : Call τ σ Empty}
    (hplain : Plain (.op (.call c))) (hrun : Abs.execCall a c = some a') :
    a'.env.rtSchedulerLockNest = a.env.rtSchedulerLockNest := by
  unfold Abs.execCall at hrun
  cases c with
  | threadInit t priority tick => cases hrun; rfl
  | threadStartup t =>
    obtain ⟨-, ⟨-, henv⟩ | ⟨-, hsched⟩⟩ := startup_spec (onSched_spec hrun).1
    · rw [henv]; rfl
    · rw [(schedule_same hsched).lockNest]; rfl
  | semInit s value flag => cases hrun; rfl
  | semTrytake s =>
    obtain ⟨_, hr⟩ := returned_of_map hrun
    rcases semTake_spec hr with ⟨-, -, rfl⟩ | ⟨-, -, -, rfl⟩ | ⟨hb, -⟩
    · rfl
    · rfl
    · exact absurd rfl hb.2
  | semRelease s =>
    rcases semRelease_spec hw.sched (onSched_spec hrun).1 with ⟨-, henv⟩ | ⟨t, ts, -, -, hsched⟩
    · rw [henv]; rfl
    · rw [(schedule_same hsched).lockNest]; rfl
  | _ => exact hplain.elim

theorem tickSlice_lockNest {e e' : SchedSys τ σ (ThreadRings τ σ)} (hw : SchedWf e)
    (h : Abs.tickSlice e = some e') : e'.rtSchedulerLockNest = e.rtSchedulerLockNest := by
  obtain ⟨t, -, ⟨-, rfl⟩ | ⟨-, ⟨rfl, -⟩ | ⟨-, hsched⟩⟩⟩ := tickSlice_spec hw h
  · rfl
  · rfl
  · rw [(schedule_same hsched).lockNest]
    rfl

theorem exec_lockNest [Fintype τ] (hw : KernelWf a) {o : Op τ σ Empty} (hop : Abs.Allowed a o)
    (hplain : Plain (.op o)) (hrun : Abs.exec a o = some a') :
    a'.env.rtSchedulerLockNest = a.env.rtSchedulerLockNest := by
  unfold Abs.exec at hrun
  cases o with
  | call c => exact execCall_lockNest hw hplain hrun
  | threadSleep tick =>
    obtain ⟨t, hcur, hcan⟩ := hop
    exact (threadSleep_sleeps hw hcan hcur hrun).lockNest
  | semTake s time =>
    obtain ⟨_, hr⟩ := returned_of_map hrun
    rcases semTake_spec hr with ⟨-, -, rfl⟩ | ⟨-, -, -, rfl⟩ | ⟨hb, t, hcur, -, hwait⟩
    · rfl
    · rfl
    · obtain ⟨t', hcur', hcan⟩ := hop hb
      obtain rfl : t = t' := Option.some.inj (hcur.symm.trans hcur')
      exact (takeWait_waits hw hcan hwait).lockNest
  | tickIncrease script =>
    obtain ⟨e, hslice, -, hexp, -⟩ := tick_expires hw hrun
    exact hexp.lockNest.trans (tickSlice_lockNest hw.sched hslice)
  | schedulerStart =>
    obtain ⟨t, -, henv⟩ := schedStart_spec (onSched_spec hrun).1
    rw [henv]
    rfl

/-- A ready thread inside a take is left alone by every plain operation that fires
no timer of it. -/
theorem exec_spares [Fintype τ] (hw : KernelWf a) (hpos : Positions a.env g) {o : Op τ σ Empty}
    (hop : Abs.Allowed a o) (hplain : Plain (.op o)) (hturn : Turn a.env g (.op o))
    (hperf : Performs a.env g (.op o)) (hin : g.inside t = some s)
    (hst : (a.env.thread t).stat = .ready)
    (htick : ∀ script, o = .tickIncrease script → t ∉ Abs.expiring a)
    (hrun : Abs.exec a o = some a') :
    (a'.env.thread t).error = (a.env.thread t).error ∧ (a'.env.thread t).stat = .ready := by
  have hready : ReadyAt t (a.env.thread t).currentPriority a.env := ⟨hst, rfl⟩
  have hcur_ne : ∀ u, a.env.rtCurrentThread = some u → g.inside u = none → t ≠ u := by
    rintro u - hnone rfl
    rw [hin] at hnone
    cases hnone
  cases o with
  | call c =>
    have hrun : Abs.execCall a c = some a' := hrun
    have hspares : c.Spares t := by
      cases c <;> trivial
    refine ⟨?_, (hready.call hspares (execCall_effect hw hop hrun)).1⟩
    -- a release relists the thread it wakes, with the error it had
    by_cases hrelease : ∃ q, c = .semRelease q
    · obtain ⟨q, rfl⟩ := hrelease
      have hrun : a.onSched (fun e => Abs.semRelease e q) = some a' := hrun
      rcases semRelease_spec hw.sched (onSched_spec hrun).1 with
        ⟨-, henv⟩ | ⟨u, us, -, -, hsched⟩
      · rw [henv]
        rfl
      · rw [(schedule_same hsched).thread]
        by_cases htu : t = u
        · subst htu; simp
        · simp [htu]
    · have hset := settled_call hw hop hperf (fun q hc => hrelease ⟨q, hc⟩)
        (fun u hc => by subst hc; exact hplain.elim) hpos hrun
      exact hset.error t (.inl hst)
  | threadSleep tick =>
    obtain ⟨u, hcur, hcan⟩ := hop
    have hs := threadSleep_sleeps hw hcan hcur hrun
    have htu := hcur_ne u hcur (hturn u hcur)
    rw [hs.thread]
    simp [htu, hst]
  | semTake q time =>
    obtain ⟨_, hr⟩ := returned_of_map hrun
    rcases semTake_spec hr with ⟨-, -, rfl⟩ | ⟨-, -, -, rfl⟩ | ⟨hb, u, hcur, -, hwait⟩
    · exact ⟨rfl, hst⟩
    · exact ⟨rfl, hst⟩
    · obtain ⟨u', hcur', hcan⟩ := hop hb
      obtain rfl : u = u' := Option.some.inj (hcur.symm.trans hcur')
      have htu := hcur_ne u hcur (hturn u hcur)
      rw [(takeWait_waits hw hcan hwait).thread]
      simp [htu, hst]
  | tickIncrease script =>
    obtain ⟨e, hslice, hwake, hexp, -⟩ := tick_expires hw hrun
    have hset : Settled a.env g e := .tickSlice hw.sched hslice
    have hnot := htick script rfl
    rw [hexp.thread, if_neg hnot]
    exact ⟨hset.error t (.inl hst), (Waking.tickSlice hw.sched hslice).ready t hst⟩
  | schedulerStart =>
    have hrun : a.onSched Abs.schedStart = some a' := hrun
    obtain ⟨u, -, henv⟩ := schedStart_spec (onSched_spec hrun).1
    rw [henv]
    exact ⟨rfl, hst⟩

theorem Granting.boot {idle : τ} (h : Abs.boot idle = some a) : Granting a start where
  positions := (Sound.boot h).positions
  ledger := (Sound.boot h).ledger
  balance s := by
    simp [demand, supply, start, (boot_spec h).sem, Abs.systemInit, Abs.schedInit, zeroSched]
  granted s t ht := by simp [start] at ht
  unlocked := (boot_spec h).lockNest

/-- Who is woken after an operation was woken before it, or is the first waiter of
the semaphore released. -/
theorem mem_woken_note {k : SchedSys τ σ (ThreadRings τ σ)} {waiters : σ → List τ}
    {o : Op τ σ Empty} (ht : t ∈ (g.note k waiters (.op o)).woken s) :
    t ∈ g.woken s ∨ o = .call (.semRelease s) ∧ (waiters s).head? = some t := by
  by_cases hrelease : ∃ q, o = .call (.semRelease q)
  · obtain ⟨q, rfl⟩ := hrelease
    by_cases hs : s = q
    · subst hs
      cases hhead : (waiters s).head? with
      | none => simpa [note, release, hhead] using ht
      | some u =>
        rcases Finset.mem_insert.mp (by simpa [note, release, hhead] using ht) with rfl | ht
        · exact .inr ⟨rfl, rfl⟩
        · exact .inl ht
    · exact .inl (by simpa [note, release, hs] using ht)
  · refine .inl ?_
    have hwoken : (g.note k waiters (.op o)).woken = g.woken := by
      cases o with
      | call c => exact (note_call k waiters g fun q hc => hrelease ⟨q, hc ▸ rfl⟩).2
      | semTake q time =>
        simp only [note]
        split
        · rfl
        · split
          · rfl
          · split <;> rfl
      | _ => rfl
    rwa [hwoken] at ht

theorem Granting.exec [Fintype τ] (hw : KernelWf a) (h : Granting a g) {o : Op τ σ Empty}
    (hop : Abs.Allowed a o) (hplain : Plain (.op o)) (hturn : Turn a.env g (.op o))
    (hperf : Performs a.env g (.op o))
    (htick : ∀ script, o = .tickIncrease script → ∀ t ∈ Abs.expiring a,
      ∀ s ∈ g.inside t, t ∉ g.woken s)
    (hrun : Abs.exec a o = some a') : Granting a' (g.note a.env a.env.waiters (.op o)) where
  positions := h.positions.exec hw hop hturn hperf (fun _ _ _ _ => h.unlocked)
    (fun t ho => by subst ho; exact hplain.elim) hrun
  ledger := h.ledger.note hperf
  balance s := by
    -- an initialisation opens an account; every other operation moves units inside it
    by_cases hinit : ∃ q v f, o = .call (.semInit q v f)
    · obtain ⟨q, v, f, rfl⟩ := hinit
      obtain ⟨hfresh, hv⟩ := hperf
      have hbal := h.balance s
      cases hrun
      by_cases hs : s = q
      · subst hs
        have hzero := h.ledger.unborn s hfresh
        simp only [demand, supply, hfresh, Option.getD_none, hzero] at hbal
        rw [semInit_demand hv, supply, note]
        simp only [Function.update_self, Option.getD_some]
        omega
      · simpa [demand, supply, note, Abs.semInit, SchedSys.setSem, hs] using hbal
    · obtain ⟨d, hd, hs⟩ := exec_balanced hw h.positions hop hperf
        (fun q v f ho => hinit ⟨q, v, f, ho⟩) hrun s
      rw [hd, hs, h.balance s]
  granted s t ht := by
    rcases mem_woken_note ht with hold | ⟨rfl, hhead⟩
    · obtain ⟨herr, hst⟩ := h.granted s t hold
      have hin := h.positions.woken s t hold
      obtain ⟨herr', hst'⟩ := exec_spares hw h.positions hop hplain hturn hperf hin hst
        (fun script ho hmem => htick script ho t hmem s hin hold) hrun
      exact ⟨herr'.trans herr, hst'⟩
    · -- the waiter just woken waited without an error
      obtain ⟨ts, hts⟩ := List.head?_eq_some_iff.mp hhead
      have hrun : a.onSched (fun e => Abs.semRelease e s) = some a' := hrun
      obtain ⟨-, -, herr⟩ := h.positions.waiting s t (by simp [hts])
      rcases semRelease_spec hw.sched (onSched_spec hrun).1 with
        ⟨hnil, -⟩ | ⟨u, us, hus, -, hsched⟩
      · simp [hnil] at hts
      · obtain ⟨rfl, -⟩ := List.cons.inj (hts.symm.trans hus)
        rw [(schedule_same hsched).thread]
        simp [herr]
  unlocked := (exec_lockNest hw hop hplain hrun).trans h.unlocked

/-- A take that returns settles its account exactly. -/
theorem Granting.takeReturn (h : Granting a g) (hturn : Turn a.env g .takeReturn) :
    Granting a (g.note a.env a.env.waiters .takeReturn) := by
  obtain ⟨t, hcur, hin⟩ := hturn
  obtain ⟨s, hin⟩ := Option.isSome_iff_exists.mp hin
  have hleft := h.positions.left hcur hin
  have hwoken : ∀ s' u, u ∈ (g.leave t s).woken s' → u ∈ g.woken s' := by
    intro s' u hu
    by_cases hs : s' = s
    · subst hs; exact Finset.mem_of_mem_erase (by simpa [leave] using hu)
    · simpa [leave, hs] using hu
  have hret : rtSemTakeReturn a.env t = RT_EOK ↔ t ∈ g.woken s := by
    refine ⟨h.positions.woken_of_return hcur hin, fun ht => ?_⟩
    rw [rtSemTakeReturn, (h.granted s t ht).1]
    rfl
  simp only [note, show a.env.rtCurrentThread = some t from hcur, hin]
  split
  · rename_i hok
    refine ⟨hleft.history rfl rfl, ?_, fun s' => ?_, fun s' u hu => ?_, h.unlocked⟩
    · exact (h.ledger.leave t s).acquire _ _
    · rw [return_demand (hret.mp hok)]
      exact h.balance s'
    · exact h.granted s' u (hwoken s' u hu)
  · rename_i hok
    refine ⟨hleft, ?_, fun s' => ?_, fun s' u hu => ?_, h.unlocked⟩
    · exact h.ledger.leave t s
    · rw [leave_demand_eq (fun ht => hok (hret.mpr ht))]
      exact h.balance s'
    · exact h.granted s' u (hwoken s' u hu)

/-! ## Releases -/

/-- A release of an initialised semaphore either adds a unit or wakes the first waiter. -/
theorem semRelease_gives [Fintype τ] {k : RtKernel τ σ Empty} (h : KernelRel k a)
    (hw : KernelWf a) (hinit : k.env.list.next (.head (.suspend s)) ≠ none) :
    ∃ k', (Call.semRelease s).exec k = some k' ∧
      (k.waiters s = [] ∧ k'.env.thread = k.env.thread ∧
          (k'.env.sem s).value = (k.env.sem s).value + 1 ∨
        ∃ t ts, k.waiters s = t :: ts ∧ k'.waiters s = ts ∧ k'.env.sem = k.env.sem ∧
          k'.env.thread =
            Function.update k.env.thread t { k.env.thread t with stat := .ready }) := by
  cases hwait : k.waiters s with
  | cons t ts =>
    obtain ⟨k', hk', hrest, hsem, hthread⟩ := semRelease_wakes h hw hwait
    exact ⟨k', hk', .inr ⟨t, ts, rfl, hrest, hsem, hthread⟩⟩
  | nil =>
    have hlive : a.env.list.live (.head (.suspend s)) = true := by
      by_contra hdead
      exact hinit (h.env.rep.null _ (by simpa using hdead)).1
    have hnil : a.env.list.seq (.suspend s) = [] := (h.waiters s).symm.trans hwait
    let env' := a.env.setSem s { a.env.sem s with value := (a.env.sem s).value + 1 }
    have hrun : Abs.execCall a (.semRelease s) = some { a with env := env' } := by
      simp [Abs.execCall, Sys.onSched, Abs.semRelease, isEmpty, hlive, hnil, env']
    obtain ⟨k', hk', h'⟩ := Lockstep.exists_of_right
      (execCall_rel h hw (c := .semRelease s) trivial) hrun
    refine ⟨k', hk', .inl ⟨rfl, ?_, ?_⟩⟩
    · rw [h'.env.thread, h.env.thread]
      rfl
    · rw [h'.env.sem, h.env.sem]
      simp [env', SchedSys.setSem]

/-- **No unit is lost** in a run none of whose ticks fires the timer of a woken
thread: initial value and releases are the value, the takes that returned
`RT_EOK` and the woken threads that have not returned; each of these will return
`RT_EOK`; and a release adds a unit or wakes one waiter. -/
theorem units_conserved [Fintype τ] {idle : τ} {k : RtKernel τ σ Empty}
    (hk : (observer fun k g e => Plain e ∧ SparesWoken k g e).Reachable idle start k g) :
    (∀ s v, g.initial s = some v →
      v + g.released s = (k.env.sem s).value.toNat + g.acquired s + (g.woken s).card) ∧
    (∀ s, ∀ t ∈ g.woken s, g.inside t = some s ∧ (k.env.thread t).stat = .ready ∧
      rtSemTakeReturn k.env t = RT_EOK) ∧
    ∀ s, k.env.list.next (.head (.suspend s)) ≠ none →
      ∃ k', (Call.semRelease s).exec k = some k' ∧
        (k.waiters s = [] ∧ k'.env.thread = k.env.thread ∧
            (k'.env.sem s).value = (k.env.sem s).value + 1 ∨
          ∃ t ts, k.waiters s = t :: ts ∧ k'.waiters s = ts ∧ k'.env.sem = k.env.sem ∧
            k'.env.thread =
              Function.update k.env.thread t { k.env.thread t with stat := .ready }) := by
  obtain ⟨a, h, hw, hgrant⟩ := hk.invariant (I := Granting) (fun a ha _ => Granting.boot ha)
    (fun k a g e h _ hI hok hperf => by
      cases e with
      | op o => cases hperf
      | takeReturn =>
        rw [show (observer fun k g e => Plain e ∧ SparesWoken k g e).note k g .takeReturn = _ from
          note_rel h g .takeReturn]
        exact hI.takeReturn ((turn_rel h g _).mp hok.1))
    fun k a g e op a' h hw hI hok hperf hop hrun => by
      cases e with
      | takeReturn => cases hperf
      | op o =>
        cases hperf
        rw [show (observer fun k g e => Plain e ∧ SparesWoken k g e).note k g (.op op) = _ from
          note_rel h g (.op op)]
        refine hI.exec hw hop hok.2.2.1 ((turn_rel h g _).mp hok.1)
          ((performs_rel h g _).mp hok.2.1) (fun script ho t ht => ?_) hrun
        subst ho
        exact hok.2.2.2 t (expiring_rel h ▸ ht)
  refine ⟨fun s v hv => ?_, fun s t ht => ?_, fun s hinit => semRelease_gives h hw hinit⟩
  · have hbal := hgrant.balance s
    simp only [demand, supply, hv, Option.getD_some] at hbal
    rw [h.env.sem]
    exact hbal.symm
  · obtain ⟨herr, hst⟩ := hgrant.granted s t ht
    rw [rtSemTakeReturn, h.env.thread, herr]
    exact ⟨hgrant.positions.woken s t ht, hst, rfl⟩

end Grants

/-- The less urgent thread 2 waits for two ticks at most; after one of them thread 1
wakes and releases, and thread 2 is ready with its timer running. -/
def wokenInTime : List (TakeEvent (Fin 3) (Fin 1)) :=
  [.op (.call (.threadInit 1 3 10)), .op (.call (.threadInit 2 5 10)),
    .op (.call (.threadStartup 1)), .op (.call (.threadStartup 2)),
    .op (.call (.semInit 0 0 RT_IPC_FLAG_FIFO)), .op .schedulerStart,
    .op (.threadSleep 1), .op (.semTake 0 2), .op (.tickIncrease [[]]),
    .op (.call (.semRelease 0))]

/-- Thread 2 is dispatched before the next tick and returns with its unit. -/
theorem woken_in_time : ∃ k g,
    (observer fun k g e => Plain e ∧ SparesWoken k g e).runFrom 0 start
      (wokenInTime ++ [.op (.threadSleep 5), .takeReturn]) = some (k, g) ∧
    g.acquired 0 = 1 ∧
    0 + g.released 0 = (k.env.sem 0).value.toNat + g.acquired 0 + (g.woken 0).card := by
  obtain ⟨k, g, hrun, hreach, hp⟩ :=
    (observer fun k g e => Plain e ∧ SparesWoken k g e).reachable_of_runFrom 0 start
      (wokenInTime ++ [.op (.threadSleep 5), .takeReturn])
      (fun x => x.2.initial 0 = some 0 ∧ x.2.acquired 0 = 1) (by decide +kernel)
  obtain ⟨hinit, hacq⟩ := of_decide_eq_true hp
  exact ⟨k, g, hrun, hacq, (units_conserved hreach).1 0 0 hinit⟩

/-- If the next tick comes first, the timer of thread 2 fires, its take returns
`-RT_ETIMEOUT` and the unit is gone. -/
theorem woken_thread_times_out :
    ¬ ∀ (k : RtKernel (Fin 3) (Fin 1) Empty) g,
      (observer fun _ _ e => Plain e).Reachable 0 start k g →
        ∀ s v, g.initial s = some v →
          v + g.released s = (k.env.sem s).value.toNat + g.acquired s + (g.woken s).card := by
  intro hclaim
  obtain ⟨k, g, -, hreach, hp⟩ := (observer fun _ _ e => Plain e).reachable_of_runFrom 0 start
    (wokenInTime ++ [.op (.tickIncrease [[]]), .op (.threadSleep 5), .takeReturn])
    (fun x => x.2.initial 0 = some 0 ∧ x.2.released 0 = 1 ∧ (x.1.env.sem 0).value = 0 ∧
      x.2.acquired 0 = 0 ∧ (x.2.woken 0).card = 0) (by decide +kernel)
  obtain ⟨hinit, hrel, hval, hacq, hcard⟩ := of_decide_eq_true hp
  have hbal := hclaim k g hreach 0 0 hinit
  rw [show g.released 0 = 1 from hrel, show (k.env.sem 0).value = 0 from hval,
    show g.acquired 0 = 0 from hacq, show (g.woken 0).card = 0 from hcard] at hbal
  cases hbal

end Takes

end SampleRtos
