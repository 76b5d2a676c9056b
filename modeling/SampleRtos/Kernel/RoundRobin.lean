import SampleRtos.Lib.Turns
import SampleRtos.Sched.Level
import SampleRtos.Kernel.Guarded
import SampleRtos.Kernel.WakeTimer

/-!
# Round robin within a level

The threads of one priority take turns of `init_tick` ticks. What happens on other
levels, in a tick or between two, costs none of them a turn or a tick: a thread
that is preempted stays first of its list with the rest of its slice.
-/

namespace SampleRtos

open Intrusive

section RoundRobin
variable {τ σ υ : Type} [DecidableEq τ] [DecidableEq σ] [DecidableEq υ]

/-! ## Operations that leave a level alone -/

section Leaves
variable [Fintype τ] [Fintype υ]

/-- The call wakes no thread of priority `p`, takes none off the list of `p` and does
not lock the scheduler. -/
def Call.LeavesLevel (p : Nat) (k : RtKernel τ σ υ) (c : Call τ σ υ) : Prop :=
  (∀ t ∈ wokenBy k.env.thread k.waiters (.call c), (k.env.thread t).currentPriority ≠ p) ∧
    match c with
    | .threadSuspend t => t ∉ k.readyList p
    | .threadDetach t => t ∉ k.readyList p
    | .threadYield => ∀ t ∈ k.env.rtCurrentThread, t ∉ k.readyList p
    | .enterCritical => False
    | _ => True

instance (p : Nat) (k : RtKernel τ σ υ) (c : Call τ σ υ) : Decidable (c.LeavesLevel p k) := by
  rcases c <;> dsimp only [Call.LeavesLevel] <;> infer_instance

/-- No thread of the list of `p` blocks in the operation, and what calls it makes or
timeouts it brings leave the level alone. -/
def Op.LeavesLevel (p : Nat) (k : RtKernel τ σ υ) : Op τ σ υ → Prop
  | .call c => c.LeavesLevel p k
  | .threadSleep _ => ∀ t ∈ k.env.rtCurrentThread, t ∉ k.readyList p
  | .semTake s time => TakeBlocks k s time → ∀ t ∈ k.env.rtCurrentThread, t ∉ k.readyList p
  | .tickIncrease script =>
      tickMeets (fun k c => c.LeavesLevel p k) script k ∧
        tickTimeouts (fun k t => (k.env.thread t).currentPriority ≠ p) script k
  | .schedulerStart => True

instance (p : Nat) (k : RtKernel τ σ υ) (op : Op τ σ υ) : Decidable (op.LeavesLevel p k) := by
  rcases op <;> dsimp only [Op.LeavesLevel] <;> infer_instance

end Leaves

namespace LevelKept
variable {p : Nat} {k : RtKernel τ σ υ} {a a' : SeqKernel τ σ υ} {t : τ} {s : σ}

theorem call [Fintype τ] [Fintype υ] (hk : KernelRel k a) (hw : KernelWf a) {c : Call τ σ υ}
    (hc : c.LeavesLevel p k) (hallowed : Abs.CallAllowed a c)
    (hrun : Abs.execCall a c = some a') : LevelKept p a.env a'.env := by
  have hwf := hw.execCall hallowed hrun
  obtain ⟨hwoken, hown⟩ := hc
  rw [hk.env.thread, funext hk.waiters] at hwoken
  unfold Abs.execCall at hrun
  cases c with
  | threadInit t priority tick =>
    cases hrun
    -- a thread that is initialised is on no ready list
    have hnot : t ∉ a.env.readyList p := by
      intro hmem
      have hready := ((hw.sched.ready_iff t p).mp hmem).1
      rcases hallowed.1 with hst | hst <;> simp [hready] at hst
    refine of_frame rfl (fun u hu => ?_) id rfl
    have hut : u ≠ t := fun hut => hnot (hut ▸ hu)
    simp [Abs.threadInit, hut]
  | threadStartup t =>
    exact startup hw.sched (hwoken t (by simp [wokenBy])) (onSched_spec hrun).1
  | threadResume t =>
    obtain ⟨_, hr⟩ := returned_of_map (onSched_spec hrun).1
    exact resume hw.sched (fun hst => hwoken t (by simp [wokenBy, hst])) hr
  | threadSuspend t =>
    have hnot : t ∉ a.env.readyList p := by rw [← hk.readyList]; exact hown
    obtain ⟨_, hr⟩ := returned_of_map hrun
    rcases threadSuspend_spec hw.sched hr with ⟨-, -, rfl⟩ | ⟨-, -, henv, -⟩
    · exact refl _
    · rw [henv]; exact unlist hnot
  | threadYield =>
    rw [hk.env.current, hk.readyList] at hown
    exact yield hw.sched hown (onSched_spec hrun).1
  | threadDetach t =>
    have hnot : t ∉ a.env.readyList p := by rw [← hk.readyList]; exact hown
    obtain ⟨-, -, ⟨-, henv⟩ | ⟨-, henv⟩⟩ := threadDetach_spec hw.sched hrun <;> rw [henv]
    · exact setThread fun hmem => absurd hmem hnot
    · exact unlist hnot
  | semInit s value flag => cases hrun; exact of_frame rfl (fun _ _ => ⟨rfl, rfl⟩) id rfl
  | semTrytake s =>
    obtain ⟨_, hr⟩ := returned_of_map hrun
    rcases semTake_spec hr with ⟨-, -, rfl⟩ | ⟨-, -, -, rfl⟩ | ⟨hb, -⟩
    · exact setSem _
    · exact refl _
    · exact absurd rfl hb.2
  | semRelease s => exact semRelease hw.sched hwoken (onSched_spec hrun).1
  | semControl s cmd arg =>
    obtain ⟨_, hr⟩ := returned_of_map (onSched_spec hrun).1
    refine semControl hw.sched (fun hcmd t ht => hwoken t ?_) hr
    simpa [wokenBy, hcmd] using ht
  | semDetach s => exact semDetach hw.sched hwoken (onSched_spec hrun).1
  | enterCritical => exact hown.elim
  | exitCritical => exact exitCritical hw.sched (onSched_spec hrun).1
  | schedule => exact schedule hw.sched (onSched_spec hrun).1
  | timerInit u time flag => cases hrun; exact refl _
  | timerStart u => rw [(onTimers_spec hrun).2]; exact refl _
  | timerStop u => rw [(onTimers_spec hrun).2]; exact refl _
  | timerControl u cmd => cases hrun; exact refl _
  | timerDetach u => rw [(onTimers_spec hrun).2]; exact refl _

/-! ## Blocking on another level -/

section
omit [DecidableEq σ]

theorem threadSuspend (hw : SchedWf a.env) (ht : t ∉ a.env.readyList p) {r : Int}
    (h : Abs.threadSuspend a t = some (r, a')) : LevelKept p a.env a'.env := by
  rcases threadSuspend_spec hw h with ⟨-, -, rfl⟩ | ⟨-, -, henv, -⟩
  · exact refl _
  · rw [henv]; exact unlist ht

end

theorem ipcInsert {e e' : SchedSys τ σ (ThreadRings τ σ)} (hlive : e.list.live (.item t) = true)
    (h : Abs.ipcInsert e s t = some e') : LevelKept p e e' := by
  rcases ipcInsert_spec hlive h with ⟨-, -, rfl⟩ | ⟨xs, ys, -, -, rfl, -⟩
  · exact refl _
  · exact of_frame (by simp) (fun _ _ => ⟨rfl, rfl⟩) id rfl

section
omit [DecidableEq σ]

/-- The reschedule that ends a blocking operation. -/
theorem rescheduled {e e₁ e' : SchedSys τ σ (ThreadRings τ σ)} (h : LevelKept p e e₁)
    (hw : SchedWf e') (hsched : Abs.schedule e₁ = some e') : LevelKept p e e' := by
  have hsame := schedule_same hsched
  have hw₁ : SchedWf e₁ := hw.congr hsame.thread.symm hsame.list.symm hsame.group.symm
  exact h.trans (schedule hw₁ hsched)

theorem threadSleep (hw : SchedWf a.env) (hw' : SchedWf a'.env) {tick : Tick}
    (ht : ∀ t ∈ a.env.rtCurrentThread, t ∉ a.env.readyList p)
    (h : Abs.threadSleep a tick = some a') : LevelKept p a.env a'.env := by
  obtain ⟨t, e, a₁, a₂, hcur, hsusp, htimer, hsched⟩ := threadSleep_spec h
  obtain ⟨henv, -⟩ := threadTimerStart_spec htimer
  have h₁ : LevelKept p a.env a₂.env := by
    rw [henv]
    exact threadSuspend hw (ht t hcur) hsusp
  exact h₁.rescheduled hw' (onSched_spec hsched).1

end

theorem takeWait (hw : KernelWf a) (hw' : SchedWf a'.env) (hcan : CanBlock a t)
    (ht : t ∉ a.env.readyList p) {time : BitVec 32}
    (h : Abs.takeWait a s t time = some a') : LevelKept p a.env a'.env := by
  obtain ⟨e, a₁, a₂, a₃, hsusp, hins, htimer, hsched⟩ := takeWait_spec h
  have hw₀ : KernelWf { a with env := a.env.setError t RT_EOK } := hw.setError t RT_EOK
  have h₀ : LevelKept p a.env (a.env.setError t RT_EOK) := setThread fun _ => ⟨rfl, rfl⟩
  have h₁ : LevelKept p (a.env.setError t RT_EOK) a₁.env := threadSuspend hw₀.sched ht hsusp
  have hsuspends := threadSuspend_suspends hw₀ ((canBlock_setError _).mpr hcan) hsusp
  have h₂ : LevelKept p a₁.env a₂.env := ipcInsert hsuspends.live (onSched_spec hins).1
  have henv₃ : a₃.env = a₂.env := (takeTimer_frame (hsuspends.inserted hins).1 htimer).1
  have hsched := (onSched_spec hsched).1
  rw [henv₃] at hsched
  exact ((h₀.trans h₁).trans h₂).rescheduled hw' hsched

end LevelKept

/-! ## Whose turn it is -/

/-- The ticks handed out so far are `g`: full turns up to the thread now first of the
list of `p`, and of its turn what its `remaining_tick` lacks. Everyone else has a full
slice. -/
structure InTurn (p : Nat) (ts : List τ) (slice : τ → Nat)
    (e : SchedSys τ σ (ThreadRings τ σ)) (g : List τ) : Prop where
  lock : e.rtSchedulerLockNest = 0
  front : AtFront p e
  initTick : ∀ t ∈ ts, (e.thread t).initTick.toNat = slice t
  turn : ∃ i c t rest, ts.rotate i = t :: rest ∧ e.readyList p = t :: rest ∧
    g = Turns.turns slice ts i ++ List.replicate c t ∧
    0 < (e.thread t).remainingTick ∧ (e.thread t).remainingTick.toNat + c = slice t ∧
    ∀ u ∈ rest, (e.thread u).remainingTick = (e.thread u).initTick

namespace InTurn
variable {p : Nat} {ts g : List τ} {slice : τ → Nat} {e e' : SchedSys τ σ (ThreadRings τ σ)}
  {t : τ}

section
omit [DecidableEq τ] [DecidableEq σ]

theorem mem_ready_iff (h : InTurn p ts slice e g) : t ∈ e.readyList p ↔ t ∈ ts := by
  obtain ⟨i, c, u, rest, hrotate, hlist, -⟩ := h.turn
  rw [hlist, ← hrotate, List.mem_rotate]

/-- What leaves the level alone changes nothing about the turn. -/
theorem kept (h : InTurn p ts slice e g) (hkept : LevelKept p e e') :
    InTurn p ts slice e' g := by
  refine ⟨hkept.lock h.lock, hkept.front h.front, fun t ht => ?_, ?_⟩
  · rw [hkept.initTick t (h.mem_ready_iff.mpr ht)]
    exact h.initTick t ht
  · obtain ⟨i, c, t, rest, hrotate, hlist, hg, hpos, hc, hrest⟩ := h.turn
    have hmem : ∀ u ∈ rest, u ∈ e.readyList p := by
      intro u hu
      rw [hlist]
      exact List.mem_cons_of_mem _ hu
    have ht : t ∈ e.readyList p := by rw [hlist]; exact List.mem_cons_self ..
    refine ⟨i, c, t, rest, hrotate, hkept.list.trans hlist, hg, ?_, ?_, fun u hu => ?_⟩
    · rw [hkept.remaining t ht]; exact hpos
    · rw [hkept.remaining t ht]; exact hc
    · rw [hkept.remaining u (hmem u hu), hkept.initTick u (hmem u hu)]
      exact hrest u hu

end

section
omit [DecidableEq σ]

/-- At the end of its slice a thread goes to the end of the list with a full one, and
the next in turn has used nothing of its own. -/
theorem turnOver {i c : Nat} {rest : List τ} (hpos : ∀ t ∈ ts, 0 < slice t)
    (hinit : ∀ t ∈ ts, (e.thread t).initTick.toNat = slice t) (hrotate : ts.rotate i = t :: rest)
    (hnot : t ∉ rest) (hrest : ∀ u ∈ rest, (e.thread u).remainingTick = (e.thread u).initTick)
    (hc : slice t = c + 1) (hlock : e'.rtSchedulerLockNest = 0) (hfront : AtFront p e')
    (hlist : e'.readyList p = rest ++ [t])
    (hthread : e'.thread =
      Function.update e.thread t ((e.thread t).withRemaining (e.thread t).initTick)) :
    InTurn p ts slice e' (Turns.turns slice ts i ++ List.replicate (c + 1) t) := by
  have hinit' : ∀ u ∈ ts, (e'.thread u).initTick.toNat = slice u := by
    intro u hu
    rw [← hinit u hu, hthread]
    by_cases hut : u = t
    · subst hut; simp [RtThread.withRemaining]
    · simp [hut]
  have hfull : ∀ u ∈ rest ++ [t], (e'.thread u).remainingTick = (e'.thread u).initTick := by
    intro u hu
    rcases List.mem_append.mp hu with hu | hu
    · have hut : u ≠ t := fun hut => hnot (hut ▸ hu)
      simpa [hthread, hut] using hrest u hu
    · obtain rfl := List.mem_singleton.mp hu
      simp [hthread, RtThread.withRemaining]
  obtain ⟨v, rest', hnext⟩ : ∃ v rest', rest ++ [t] = v :: rest' :=
    List.exists_cons_of_ne_nil (by simp)
  have hrotate' : ts.rotate (i + 1) = v :: rest' := (Turns.rotate_succ hrotate).trans hnext
  have hv : v ∈ ts := by
    rw [← List.mem_rotate (n := i + 1), hrotate']
    exact List.mem_cons_self ..
  have hslice : (e'.thread v).remainingTick.toNat = slice v := by
    rw [hfull v (by rw [hnext]; exact List.mem_cons_self ..)]
    exact hinit' v hv
  refine ⟨hlock, hfront, hinit', i + 1, 0, v, rest', hrotate', hlist.trans hnext, ?_, ?_, hslice,
    fun u hu => hfull u (by rw [hnext]; exact List.mem_cons_of_mem _ hu)⟩
  · rw [Turns.turns_succ hrotate, hc, List.replicate_zero, List.append_nil]
  · have hpos := hpos v hv
    bv_omega

end

/-- **A tick charged to the level** is charged to the thread whose turn it is, which
keeps its turn or goes to the end with a full slice. -/
theorem charge (h : InTurn p ts slice e g) (hw : SchedWf e) (hpos : ∀ t ∈ ts, 0 < slice t)
    (hcur : e.rtCurrentThread = some t) (ht : t ∈ e.readyList p)
    (hrun : Abs.tickSlice e = some e') : InTurn p ts slice e' (g ++ [t]) := by
  obtain ⟨i, c, v, rest, hrotate, hlist, hg, hremain, hc, hrest⟩ := h.turn
  obtain rfl : v = t := by
    have hhead := h.front t hcur ht
    rw [hlist] at hhead
    exact Option.some.inj hhead
  obtain ⟨hstat, hprio⟩ := (hw.ready_iff v p).mp ht
  have hnodup : (v :: rest).Nodup := hlist ▸ hw.valid.nodup _
  have hnot : v ∉ rest := (List.nodup_cons.mp hnodup).1
  have hg' : g ++ [v] = Turns.turns slice ts i ++ List.replicate (c + 1) v := by
    rw [hg, List.append_assoc, List.replicate_succ']
  rw [hg']
  obtain ⟨v', hcur', hcases⟩ := tickSlice_spec hw hrun
  obtain rfl : v' = v := Option.some.inj (hcur'.symm.trans hcur)
  -- a turn of length `c + 1` has come to its end
  have hlast : (e.thread v').remainingTick = 1 → slice v' = c + 1 := by
    intro hone
    rw [hone] at hc
    simp at hc
    omega
  rcases hcases with ⟨hone, rfl⟩ | ⟨hone, ⟨rfl, halone⟩ | ⟨-, hsched⟩⟩
  · refine ⟨h.lock, h.front, fun u hu => ?_, i, c + 1, v', rest, hrotate, hlist, rfl, ?_, ?_,
      fun u hu => ?_⟩
    · by_cases huv : u = v'
      · subst huv; simpa [RtThread.withRemaining] using h.initTick u hu
      · simpa [huv] using h.initTick u hu
    · simp only [SchedSys.setThread_thread, Function.update_self, RtThread.withRemaining]
      bv_omega
    · simp only [SchedSys.setThread_thread, Function.update_self, RtThread.withRemaining]
      bv_omega
    · have huv : u ≠ v' := fun huv => hnot (huv ▸ hu)
      simpa [huv] using hrest u hu
  · -- the only thread of its level starts over
    have hnil : rest = [] := by
      have hsingle := halone hstat
      rw [hprio, hlist] at hsingle
      exact (List.cons.inj hsingle).2
    refine turnOver hpos h.initTick hrotate hnot hrest (hlast hone) h.lock h.front ?_ rfl
    rw [hnil]
    simpa [hnil] using hlist
  · have hw₁ : SchedWf (e.relistReady v' ((e.thread v').withRemaining (e.thread v').initTick)) :=
      hw.wake (.inl hstat) hstat rfl rfl rfl
    have hsame := schedule_same hsched
    have hlock : e'.rtSchedulerLockNest = 0 := by rw [hsame.lockNest]; exact h.lock
    refine turnOver hpos h.initTick hrotate hnot hrest (hlast hone) hlock
      (schedule_atFront hw₁ h.lock hsched) ?_ hsame.thread
    rw [hsame.readyList, SchedSys.relistReady_readyList, if_pos (by exact hprio.symm), hlist,
      List.erase_cons_head]

end InTurn

/-! ## Runs -/

section Runs
variable [Fintype τ] [Fintype υ] {p : Nat} {ts g : List τ} {slice : τ → Nat}

/-- The thread a tick is charged to, if it is on the list of `p`. -/
def chargedTo (p : Nat) (k : RtKernel τ σ υ) : Op τ σ υ → List τ
  | .tickIncrease _ => k.env.rtCurrentThread.toList.filter fun t => t ∈ k.readyList p
  | _ => []

/-- Writes down the ticks charged to level `p`, which the operations leave alone. -/
def slices (p : Nat) : Observer τ σ υ (Op τ σ υ) (List τ) where
  perform := some
  note k g op := g ++ chargedTo p k op
  ok k _ op := op.LeavesLevel p k

instance (p : Nat) (k : RtKernel τ σ υ) (g : List τ) (op : Op τ σ υ) :
    Decidable ((slices p).ok k g op) :=
  inferInstanceAs (Decidable (op.LeavesLevel p k))

namespace InTurn
variable {k : RtKernel τ σ υ} {a a' : SeqKernel τ σ υ}

theorem tick (h : InTurn p ts slice a.env g) (hpos : ∀ t ∈ ts, 0 < slice t) (hk : KernelRel k a)
    (hw : KernelWf a) {script : List (List (Call τ σ υ))}
    (hleaves : (Op.tickIncrease script).LeavesLevel p k)
    (hrun : Abs.tick script a = some a') :
    InTurn p ts slice a'.env (g ++ chargedTo p k (.tickIncrease script)) := by
  obtain ⟨a₁, hstart, hcheck⟩ := Option.bind_eq_some_iff.mp hrun
  obtain ⟨k₁, hk₁, h₁⟩ := Lockstep.exists_of_right (tickStart_rel hk hw.sched) hstart
  have hslice := (onSched_spec hstart).1
  have hcharged : InTurn p ts slice a₁.env (g ++ chargedTo p k (.tickIncrease script)) := by
    rw [chargedTo, hk.env.current, hk.readyList]
    obtain ⟨t, hcur, -⟩ := tickSlice_spec hw.sched hslice
    by_cases ht : t ∈ a.env.readyList p
    · have hone : a.env.rtCurrentThread.toList.filter (fun t => t ∈ a.env.readyList p) = [t] := by
        simp [show a.env.rtCurrentThread = some t from hcur, ht]
      rw [hone]
      exact h.charge hw.sched hpos hcur ht hslice
    · have hnone : a.env.rtCurrentThread.toList.filter (fun t => t ∈ a.env.readyList p) = [] := by
        simp [show a.env.rtCurrentThread = some t from hcur, ht]
      rw [hnone, List.append_nil]
      refine h.kept (LevelKept.tickSlice hw.sched (fun u hu => ?_) hslice)
      obtain rfl : t = u := Option.some.inj (hcur.symm.trans hu)
      exact ht
  refine timerCheck_meets_invariant
    (I := fun e => InTurn p ts slice e (g ++ chargedTo p k (.tickIncrease script)))
    ?_ ?_ script h₁ (hw.tickStart hstart) (hleaves.1 k₁ hk₁) (hleaves.2 k₁ hk₁) hcharged hcheck
  · intro k a t e hk hw hact hprio h he
    rw [hk.env.thread] at hprio
    exact h.kept (LevelKept.timeout hw.sched hact hprio he)
  · intro k a c a' hk hw hc hallowed h hc'
    exact h.kept (LevelKept.call hk hw hc hallowed hc')

theorem exec (h : InTurn p ts slice a.env g) (hpos : ∀ t ∈ ts, 0 < slice t) (hk : KernelRel k a)
    (hw : KernelWf a) {op : Op τ σ υ} (hleaves : op.LeavesLevel p k) (hop : Abs.Allowed a op)
    (hrun : Abs.exec a op = some a') : InTurn p ts slice a'.env (g ++ chargedTo p k op) := by
  have hw' := hw.exec hop hrun
  have hnone : InTurn p ts slice a'.env g → InTurn p ts slice a'.env (g ++ []) := by
    rw [List.append_nil]
    exact id
  unfold Abs.exec at hrun
  cases op with
  | call c =>
    exact hnone (h.kept (LevelKept.call hk hw hleaves hop hrun))
  | threadSleep tick =>
    rw [Op.LeavesLevel, hk.env.current, hk.readyList] at hleaves
    exact hnone (h.kept (LevelKept.threadSleep hw.sched hw'.sched hleaves hrun))
  | semTake s time =>
    refine hnone (h.kept ?_)
    obtain ⟨_, hr⟩ := returned_of_map hrun
    rcases semTake_spec hr with ⟨-, -, rfl⟩ | ⟨-, -, -, rfl⟩ | ⟨hb, t, hcur, -, hwait⟩
    · exact LevelKept.setSem _
    · exact LevelKept.refl _
    · have hnot := hleaves ((takeBlocks_iff hk s time).mpr hb) t (hk.env.current.trans hcur)
      rw [hk.readyList] at hnot
      obtain ⟨u, hu, hcan⟩ := hop hb
      obtain rfl : t = u := Option.some.inj (hcur.symm.trans hu)
      exact LevelKept.takeWait hw hw'.sched hcan hnot hwait
  | tickIncrease script => exact h.tick hpos hk hw hleaves hrun
  | schedulerStart =>
    exact hnone (h.kept (LevelKept.schedStart hw.sched (onSched_spec hrun).1))

end InTurn

/-- **Round robin with preemption.** A level whose first thread runs, all with full
slices, hands out its ticks in turns of `init_tick` in list order, over and over; its
list is always a rotation of the first; and whenever full rounds have been handed out,
list and slices are those of the start. -/
theorem round_robin {idle t : τ} {k₀ k : RtKernel τ σ υ}
    (h₀ : Reachable idle (fun _ _ => True) k₀) (hlist : k₀.readyList p = t :: ts)
    (hcur : k₀.env.rtCurrentThread = some t) (hlock : k₀.env.rtSchedulerLockNest = 0)
    (hfull : ∀ u ∈ t :: ts, 1 ≤ (k₀.env.thread u).initTick ∧
      (k₀.env.thread u).remainingTick = (k₀.env.thread u).initTick)
    (hrun : Run.Reach (slices p).exec (slices p).Allowed (k₀, []) (k, g)) :
    let roster := Turns.roster (fun u => (k₀.env.thread u).initTick.toNat) (t :: ts)
    (∃ m, g <+: (List.replicate m roster).flatten) ∧
      (∃ i, k.readyList p = (t :: ts).rotate i) ∧
      ∀ m, g.length = m * roster.length → k.readyList p = t :: ts ∧
        ∀ u ∈ t :: ts, (k.env.thread u).remainingTick = (k₀.env.thread u).remainingTick := by
  intro roster
  obtain ⟨a₀, hk₀, hw₀, -⟩ := h₀.invariant (I := fun _ => True) (fun _ _ _ => trivial)
    fun _ _ _ _ _ _ _ _ _ _ => trivial
  set slice : τ → Nat := fun u => (k₀.env.thread u).initTick.toNat with hslice
  have hpos : ∀ u ∈ t :: ts, 0 < slice u := by
    intro u hu
    have hone := (hfull u hu).1
    simp only [hslice]
    bv_omega
  -- before the first tick it is `t`'s turn, with its slice untouched
  have hstart : InTurn p (t :: ts) slice a₀.env [] := by
    rw [hk₀.readyList] at hlist
    rw [hk₀.env.current] at hcur
    refine ⟨hk₀.env.lockNest.symm.trans hlock, fun u hu _ => ?_, fun u hu => ?_,
      0, 0, t, ts, List.rotate_zero .., hlist, rfl, ?_, ?_, fun u hu => ?_⟩
    · rw [hlist]
      exact hcur.symm.trans hu
    · rw [← hk₀.env.thread]
    · have hone := (hfull t (List.mem_cons_self ..)).1
      rw [← hk₀.env.thread, (hfull t (List.mem_cons_self ..)).2]
      bv_omega
    · rw [← hk₀.env.thread, (hfull t (List.mem_cons_self ..)).2, Nat.add_zero]
    · rw [← hk₀.env.thread]
      exact (hfull u (List.mem_cons_of_mem _ hu)).2
  obtain ⟨a, hk, hw, h⟩ := Observer.invariant_from
    (I := fun a g => InTurn p (t :: ts) slice a.env g)
    (fun _ _ _ _ _ _ _ _ hnone => by cases hnone)
    (fun k a g e op a' hk hw h hok hperf hop hrun => by
      cases hperf
      exact h.exec hpos hk hw hok hop hrun)
    hk₀ hw₀ hstart hrun
  obtain ⟨i, c, v, rest, hrotate, hready, hg, hremain, hc, hrest⟩ := h.turn
  rw [hk.readyList, hk.env.thread]
  refine ⟨?_, ⟨i, hready.trans hrotate.symm⟩, fun m hm => ?_⟩
  · rw [hg]
    exact Turns.prefix_rounds hrotate (by omega)
  · -- whole rounds bring the list back to where it started, at the start of a turn
    obtain ⟨hzero, hback⟩ := Turns.full_rounds hrotate (c := c) (by bv_omega) hpos (hg ▸ hm)
    rw [hback] at hrotate
    refine ⟨hready.trans hrotate.symm, fun u hu => ?_⟩
    have hinit := h.initTick u hu
    rw [hrotate] at hu
    rw [(hfull u (hrotate ▸ hu)).2]
    rcases List.mem_cons.mp hu with rfl | hu
    · rw [hzero] at hc
      exact BitVec.eq_of_toNat_eq hc
    · rw [hrest u hu]
      exact BitVec.eq_of_toNat_eq hinit

end Runs

end RoundRobin

/-- Threads 2 and 3 share a level, with slices of 2 and 1; thread 1, the more urgent,
sleeps for two ticks. -/
def twoShare : List (Op (Fin 4) (Fin 0) Empty) :=
  [.call (.threadInit 1 3 5), .call (.threadInit 2 5 2), .call (.threadInit 3 5 1),
    .call (.threadStartup 1), .call (.threadStartup 2), .call (.threadStartup 3),
    .schedulerStart, .threadSleep 2]

/-- Thread 1 wakes in the tick that ends the slice of thread 2, runs for a tick and
sleeps again. -/
def oneRound : List (Op (Fin 4) (Fin 0) Empty) :=
  [.tickIncrease [], .tickIncrease [[]], .tickIncrease [], .threadSleep 1, .tickIncrease [[]]]

/-- A round with two preemptions: two ticks for thread 2, one for thread 3, and all is
as it was. -/
theorem round_of_two : ∃ k₀ k : RtKernel (Fin 4) (Fin 0) Empty, ∃ g : List (Fin 4),
    runFrom 0 (fun _ _ => True) twoShare = some k₀ ∧
      Run.exec (slices 5).exec (slices 5).Allowed oneRound (k₀, []) = some (k, g) ∧
      g = [2, 2, 3] ∧ k.readyList 5 = [2, 3] ∧
      ∀ u ∈ ([2, 3] : List (Fin 4)),
        (k.env.thread u).remainingTick = (k₀.env.thread u).remainingTick := by
  obtain ⟨k₀, hk₀, hreach, hp⟩ := reachable_of_runFrom 0 (fun _ _ => True) twoShare
    (fun k => decide (k.readyList 5 = [2, 3]) && decide (k.env.rtCurrentThread = some 2) &&
      decide (k.env.rtSchedulerLockNest = 0) && decide (∀ u ∈ ([2, 3] : List (Fin 4)),
        1 ≤ (k.env.thread u).initTick ∧
          (k.env.thread u).remainingTick = (k.env.thread u).initTick) &&
      decide ((Turns.roster (fun u => (k.env.thread u).initTick.toNat) [2, 3]).length = 3) &&
      (Run.exec (slices 5).exec (slices 5).Allowed oneRound (k, [])).any
        fun x : RtKernel (Fin 4) (Fin 0) Empty × List (Fin 4) => decide (x.2 = [2, 2, 3]))
    (by decide +kernel)
  simp only [Bool.and_eq_true, decide_eq_true_eq, Option.any_eq_true] at hp
  obtain ⟨⟨⟨⟨⟨hlist, hcur⟩, hlock⟩, hfull⟩, hlen⟩, ⟨k, g⟩, hk, rfl⟩ := hp
  obtain ⟨-, -, hback⟩ := round_robin hreach hlist hcur hlock hfull (Run.exec_reach hk)
  exact ⟨k₀, k, _, hk₀, hk, rfl, hback 1 (by rw [hlen]; rfl)⟩

end SampleRtos
