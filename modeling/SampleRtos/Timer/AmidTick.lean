import SampleRtos.Lib.Interrupt
import SampleRtos.Timer.Stopped

/-!
# Ticks inside `rt_timer_start` and `rt_timer_stop`

`rt_timer_start` unlinks the timer in one masked section and links it in another, with
the deadline computed in between; `rt_timer_stop` unlinks it in a masked section and
clears its flag after that. A tick in between whose callbacks start the timer leaves it
linked: then the second section links it a second time, and the write clears the flag of
a linked timer. As long as the timer is off the list when these two come to be executed,
list and flag are in step at the end.
-/

namespace SampleRtos

open Intrusive Interrupt

section AmidTick
variable {ι γ : Type} [DecidableEq ι]

/-! ## The points of the two functions -/

/-- The points at which interrupts are enabled. Between two of them there is one masked
section or one access to memory; what an access has read is kept with the point. -/
inductive TimerPoint where
  | start
  | startUnlinked
  | startTick (now : Tick)
  | startSum (timeout : Tick)
  | startArmed
  | stop
  | stopTested
  | stopUnlinked
  | stopFlag (flag : BitVec 8)
  | done
  deriving DecidableEq, Repr

abbrev LoggedTimers (ι γ : Type) := Sys ι γ (TimerLinks ι) (TimerLog ι)

/-- The two functions, called on `t`, from one of these points to the next. -/
def timerStep [Fintype ι] (t : ι) :
    TimerPoint × LoggedTimers ι γ → Option (TimerPoint × LoggedTimers ι γ)
  | (.start, s) => do
      let k ← rtTimerStartUnlink s.timers t
      return (.startUnlinked, { s with timers := k })
  | (.startUnlinked, s) => some (.startTick s.timers.rtTick, s)
  | (.startTick now, s) => some (.startSum (now + (s.timers.timer t).initTick), s)
  | (.startSum timeout, s) =>
      let r := { s.timers.timer t with timeoutTick := timeout }
      some (.startArmed, { s with timers := s.timers.setTimer t r })
  | (.startArmed, s) => do
      let k ← rtTimerStartLink s.timers t
      return (.done, { s with timers := k })
  | (.stop, s) => some (if (s.timers.timer t).activated then .stopTested else .done, s)
  | (.stopTested, s) => do
      let k ← rtTimerRemove s.timers t
      return (.stopUnlinked, { s with timers := k })
  | (.stopUnlinked, s) => some (.stopFlag (s.timers.timer t).flag, s)
  | (.stopFlag flag, s) =>
      let r := { s.timers.timer t with flag := flag &&& ~~~RT_TIMER_FLAG_ACTIVATED }
      some (.done, { s with timers := s.timers.setTimer t r })
  | (.done, _) => none

/-- Undisturbed, the steps from `start` are `rt_timer_start`. -/
theorem timerStep_start [Fintype ι] {s : LoggedTimers ι γ} {t : ι}
    {k : TimerSys ι γ (TimerLinks ι)}
    {handler : LoggedTimers ι γ → Unit → Option (LoggedTimers ι γ)}
    (h : rtTimerStart s.timers t = some k) :
    run (timerStep t) handler (List.replicate 5 .code) (.start, s) =
      some (.done, { s with timers := k }) := by
  obtain ⟨m, hm, hlink⟩ := Option.bind_eq_some_iff.mp h
  have hlink' : rtTimerStartLink (m.setTimer t
      { m.timer t with timeoutTick := m.rtTick + (m.timer t).initTick }) t = some k := hlink
  simp [run, exec, timerStep, hm, hlink']

/-- Undisturbed, the steps from `stop` are `rt_timer_stop`. -/
theorem timerStep_stop [Fintype ι] {s : LoggedTimers ι γ} {t : ι} {e : Int}
    {k : TimerSys ι γ (TimerLinks ι)}
    {handler : LoggedTimers ι γ → Unit → Option (LoggedTimers ι γ)}
    (h : rtTimerStop s.timers t = some (e, k)) :
    run (timerStep t) handler
        (List.replicate (if (s.timers.timer t).activated then 4 else 1) .code) (.stop, s) =
      some (.done, { s with timers := k }) := by
  unfold rtTimerStop at h
  split at h
  · rename_i hact
    cases h
    simp [run, exec, timerStep, hact]
  · rename_i hact
    obtain ⟨m, hm, hret⟩ := Option.bind_eq_some_iff.mp h
    cases hret
    have hact := not_not.mp hact
    simp [run, exec, timerStep, hact, hm, TimerSys.deactivate, RtTimer.deactivate]

/-! ## Flag and list for one timer -/

/-- Callbacks that do not detach `t` while it is flagged, and the one of `t` does not
return with `t` linked and one-shot. -/
def sparing (t : ι) : TimerGuard ι γ where
  call v
    | .detach u => decide (u = t → ¬ (v.timer u).activated)
    | _ => true
  returned v u := decide (u = t → ¬ RestartsItself v u)

/-- The handler of a tick. -/
def tickUnder [Fintype ι] (g : TimerGuard ι γ) (s : LoggedTimers ι γ)
    (script : List (List (TimerCall ι γ))) : Option (LoggedTimers ι γ) :=
  CheckOp.exec g s (.tick script)

/-- No condition. -/
def unguarded : TimerGuard ι γ where
  call _ _ := true
  returned _ _ := true

/-- The timer list is a ring of timers each linked once, and `t` is flagged if and only
if it is among them. -/
def FlagTells (k : TimerSys ι γ (TimerLinks ι)) (t : ι) : Prop :=
  ∃ ts, Ring k.timerList .rtTimerList ts ∧ ts.Nodup ∧ ((k.timer t).activated ↔ t ∈ ts)

/-- The step that is next relies on `t` being off the list, and it is not. -/
def Collides [Fintype ι] (t : ι) : TimerPoint × LoggedTimers ι γ → Prop
  | (.startArmed, s) => t ∈ s.timers.view.timerList
  | (.stopFlag _, s) => t ∈ s.timers.view.timerList
  | _ => False

instance [Fintype ι] (t : ι) (x : TimerPoint × LoggedTimers ι γ) : Decidable (Collides t x) := by
  obtain ⟨p, s⟩ := x
  rcases p <;> dsimp only [Collides] <;> infer_instance

/-! ## On sequences -/

/-- `t` is initialised; linked it is flagged if `held`, and flagged it is linked if
`told`. -/
structure Tells (held told : Prop) (t : ι) (a : TimerSys ι γ (TimerRings ι)) : Prop where
  valid : a.timerList.Valid
  head : a.timerList.live timerHead = true
  live : a.timerList.live (.item t) = true
  linked : held → t ∈ a.queue → (a.timer t).activated
  flagged : told → (a.timer t).activated → t ∈ a.queue

variable {a a' : TimerSys ι γ (TimerRings ι)} {t u : ι} {held told held' told' : Prop}

namespace Tells

section
omit [DecidableEq ι]

theorem imp (h : Tells held told t a) (hheld : held' → held) (htold : told' → told) :
    Tells held' told' t a :=
  ⟨h.valid, h.head, h.live, fun hh => h.linked (hheld hh), fun ht => h.flagged (htold ht)⟩

/-- Nothing changes for `t`. -/
theorem same (h : Tells held told t a) (hvalid : a'.timerList.Valid)
    (hlive : ∀ n, a.timerList.live n = true → a'.timerList.live n = true)
    (hflag : (a'.timer t).activated ↔ (a.timer t).activated)
    (hmem : t ∈ a'.queue ↔ t ∈ a.queue) : Tells held told t a' where
  valid := hvalid
  head := hlive _ h.head
  live := hlive _ h.live
  linked hheld ht := hflag.mpr (h.linked hheld (hmem.mp ht))
  flagged htold hact := hmem.mpr (h.flagged htold (hflag.mp hact))

end

/-- A timer is unlinked: its flag may be left behind. -/
theorem erase (h : Tells held told t a) (u : ι) :
    Tells held (told ∧ u ≠ t) t { a with timerList := a.timerList.erase u } where
  valid := h.valid.erase u
  head := h.head
  live := h.live
  linked hheld ht := h.linked hheld ((TimerSys.mem_others h.valid).mp ht).1
  flagged htold hact :=
    (TimerSys.mem_others h.valid).mpr ⟨h.flagged htold.1 hact, Ne.symm htold.2⟩

/-- A timer loses its flag, unlinked if `held`. -/
theorem clear (h : Tells held told t a) {r : RtTimer γ} (ht : held' → t ∉ a.queue)
    (hr : ¬ r.activated) : Tells held' told' t (a.setTimer t r) where
  valid := h.valid
  head := h.head
  live := h.live
  linked hheld hmem := absurd hmem (ht hheld)
  flagged _ hact := absurd (by simpa using hact) hr

/-- Another timer's record is written. -/
theorem setOther (h : Tells held told t a) (hut : u ≠ t) (r : RtTimer γ) :
    Tells held told t (a.setTimer u r) :=
  h.same h.valid (fun _ => id) (by simp [Ne.symm hut]) Iff.rfl

/-- Linking flags what it links. -/
theorem insert (hvalid : a'.timerList.Valid)
    (hlive : ∀ n, a.timerList.live n = true → a'.timerList.live n = true)
    (hmem : t ∈ a'.queue ↔ t = u ∨ t ∈ a.queue) (hself : (a'.timer u).activated)
    (hsame : ∀ v, v ≠ u → a'.timer v = a.timer v)
    (hhead : a.timerList.live timerHead = true) (hinit : a.timerList.live (.item t) = true)
    (hother : u ≠ t → Tells held told t a) : Tells held told t a' := by
  refine ⟨hvalid, hlive _ hhead, hlive _ hinit, fun hheld ht => ?_, fun htold hact => ?_⟩
  · by_cases htu : t = u
    · exact htu ▸ hself
    · rw [hsame t htu]
      exact (hother (Ne.symm htu)).linked hheld ((hmem.mp ht).resolve_left htu)
  · by_cases htu : t = u
    · exact hmem.mpr (.inl htu)
    · rw [hsame t htu] at hact
      exact hmem.mpr (.inr ((hother (Ne.symm htu)).flagged htold hact))

/-- A start, whatever the flag was. -/
theorem start (hvalid : a.timerList.Valid) (hinit : a.timerList.live (.item t) = true)
    (hother : u ≠ t → Tells held told t a) (hstart : Abs.timerStart a u = some a') :
    Tells held told t a' := by
  obtain ⟨xs, ys, hm⟩ := Abs.timerStart_started hvalid hstart
  have hflagged : (a'.timer u).activated := by
    rw [hm.self]
    exact RtTimer.started_activated _ _
  exact insert hm.valid_after (fun n hn => by rwa [hm.live]) hm.mem_queue hflagged hm.other hm.head
    hinit hother

/-- A call that does not detach `t` while it is flagged. -/
theorem call (h : Tells held told t a) {c : TimerCall ι γ} (hc : Abs.TimerCallAllowed a c)
    (hdetach : c = .detach t → ¬ (a.timer t).activated)
    (hexec : Abs.execTimerCall a c = some a') : Tells held told t a' := by
  unfold Abs.execTimerCall at hexec
  cases c with
  | init u timeout time flag =>
    cases hexec
    have hmark : ∀ n, a.timerList.live n = true →
        (Abs.timerInit a u timeout time flag).timerList.live n = true :=
      fun n hn => Rings.mark_live_mono hn
    by_cases hut : u = t
    · subst hut
      have hcleared : ¬ ((Abs.timerInit a u timeout time flag).timer u).activated := by
        simpa [Abs.timerInit, RtTimer.activated] using (flag_bits flag).2.2.1
      exact ⟨h.valid.mark _, hmark _ h.head, hmark _ h.live, fun _ ht => absurd ht hc,
        fun _ hact => absurd hact hcleared⟩
    · exact h.same (h.valid.mark _) hmark (by simp [Abs.timerInit, Ne.symm hut]) Iff.rfl
  | start u => exact start h.valid h.live (fun _ => h) hexec
  | stop u =>
    obtain ⟨e, hstop⟩ := returned_of_map hexec
    rcases Abs.timerStop_spec hstop with ⟨-, rfl⟩ | ⟨-, -, rfl⟩
    · exact h
    · by_cases hut : u = t
      · subst hut
        exact (h.erase u).clear (fun _ => h.valid.erase_free u .rtTimerList) (by simp)
      · exact ((h.erase u).setOther hut (a.timer u).deactivate).imp id fun htold => ⟨htold, hut⟩
  | control u cmd =>
    cases hexec
    refine h.same h.valid (fun _ => id) ?_ Iff.rfl
    by_cases hut : t = u
    · subst hut
      simpa using (control_flags (a.timer t) cmd).2
    · simp [hut]
  | detach u =>
    obtain ⟨-, rfl⟩ := Abs.timerRemove_eq_some hexec
    have h' := h.erase u
    refine ⟨h'.valid, h'.head, h'.live, h'.linked, fun htold hact => h'.flagged ⟨htold, ?_⟩ hact⟩
    rintro rfl
    exact hdetach rfl hact

variable {b b' : Sys ι γ (TimerRings ι) (TimerLog ι)}

theorem runCalls (h : Tells held told t b.timers) {calls : List (TimerCall ι γ)}
    (hrun : calls.foldlM (Abs.runGuardedCall (sparing t)) b = some b') :
    Tells held told t b'.timers := by
  refine runGuardedCalls_keeps (J := fun b => Tells held told t b.timers)
    (fun {b c a} h hc hg hexec => h.call hc (fun heq => ?_) hexec) calls h hrun
  subst heq
  exact fun hact => by simp [sparing, hact] at hg

/-- One firing of `rt_timer_check`. Inside the callback of `t` itself the flag says
nothing. -/
theorem fire (h : Tells held told t b.timers) {calls : List (TimerCall ι γ)}
    (hrun : Abs.timerFire (guardedCallback (sparing t) Abs.view (Abs.runGuardedCall (sparing t)))
      calls u b = some b') : Tells held told t b'.timers := by
  obtain ⟨-, f, b₁, -, hcall, hend⟩ := Abs.timerFire_spec hrun
  obtain ⟨b₂, hcalls, hret⟩ := Option.bind_eq_some_iff.mp hcall
  have h₂ : Tells held (told ∧ u ≠ t) t b₂.timers :=
    runCalls (b := { b.unlinked u with env := .fire u :: b.env }) (h.erase u) hcalls
  split at hret
  · rename_i hreturns
    cases hret
    have hother : u ≠ t → Tells held told t (b₁.timers.deactivate u) := fun hut =>
      (h₂.setOther hut _).imp id fun htold => ⟨htold, hut⟩
    rcases hend with ⟨-, -, hstart, -⟩ | ⟨hnot, rfl⟩
    · exact start (a := b₁.timers.deactivate u) h₂.valid h₂.live hother hstart
    · by_cases hut : u = t
      · subst hut
        refine h₂.clear (fun hheld hmem => hnot ⟨?_, h₂.linked hheld hmem⟩) (by simp)
        by_contra hper
        have hspared : ¬ RestartsItself (Abs.view b₁.timers) u := by
          simpa [sparing] using hreturns.1
        exact hspared ⟨hmem, hper⟩
      · exact hother hut
  · cases hret

/-- A whole tick. -/
theorem tick (h : Tells held told t b.timers) {script : List (List (TimerCall ι γ))}
    (hrun : Abs.execCheckOp (sparing t) b (.tick script) = some b') :
    Tells held told t b'.timers := by
  have h₀ : Tells held told t { b.timers with rtTick := b.timers.rtTick + 1 } :=
    ⟨h.valid, h.head, h.live, h.linked, h.flagged⟩
  exact (Abs.timerCheck_invariant (fun b => Tells held told t b.timers) script
    (fun _ _ _ _ _ h _ _ hf => h.fire hf) (b := ⟨_, TimerEvent.tick :: b.env⟩) h₀ hrun).1

end Tells

/-! ## The steps -/

/-- Where a linked `t` has to be flagged for the outcome to be right. -/
def TimerPoint.Held : TimerPoint → Prop
  | .start | .stopTested | .stopUnlinked | .stopFlag _ => False
  | _ => True

/-- Where a flagged `t` has to be linked. -/
def TimerPoint.Told : TimerPoint → Prop
  | .start | .stop | .stopTested | .stopUnlinked | .stopFlag _ => False
  | _ => True

/-- Linking `t`, which is on no list. -/
theorem Tells.link [Fintype ι] {k k' : TimerSys ι γ (TimerLinks ι)} (h : TimerRel k a)
    (ht : Tells True True t a) (hfree : t ∉ a.queue) (hrun : rtTimerStartLink k t = some k') :
    ∃ a', TimerRel k' a' ∧ Tells True True t a' := by
  have hfree' : a.timerList.Free t := fun hd => by cases hd; exact hfree
  obtain ⟨a', ha', h'⟩ := Lockstep.exists_of_left (rtTimerStartLink_rel h hfree') hrun
  obtain ⟨l, hins, hret⟩ := Option.bind_eq_some_iff.mp ha'
  obtain ⟨hhead, xs, ys, hcut, hl, -, -⟩ := insertOrdered_spec hins
  rw [Rings.mark_of_live ht.live] at hl
  subst hl
  cases hret
  refine ⟨_, h', Tells.insert (u := t) (ht.valid.insert hcut hfree' ht.live hhead) (fun _ => id) ?_
    (by simpa [TimerSys.setTimer] using RtTimer.activate_activated (a.timer t))
    (fun v hv => by simp [TimerSys.setTimer, hv]) ht.head ht.live fun hne => absurd rfl hne⟩
  simp [TimerSys.queue, TimerSys.setTimer]

/-- A state of one of the functions called on `t`. -/
def PointOk [Fintype ι] (t : ι) (x : TimerPoint × LoggedTimers ι γ) : Prop :=
  ∃ b, HistoryRel x.2 b ∧ Tells x.1.Held x.1.Told t b.timers

/-- The next step, if it does not collide. -/
theorem PointOk.code [Fintype ι] {x x' : TimerPoint × LoggedTimers ι γ} (hx : PointOk t x)
    (hfree : ¬ Collides t x) (hrun : timerStep t x = some x') : PointOk t x' := by
  obtain ⟨p, s⟩ := x
  obtain ⟨b, h, ht⟩ := hx
  have hmem : s.timers.view.timerList = b.timers.queue := by rw [view_rel h.timers]; rfl
  cases p with
  | start =>
    obtain ⟨k, hk, hret⟩ := Option.bind_eq_some_iff.mp hrun
    cases hret
    obtain ⟨k₁, hk₁, hret⟩ := Option.bind_eq_some_iff.mp hk
    cases hret
    obtain ⟨a₁, ha₁, h₁⟩ := Lockstep.exists_of_left (rtTimerRemove_rel h.timers t) hk₁
    obtain ⟨-, rfl⟩ := Abs.timerRemove_eq_some ha₁
    exact ⟨⟨_, b.env⟩, ⟨h₁.deactivate t, h.env⟩,
      (ht.erase t).clear (fun _ => ht.valid.erase_free t .rtTimerList) (by simp)⟩
  -- reading the tick and adding to it touch no memory
  | startUnlinked => cases hrun; exact ⟨b, h, ht⟩
  | startTick now => cases hrun; exact ⟨b, h, ht⟩
  | startSum timeout =>
    cases hrun
    refine ⟨⟨_, b.env⟩, ⟨h.timers.setTimer t _, h.env⟩, ?_⟩
    refine ht.same ht.valid (fun _ => id) ?_ Iff.rfl
    rw [h.timers.timer]
    simp [RtTimer.activated]
  | startArmed =>
    -- nobody has linked the timer since it was unlinked: that would collide
    obtain ⟨k, hk, hret⟩ := Option.bind_eq_some_iff.mp hrun
    cases hret
    have hout : t ∉ b.timers.queue := hmem ▸ hfree
    obtain ⟨a', h', ht'⟩ := Tells.link h.timers ht hout hk
    exact ⟨⟨a', b.env⟩, ⟨h', h.env⟩, ht'⟩
  | stop =>
    cases hrun
    refine ⟨b, h, ?_⟩
    by_cases hact : (s.timers.timer t).activated
    · rw [if_pos hact]
      exact ht.imp False.elim False.elim
    · rw [if_neg hact]
      rw [h.timers.timer] at hact
      exact ⟨ht.valid, ht.head, ht.live, ht.linked, fun _ h => absurd h hact⟩
  | stopTested =>
    obtain ⟨k, hk, hret⟩ := Option.bind_eq_some_iff.mp hrun
    cases hret
    obtain ⟨a₁, ha₁, h₁⟩ := Lockstep.exists_of_left (rtTimerRemove_rel h.timers t) hk
    obtain ⟨-, rfl⟩ := Abs.timerRemove_eq_some ha₁
    exact ⟨⟨_, b.env⟩, ⟨h₁, h.env⟩, (ht.erase t).imp False.elim False.elim⟩
  | stopUnlinked => cases hrun; exact ⟨b, h, ht⟩
  | stopFlag flag =>
    -- the flag read before is written back over whatever the tick left there
    cases hrun
    have hout : t ∉ b.timers.queue := hmem ▸ hfree
    refine ⟨⟨_, b.env⟩, ⟨h.timers.setTimer t _, h.env⟩, ht.clear (fun _ => hout) ?_⟩
    simpa [RtTimer.activated] using (flag_bits flag).2.2.1
  | done => cases hrun

/-- A tick. -/
theorem PointOk.tick [Fintype ι] {x x' : TimerPoint × LoggedTimers ι γ} (hx : PointOk t x)
    {script : List (List (TimerCall ι γ))}
    (hrun : exec (timerStep t) (tickUnder (sparing t)) x (.handler script) = some x') :
    PointOk t x' := by
  obtain ⟨b, h, ht⟩ := hx
  obtain ⟨hp, hs⟩ := exec_handler hrun
  obtain ⟨b', hb', h'⟩ :=
    Lockstep.exists_of_left (execCheckOp_rel (sparing t) h (.tick script)) hs
  rw [PointOk, hp]
  exact ⟨b', h', ht.tick hb'⟩

/-- A node that has been initialised stays so. -/
theorem checkKeeps_live (g : TimerGuard ι γ) (n : Node TimerHead ι) :
    CheckKeeps g fun b : Sys ι γ (TimerRings ι) (TimerLog ι) =>
      b.timers.timerList.live n = true where
  call {b c a} h _ _ hexec := by
    unfold Abs.execTimerCall at hexec
    cases c with
    | init t timeout time flag => cases hexec; exact Rings.mark_live_mono h
    | start t =>
      obtain ⟨-, -, xs, ys, -, rfl, -, -⟩ := Abs.timerStart_spec hexec
      exact h
    | stop t =>
      obtain ⟨e, hstop⟩ := returned_of_map hexec
      rcases Abs.timerStop_spec hstop with ⟨-, rfl⟩ | ⟨-, -, rfl⟩ <;> exact h
    | control t cmd => cases hexec; exact h
    | detach t =>
      obtain ⟨-, rfl⟩ := Abs.timerRemove_eq_some hexec
      exact h
  unlink h _ _ := h
  restart h _ _ _ hstart := by
    obtain ⟨-, -, xs, ys, -, rfl, -, -⟩ := Abs.timerStart_spec hstart
    exact h
  finish h _ _ := h

/-! ## The theorem -/

/-- **`rt_timer_start` and `rt_timer_stop` among ticks.** Wherever ticks arrive, list and
flag are in step at the end if `t` is off the list when the second section of
`rt_timer_start` or the write of `rt_timer_stop` comes to be executed, provided it was
flagged, if linked, when `rt_timer_stop` was called. -/
theorem timer_amid_ticks [Fintype ι] {g : TimerGuard ι γ} {init : Tick} {s : LoggedTimers ι γ}
    (hs : GuardedReachable g init s) {t : ι} (ht : s.timers.timerList.next (.item t) ≠ none)
    {p : TimerPoint}
    (hp : p = .start ∨ p = .stop ∧ (t ∈ s.timers.view.timerList → (s.timers.timer t).activated))
    {x : TimerPoint × LoggedTimers ι γ}
    (hrun : Run.Reach (exec (timerStep t) (tickUnder (sparing t)))
      (fun x m => m.isCode = true → ¬ Collides t x) (p, s) x)
    (hdone : x.1 = .done) : FlagTells x.2.timers t := by
  obtain ⟨b, h, hlive⟩ := hs.invariant (I := fun b => b.timers.timerList.live timerHead = true)
    (fun random timer => by simp [Abs.timersFrom, Rings.mark]) fun b op b' hI hrun => by
      cases op with
      | call c => exact (checkKeeps_live g timerHead).runCall hI hrun
      | check script => exact ((checkKeeps_live g timerHead).check hI hrun).1
      | tick script =>
        exact ((checkKeeps_live g timerHead).check
          (b := ⟨{ b.timers with rtTick := b.timers.rtTick + 1 }, .tick :: b.env⟩) hI hrun).1
  have hinit : b.timers.timerList.live (.item t) = true := by
    by_contra hdead
    exact ht (h.timers.rep.null _ (by simpa using hdead)).1
  have h₀ : PointOk t (p, s) := by
    refine ⟨b, h, h.timers.rep.valid, hlive, hinit, fun hheld hmem => ?_, fun htold => ?_⟩
    · rcases hp with rfl | ⟨rfl, hlinked⟩
      · exact hheld.elim
      · rw [← h.timers.timer]
        refine hlinked ?_
        rw [view_rel h.timers]
        exact hmem
    · rcases hp with rfl | ⟨rfl, -⟩ <;> exact htold.elim
  obtain ⟨b', h', hx⟩ := Run.invariant (I := PointOk t) (fun x m x' hx hok hmove => by
    cases m with
    | code => exact hx.code (hok rfl) hmove
    | handler script => exact hx.tick hmove) h₀ hrun
  rw [hdone] at hx
  refine ⟨b'.timers.queue, h'.timers.rep.ring _ hx.head, hx.valid.nodup _, ?_⟩
  rw [h'.timers.timer]
  exact ⟨hx.flagged trivial, hx.linked trivial⟩

/-- Timer 1 runs and is due at the next tick. -/
def oneRunning : List (CheckOp (Fin 2) Unit) :=
  [.call (.init 0 (some ()) 5 RT_TIMER_FLAG_ONE_SHOT),
    .call (.init 1 (some ()) 1 RT_TIMER_FLAG_ONE_SHOT), .call (.start 1)]

/-- `rt_timer_start` on timer 0, with a tick between its sections in which the callback of
timer 1 does `calls`. -/
def startAmidTick (calls : List (TimerCall (Fin 2) Unit)) :
    List (Move (List (List (TimerCall (Fin 2) Unit)))) :=
  [.code, .handler [calls], .code, .code, .code, .code]

/-- The callback starts timer 0 and stops it again. -/
theorem started_and_stopped_between :
    ∃ s, Run.exec (CheckOp.exec unguarded) (fun _ _ => True) oneRunning rawTimers = some s ∧
      ∃ x, Run.exec (exec (timerStep 0) (tickUnder (sparing 0)))
          (fun x m => m.isCode = true → ¬ Collides 0 x) (startAmidTick [.start 0, .stop 0])
          (.start, s) = some x ∧ x.1 = .done ∧ FlagTells x.2.timers 0 := by
  obtain ⟨s, hs, hreach, hp⟩ := Run.reach_of_exec (CheckOp.exec unguarded) (fun _ _ => True)
    oneRunning rawTimers
    (fun s => decide (s.timers.timerList.next (.item 0) ≠ none) &&
      (Run.exec (exec (timerStep 0) (tickUnder (sparing 0)))
        (fun x m => m.isCode = true → ¬ Collides 0 x) (startAmidTick [.start 0, .stop 0])
        (.start, s)).any fun x : TimerPoint × LoggedTimers (Fin 2) Unit =>
        decide (x.1 = .done)) (by decide +kernel)
  simp only [Bool.and_eq_true, decide_eq_true_eq, Option.any_eq_true] at hp
  obtain ⟨hinit, x, hx, hdone⟩ := hp
  exact ⟨s, hs, x, hx, hdone, timer_amid_ticks (s := s) ⟨0, _, hreach⟩ hinit (.inl rfl)
    (Run.exec_reach hx) hdone⟩

/-- The callback starts timer 0: it is linked a second time and ends up as its own
successor. -/
theorem started_between :
    ¬ ∀ s : LoggedTimers (Fin 2) Unit, GuardedReachable unguarded 0 s →
      ∀ t, s.timers.timerList.next (.item t) ≠ none → ∀ p, p = .start ∨ p = .stop → ∀ x,
        Run.Reach (exec (timerStep t) (tickUnder unguarded)) (fun _ _ => True) (p, s) x →
          x.1 = .done → FlagTells x.2.timers t := by
  intro hclaim
  obtain ⟨s, -, hreach, hp⟩ := Run.reach_of_exec (CheckOp.exec unguarded) (fun _ _ => True)
    oneRunning rawTimers
    (fun s => decide (s.timers.timerList.next (.item 0) ≠ none) &&
      (Run.exec (exec (timerStep 0) (tickUnder unguarded)) (fun _ _ => True)
        (startAmidTick [.start 0]) (.start, s)).any
          fun x : TimerPoint × LoggedTimers (Fin 2) Unit => decide (x.1 = .done) &&
          decide (x.2.timers.timerList.prev timerHead = some (.item 0)) &&
          decide (x.2.timers.timerList.next (.item 0) = some (.item 0))) (by decide +kernel)
  simp only [Bool.and_eq_true, decide_eq_true_eq, Option.any_eq_true] at hp
  obtain ⟨hinit, x, hx, ⟨hdone, hlast⟩, hself⟩ := hp
  obtain ⟨ts, hring, -⟩ :=
    hclaim s ⟨0, _, hreach⟩ 0 hinit .start (.inl rfl) x (Run.exec_reach hx) hdone
  obtain ⟨q, -, hnext, hq⟩ := hring.exists_prev (n := timerHead) (List.mem_cons_self ..)
  obtain rfl := Option.some.inj (hlast.symm.trans hq)
  rw [hself] at hnext
  cases hnext

end AmidTick

end SampleRtos
