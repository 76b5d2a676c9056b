import SampleRtos.Timer.History

/-!
# Runs under a condition on the state

Runs of the timers again, with any timer's callback calling about any timer, its own
included, and with a condition on the state each call is made in and on the state a
callback returns in. Besides `rt_tick_increase` a run may contain `rt_timer_check`
alone. The history records the calls and the firings; the restart of a periodic
timer by `rt_timer_check` is not a call.
-/

namespace SampleRtos

open Intrusive

section Guarded
variable {ι γ L : Type}

/-! ## Conditions -/

/-- The timers with the members of `rt_timer_list[0]` in list order. -/
abbrev TimerView (ι γ : Type) := TimerSys ι γ (List ι)

/-- What a run asks of every call, the restarts of `rt_timer_check` included, and of
the state in which the callback of a timer returns. -/
structure TimerGuard (ι γ : Type) where
  call : TimerView ι γ → TimerCall ι γ → Bool
  returned : TimerView ι γ → ι → Bool

variable [DecidableEq ι]

def TimerSys.view [Fintype ι] (k : TimerSys ι γ (TimerLinks ι)) : TimerView ι γ :=
  k.withList (k.timerList.read (Fintype.card ι) timerHead)

/-! ## Runs -/

inductive CheckOp (ι γ : Type) where
  | call (c : TimerCall ι γ)
  | check (script : List (List (TimerCall ι γ)))
  | tick (script : List (List (TimerCall ι γ)))

/-- A call that meets the condition, with its note. -/
def runGuardedCall [Fintype ι] (g : TimerGuard ι γ) (s : Sys ι γ (TimerLinks ι) (TimerLog ι))
    (c : TimerCall ι γ) : Option (Sys ι γ (TimerLinks ι) (TimerLog ι)) := do
  if c.Allowed s.timers ∧ g.call s.timers.view c then
    let k ← c.exec s.timers
    return { timers := k, env := c.note s.timers s.env }
  else none

/-- What is asked when the callback of `t` returns: if `rt_timer_check` is going to
restart `t`, that start has to meet the condition too. -/
def TimerGuard.returns (g : TimerGuard ι γ) (v : TimerView ι γ) (t : ι) : Prop :=
  g.returned v t ∧
    ((v.timer t).periodic ∧ (v.timer t).activated → g.call v (.start t))

instance (g : TimerGuard ι γ) (v : TimerView ι γ) (t : ι) : Decidable (g.returns v t) :=
  inferInstanceAs (Decidable (_ ∧ (_ → _)))

/-- The callback of `t` making the calls `calls`, each by `run`. -/
def guardedCallback (g : TimerGuard ι γ) (view : TimerSys ι γ L → TimerView ι γ)
    (run : Sys ι γ L (TimerLog ι) → TimerCall ι γ → Option (Sys ι γ L (TimerLog ι)))
    (t : ι) (_ : γ) (calls : List (TimerCall ι γ)) (s : Sys ι γ L (TimerLog ι)) :
    Option (Sys ι γ L (TimerLog ι)) := do
  let s ← calls.foldlM run { s with env := .fire t :: s.env }
  if g.returns (view s.timers) t then some s else none

def CheckOp.exec [Fintype ι] (g : TimerGuard ι γ) (s : Sys ι γ (TimerLinks ι) (TimerLog ι)) :
    CheckOp ι γ → Option (Sys ι γ (TimerLinks ι) (TimerLog ι))
  | .call c => runGuardedCall g s c
  | .check script => rtTimerCheck (guardedCallback g TimerSys.view (runGuardedCall g)) script s
  | .tick script => rtTickIncrease (fun s => some { s with env := .tick :: s.env })
      (guardedCallback g TimerSys.view (runGuardedCall g)) script s

def GuardedReachable [Fintype ι] (g : TimerGuard ι γ) (init : Tick)
    (s : Sys ι γ (TimerLinks ι) (TimerLog ι)) : Prop :=
  ∃ random timer, Run.Reach (CheckOp.exec g) (fun _ _ => True) (timersFrom init random timer) s

/-- Two timers nobody has initialised. -/
def rawTimers : Sys (Fin 2) Unit (TimerLinks (Fin 2)) (TimerLog (Fin 2)) :=
  timersFrom 0 0 fun _ => { flag := 0, timeoutFunc := none, initTick := 0, timeoutTick := 0 }

/-! ## The same runs on sequences -/

namespace Abs

def view (a : TimerSys ι γ (TimerRings ι)) : TimerView ι γ := a.withList a.queue

section
omit [DecidableEq ι]

@[simp] theorem view_rtTick (a : TimerSys ι γ (TimerRings ι)) : (view a).rtTick = a.rtTick := rfl
@[simp] theorem view_timer (a : TimerSys ι γ (TimerRings ι)) : (view a).timer = a.timer := rfl
@[simp] theorem view_timerList (a : TimerSys ι γ (TimerRings ι)) :
    (view a).timerList = a.queue := rfl

end

def runGuardedCall (g : TimerGuard ι γ) (b : Sys ι γ (TimerRings ι) (TimerLog ι))
    (c : TimerCall ι γ) : Option (Sys ι γ (TimerRings ι) (TimerLog ι)) := do
  if TimerCallAllowed b.timers c ∧ g.call (view b.timers) c then
    let a ← execTimerCall b.timers c
    return { timers := a, env := c.note b.timers b.env }
  else none

def execCheckOp (g : TimerGuard ι γ) (b : Sys ι γ (TimerRings ι) (TimerLog ι)) :
    CheckOp ι γ → Option (Sys ι γ (TimerRings ι) (TimerLog ι))
  | .call c => runGuardedCall g b c
  | .check script => timerCheck (guardedCallback g view (runGuardedCall g)) script b
  | .tick script => timerCheck (guardedCallback g view (runGuardedCall g)) script
      { timers := { b.timers with rtTick := b.timers.rtTick + 1 }, env := .tick :: b.env }

end Abs

/-! ## What a check preserves -/

variable {b b' : Sys ι γ (TimerRings ι) (TimerLog ι)} {g : TimerGuard ι γ}

/-- What every call that meets the condition preserves. -/
theorem runGuardedCall_keeps {J : Sys ι γ (TimerRings ι) (TimerLog ι) → Prop}
    (hcall : ∀ {b c a}, J b → Abs.TimerCallAllowed b.timers c →
      g.call (Abs.view b.timers) c = true → Abs.execTimerCall b.timers c = some a →
      J { timers := a, env := c.note b.timers b.env })
    {c : TimerCall ι γ} (h : J b) (hrun : Abs.runGuardedCall g b c = some b') : J b' := by
  unfold Abs.runGuardedCall at hrun
  split at hrun
  · rename_i hok
    obtain ⟨a, hexec, hret⟩ := Option.bind_eq_some_iff.mp hrun
    cases hret
    exact hcall h hok.1 hok.2 hexec
  · cases hrun

theorem runGuardedCalls_keeps {J : Sys ι γ (TimerRings ι) (TimerLog ι) → Prop}
    (hcall : ∀ {b c a}, J b → Abs.TimerCallAllowed b.timers c →
      g.call (Abs.view b.timers) c = true → Abs.execTimerCall b.timers c = some a →
      J { timers := a, env := c.note b.timers b.env })
    (calls : List (TimerCall ι γ)) : ∀ {b b' : Sys ι γ (TimerRings ι) (TimerLog ι)}, J b →
      calls.foldlM (Abs.runGuardedCall g) b = some b' → J b' := by
  induction calls with
  | nil => intro b b' h hrun; cases hrun; exact h
  | cons c calls ih =>
    intro b b' h hrun
    rw [List.foldlM_cons] at hrun
    obtain ⟨b₁, hc, hrest⟩ := Option.bind_eq_some_iff.mp hrun
    exact ih (runGuardedCall_keeps hcall h hc) hrest

/-- `J` survives every call that meets the condition and what `rt_timer_check` does
before and after a callback. -/
structure CheckKeeps (g : TimerGuard ι γ) (J : Sys ι γ (TimerRings ι) (TimerLog ι) → Prop) :
    Prop where
  call : ∀ {b c a}, J b → Abs.TimerCallAllowed b.timers c → g.call (Abs.view b.timers) c = true →
    Abs.execTimerCall b.timers c = some a → J { timers := a, env := c.note b.timers b.env }
  unlink : ∀ {b t}, J b → b.timers.queue.head? = some t →
    (b.timers.timer t).due b.timers.rtTick → J { (b.unlinked t) with env := .fire t :: b.env }
  restart : ∀ {b t a}, J b → g.returns (Abs.view b.timers) t → (b.timers.timer t).periodic →
    (b.timers.timer t).activated → Abs.timerStart (b.timers.deactivate t) t = some a →
      J { b with timers := a }
  finish : ∀ {b t}, J b → g.returns (Abs.view b.timers) t →
    ¬ ((b.timers.timer t).periodic ∧ (b.timers.timer t).activated) →
      J { b with timers := b.timers.deactivate t }

namespace CheckKeeps
variable {J : Sys ι γ (TimerRings ι) (TimerLog ι) → Prop}

theorem runCall (hk : CheckKeeps g J) {c : TimerCall ι γ} (h : J b)
    (hrun : Abs.runGuardedCall g b c = some b') : J b' :=
  runGuardedCall_keeps hk.call h hrun

theorem fire (hk : CheckKeeps g J) {t : ι} {calls : List (TimerCall ι γ)} (h : J b)
    (ht : b.timers.queue.head? = some t) (hdue : (b.timers.timer t).due b.timers.rtTick)
    (hrun : Abs.timerFire (guardedCallback g Abs.view (Abs.runGuardedCall g)) calls t b =
      some b') : J b' := by
  obtain ⟨-, f, b₁, -, hcall, hend⟩ := Abs.timerFire_spec hrun
  obtain ⟨b₂, hcalls, hret⟩ := Option.bind_eq_some_iff.mp hcall
  have h₂ : J b₂ := runGuardedCalls_keeps hk.call calls (hk.unlink h ht hdue) hcalls
  split at hret
  · rename_i hreturns
    cases hret
    rcases hend with ⟨hper, hact, hstart, henv⟩ | ⟨hnot, rfl⟩
    · have h₃ := hk.restart h₂ hreturns hper hact hstart
      rw [← henv] at h₃
      exact h₃
    · exact hk.finish h₂ hreturns hnot
  · cases hret

/-- **A whole check** preserves what its parts do, and ends with nothing due first. -/
theorem check (hk : CheckKeeps g J) {script : List (List (TimerCall ι γ))} (h : J b)
    (hrun : Abs.timerCheck (guardedCallback g Abs.view (Abs.runGuardedCall g)) script b =
      some b') : J b' ∧ Quiet b' :=
  Abs.timerCheck_invariant J script
    (fun _ _ _ _ _ h ht hdue hf => hk.fire h ht hdue hf) h hrun

end CheckKeeps

/-! ## Lockstep -/

variable [Fintype ι] {s : Sys ι γ (TimerLinks ι) (TimerLog ι)}

theorem view_rel {k : TimerSys ι γ (TimerLinks ι)} {a : TimerSys ι γ (TimerRings ι)}
    (h : TimerRel k a) : k.view = Abs.view a := by
  cases h with
  | mk a l h =>
    have hread := h.read_eq .rtTimerList (h.valid.nodup .rtTimerList).length_le_card
    rw [TimerSys.view, TimerSys.withList_timerList, hread]
    rfl

theorem runGuardedCall_rel (g : TimerGuard ι γ) (h : HistoryRel s b) (c : TimerCall ι γ) :
    Option.Rel HistoryRel (runGuardedCall g s c) (Abs.runGuardedCall g b c) := by
  unfold runGuardedCall Abs.runGuardedCall
  refine Lockstep.ite (by rw [timerCallAllowed_iff h, view_rel h.timers]) (fun hok => ?_)
    fun _ => .none
  exact Lockstep.bind (execTimerCall_rel h.timers hok.1)
    fun _ _ _ _ h' => .some ⟨h', note_rel h c⟩

theorem guardedCallback_rel (g : TimerGuard ι γ) (t : ι) (f : γ) (calls : List (TimerCall ι γ))
    (h : HistoryRel s b) :
    Option.Rel HistoryRel (guardedCallback g TimerSys.view (runGuardedCall g) t f calls s)
      (guardedCallback g Abs.view (Abs.runGuardedCall g) t f calls b) := by
  have h₀ : HistoryRel { s with env := .fire t :: s.env } { b with env := .fire t :: b.env } :=
    ⟨h.timers, by rw [h.env]⟩
  refine Lockstep.bind (Lockstep.foldlM (fun _ => True)
    (fun _ _ c _ h => runGuardedCall_rel g h c) (fun _ _ _ _ _ => trivial) calls trivial h₀)
    fun _ _ _ _ h₁ => ?_
  rw [view_rel h₁.timers]
  exact Lockstep.ite Iff.rfl (fun _ => .some h₁) fun _ => .none

theorem execCheckOp_rel (g : TimerGuard ι γ) (h : HistoryRel s b) (op : CheckOp ι γ) :
    Option.Rel HistoryRel (op.exec g s) (Abs.execCheckOp g b op) := by
  have hcheck : ∀ {s b} (script), HistoryRel s b → Option.Rel HistoryRel
      (rtTimerCheck (guardedCallback g TimerSys.view (runGuardedCall g)) script s)
      (Abs.timerCheck (guardedCallback g Abs.view (Abs.runGuardedCall g)) script b) :=
    fun script h => rtTimerCheck_rel (fun _ => True)
      (fun _ t f c _ _ _ _ _ h₁ => guardedCallback_rel g t f c h₁) (fun _ _ _ _ _ _ _ => trivial)
      script _ _ trivial h
  cases op with
  | call c => exact runGuardedCall_rel g h c
  | check script => exact hcheck script h
  | tick script =>
    refine hcheck script ?_
    rw [h.timers.rtTick, h.env]
    exact ⟨h.timers.setTick _, rfl⟩

/-- What holds of untouched timers and is kept by every operation holds throughout. -/
theorem GuardedReachable.invariant {init : Tick} {I : Sys ι γ (TimerRings ι) (TimerLog ι) → Prop}
    (hinit : ∀ random timer, I (Abs.timersFrom init random timer))
    (hstep : ∀ b op b', I b → Abs.execCheckOp g b op = some b' → I b')
    (hs : GuardedReachable g init s) : ∃ b, HistoryRel s b ∧ I b := by
  obtain ⟨random, timer, hrun⟩ := hs
  refine Run.invariant (I := fun s => ∃ b, HistoryRel s b ∧ I b) (fun s op s' hI _ hs => ?_)
    ⟨_, timersFrom_rel init random timer, hinit random timer⟩ hrun
  obtain ⟨b, h, hI⟩ := hI
  obtain ⟨b', hb', h'⟩ := Lockstep.exists_of_left (execCheckOp_rel g h op) hs
  exact ⟨b', h', hstep b op b' hI hb'⟩

end Guarded

end SampleRtos
