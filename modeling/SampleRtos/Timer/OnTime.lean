import SampleRtos.Timer.Timely

/-!
# Timers fire on time

Two things are shown of every run of the timers whose starts are made for at
least one tick and less than half the tick range and whose callbacks leave the
timer that is firing alone. The history is on time. And a tick comes to its end:
whatever timers the callbacks start and stop, none that they start is due in the
same tick, so `rt_timer_check` goes round at most once for each timer.
-/

namespace SampleRtos

open Intrusive HalfRange StableOrder

section OnTime
variable {ι γ : Type} [DecidableEq ι]

/-! ## What a tick needs to come to its end -/

/-- A timer with a callback that may be started. -/
structure RtTimer.Usable (r : RtTimer γ) : Prop where
  timeoutFunc : r.timeoutFunc ≠ none
  pos : 1 ≤ r.initTick
  lt : r.initTick < RT_TICK_MAX / 2

instance (r : RtTimer γ) : Decidable r.Usable :=
  decidable_of_iff (r.timeoutFunc.isSome ∧ 1 ≤ r.initTick ∧ r.initTick < RT_TICK_MAX / 2)
    ⟨fun h => ⟨Option.isSome_iff_ne_none.mp h.1, h.2.1, h.2.2⟩,
      fun h => ⟨Option.isSome_iff_ne_none.mpr h.1, h.2, h.3⟩⟩

/-- Every timer has been initialised and may be started. -/
def TimersUsable (k : TimerSys ι γ (TimerLinks ι)) : Prop :=
  ∀ t, k.timerList.next (.item t) ≠ none ∧ (k.timer t).Usable

/-- A start, a stop or a detach. -/
def TimerCall.Relinks : TimerCall ι γ → Prop
  | .start _ | .stop _ | .detach _ => True
  | _ => False

/-- Callbacks that start, stop and detach other timers: `plan` says which, for each
timer and in the light of the history. -/
def Considerate (plan : ι → TimerLog ι → List (TimerCall ι γ)) : Prop :=
  ∀ t log, ∀ c ∈ plan t log, c.timer ≠ t ∧ c.Relinks

/-- `rt_tick_increase` with callbacks that follow `plan`, firing no more than each
timer once. -/
def plannedTick [Fintype ι] (rule : TimerRule ι γ) (plan : ι → TimerLog ι → List (TimerCall ι γ))
    (s : Sys ι γ (TimerLinks ι) (TimerLog ι)) : Option (Sys ι γ (TimerLinks ι) (TimerLog ι)) :=
  rtTickIncrease (fun s => some { s with env := .tick :: s.env })
    (fun t f (_ : Unit) s => timerCallback rule (runTimerCall rule) t f (plan t s.env) s)
    (List.replicate (Fintype.card ι) ()) s

/-! ## One firing returns -/

namespace Abs

/-- `TimersUsable` on sequences. -/
structure Usable (a : TimerSys ι γ (TimerRings ι)) : Prop where
  head : a.timerList.live timerHead = true
  live : ∀ t, a.timerList.live (.item t) = true
  timer : ∀ t, (a.timer t).Usable

variable {a a' : TimerSys ι γ (TimerRings ι)} {t : ι}

section
omit [DecidableEq ι]

theorem Usable.of_eq (h : Usable a) (hlive : a'.timerList.live = a.timerList.live)
    (hfunc : ∀ u, (a'.timer u).timeoutFunc = (a.timer u).timeoutFunc)
    (hinit : ∀ u, (a'.timer u).initTick = (a.timer u).initTick) : Usable a' where
  head := hlive ▸ h.head
  live u := hlive ▸ h.live u
  timer u :=
    ⟨hfunc u ▸ (h.timer u).timeoutFunc, hinit u ▸ (h.timer u).pos, hinit u ▸ (h.timer u).lt⟩

end

theorem Usable.setTimer (h : Usable a) {r : RtTimer γ}
    (hfunc : r.timeoutFunc = (a.timer t).timeoutFunc) (hinit : r.initTick = (a.timer t).initTick) :
    Usable (a.setTimer t r) := by
  refine h.of_eq rfl (fun u => ?_) fun u => ?_
  · by_cases hu : u = t
    · subst hu; simp [hfunc]
    · simp [hu]
  · by_cases hu : u = t
    · subst hu; simp [hinit]
    · simp [hu]

theorem Usable.deactivate (h : Usable a) (t : ι) : Usable (a.deactivate t) :=
  h.setTimer rfl rfl

theorem Usable.remove (h : Usable a) (t : ι) :
    timerRemove a t = some { a with timerList := a.timerList.erase t } ∧
      Usable { a with timerList := a.timerList.erase t } :=
  ⟨timerRemove_of_live (h.live t), h.of_eq rfl (fun _ => rfl) fun _ => rfl⟩

theorem Usable.start (h : Usable a) (t : ι) : ∃ a', timerStart a t = some a' ∧ Usable a' := by
  obtain ⟨a', ha'⟩ := timerStart_of_live (h.live t) h.head
  obtain ⟨-, -, xs, ys, -, rfl, -, -⟩ := timerStart_spec ha'
  refine ⟨_, ha', h.of_eq rfl (fun u => ?_) fun u => ?_⟩
  · by_cases hu : u = t
    · subst hu; simp [RtTimer.started]
    · simp [hu]
  · by_cases hu : u = t
    · subst hu; simp [RtTimer.started]
    · simp [hu]

theorem Usable.stop (h : Usable a) (t : ι) :
    ∃ e a', timerStop a t = some (e, a') ∧ Usable a' := by
  unfold timerStop
  split
  · exact ⟨_, a, rfl, h⟩
  · obtain ⟨hrem, h₁⟩ := h.remove t
    rw [hrem]
    exact ⟨_, _, rfl, h₁.deactivate t⟩

end Abs

variable {init : Tick} {b b' : Sys ι γ (TimerRings ι) (TimerLog ι)} {t : ι}
  {plan : ι → TimerLog ι → List (TimerCall ι γ)}

/-- A callback may start, stop and detach other timers. -/
theorem Abs.Usable.call (h : Abs.Usable b.timers) {c : TimerCall ι γ} (hne : c.timer ≠ t)
    (hc : c.Relinks) : ∃ b', Abs.runTimerCall punctual (some t) b c = some b' ∧
      Abs.Usable b'.timers := by
  have hexec : ∃ m, Abs.execTimerCall b.timers c = some m ∧ Abs.Usable m := by
    cases c with
    | start u => exact h.start u
    | stop u =>
      obtain ⟨e, m, hstop, hm⟩ := h.stop u
      exact ⟨m, by simp [Abs.execTimerCall, hstop], hm⟩
    | detach u => exact ⟨_, (h.remove u).1, (h.remove u).2⟩
    | _ => exact hc.elim
  have hok : Abs.TimerCallAllowed b.timers c ∧ punctual.permits b.timers (some t) c = true := by
    cases c with
    | start u =>
      have hu := h.timer u
      simp only [TimerCall.timer] at hne
      have hrange := And.intro hu.pos hu.lt
      simpa [Abs.TimerCallAllowed, TimerRule.permits, punctual, TimerCall.timer, hne] using hrange
    | stop u => simpa [Abs.TimerCallAllowed, TimerRule.permits, punctual] using hne
    | detach u => simpa [Abs.TimerCallAllowed, TimerRule.permits, punctual] using hne
    | _ => exact hc.elim
  obtain ⟨m, hm, hmu⟩ := hexec
  refine ⟨{ timers := m, env := c.note b.timers b.env }, ?_, hmu⟩
  rw [Abs.runTimerCall, if_pos hok, hm]
  rfl

theorem Abs.Usable.calls (calls : List (TimerCall ι γ))
    (hcalls : ∀ c ∈ calls, c.timer ≠ t ∧ c.Relinks) :
    ∀ {b : Sys ι γ (TimerRings ι) (TimerLog ι)}, Abs.Usable b.timers →
      ∃ b', calls.foldlM (Abs.runTimerCall punctual (some t)) b = some b' ∧
        Abs.Usable b'.timers := by
  induction calls with
  | nil => exact fun {b} h => ⟨b, rfl, h⟩
  | cons c calls ih =>
    intro b h
    obtain ⟨hne, hc⟩ := hcalls c (List.mem_cons_self ..)
    obtain ⟨b₁, hb₁, h₁⟩ := h.call hne hc
    obtain ⟨b', hb', h'⟩ := ih (fun c hc => hcalls c (List.mem_cons_of_mem _ hc)) h₁
    exact ⟨b', by rw [List.foldlM_cons, hb₁]; exact hb', h'⟩

/-- A callback that leaves its timer alone returns, and so does the rest of the iteration. -/
theorem Abs.Usable.fire (h : Abs.Usable b.timers) {calls : List (TimerCall ι γ)}
    (hcalls : ∀ c ∈ calls, c.timer ≠ t ∧ c.Relinks) :
    ∃ b', Abs.timerFire (timerCallback punctual (Abs.runTimerCall punctual)) calls t b = some b' ∧
      Abs.Usable b'.timers := by
  obtain ⟨-, h₁⟩ := h.remove t
  obtain ⟨f, hf⟩ := Option.ne_none_iff_exists'.mp (h.timer t).timeoutFunc
  obtain ⟨b₂, hb₂, h₂⟩ := Abs.Usable.calls (t := t) calls hcalls
    (b := { (b.unlinked t) with env := .fire t :: b.env }) h₁
  have hrange := And.intro (h₂.timer t).pos (h₂.timer t).lt
  obtain ⟨m, hm, hmu⟩ := (h₂.deactivate t).start t
  obtain ⟨b₃, hnote, htimers⟩ : ∃ b₃, noteRestart punctual t b₂ = some b₃ ∧
      b₃.timers = b₂.timers := by
    unfold noteRestart
    split
    · exact ⟨_, if_pos (decide_eq_true hrange), rfl⟩
    · exact ⟨b₂, rfl, rfl⟩
  have hcall : timerCallback punctual (Abs.runTimerCall punctual) t f calls (b.unlinked t) =
      some b₃ := by
    rw [timerCallback]
    exact Option.bind_eq_some_iff.mpr ⟨b₂, hb₂, hnote⟩
  rw [Abs.timerFire_eq (h.live t) hf hcall, htimers]
  split
  · exact ⟨{ b₃ with timers := m }, by rw [hm]; rfl, hmu⟩
  · exact ⟨{ b₃ with timers := b₂.timers.deactivate t }, rfl, h₂.deactivate t⟩

/-! ## A tick returns -/

/-- The timers due at this tick. -/
def dueNow [Fintype ι] (b : Sys ι γ (TimerRings ι) (TimerLog ι)) : Finset ι :=
  Finset.univ.filter fun t => t ∈ b.timers.queue ∧ remaining b.timers t = 0

theorem mem_dueNow [Fintype ι] {t : ι} :
    t ∈ dueNow b ↔ t ∈ b.timers.queue ∧ remaining b.timers t = 0 := by
  simp [dueNow]

theorem Steady.dueNow_subset [Fintype ι] (h : Steady init b b') : dueNow b' ⊆ dueNow b := by
  intro t ht
  obtain ⟨hq, hz⟩ := mem_dueNow.mp ht
  obtain ⟨hq', hz', -⟩ := h.due t hq hz
  exact mem_dueNow.mpr ⟨hq', hz'⟩

/-- Every firing leaves fewer timers due. -/
theorem Timely.dueNow_card_lt [Fintype ι] (h : Timely init b)
    (ht : b.timers.queue.head? = some t) (hdue : (b.timers.timer t).due b.timers.rtTick)
    (hsteady : Steady init { (b.unlinked t) with env := .fire t :: b.env } b') :
    (dueNow b').card < (dueNow b).card := by
  have hmem : t ∈ b.timers.queue := List.mem_of_mem_head? ht
  have hnow : t ∈ dueNow b := mem_dueNow.mpr ⟨hmem, (due_iff (h.soon t hmem)).mp hdue⟩
  have hsub : dueNow b' ⊆ (dueNow b).erase t := by
    intro u hu
    obtain ⟨hq, hz⟩ := mem_dueNow.mp (hsteady.dueNow_subset hu)
    obtain ⟨hq', hut⟩ := (TimerSys.mem_others h.valid).mp hq
    exact Finset.mem_erase.mpr ⟨hut, mem_dueNow.mpr ⟨hq', hz⟩⟩
  have hle := Finset.card_le_card hsub
  rw [Finset.card_erase_of_mem hnow] at hle
  have hpos := Finset.card_pos.mpr ⟨t, hnow⟩
  omega

/-- As many rounds as there are timers due are enough for `rt_timer_check`. -/
theorem Timely.check_returns [Fintype ι] (hplan : Considerate plan) {n : Nat} (h : Timely init b)
    (hf : Firing init b) (husable : Abs.Usable b.timers) (hcard : (dueNow b).card ≤ n) :
    ∃ b', Abs.timerCheck (fun t f (_ : Unit) b =>
      timerCallback punctual (Abs.runTimerCall punctual) t f (plan t b.env) b)
      (List.replicate n ()) b = some b' := by
  obtain ⟨b', hb', -⟩ := Abs.timerCheck_returns
    (I := fun b => Timely init b ∧ Firing init b ∧ Abs.Usable b.timers)
    (m := fun b => (dueNow b).card) (fun b hI => hI.2.2.head)
    (fun b t hI ht hdue => by
      obtain ⟨h, hf, husable⟩ := hI
      obtain ⟨b₁, hfire, husable₁⟩ := husable.fire (hplan t b.env)
      obtain ⟨h₁, hsteady⟩ := h.fire hf ht hdue hfire
      have hfire' : Abs.timerFire (fun t f (_ : Unit) b =>
          timerCallback punctual (Abs.runTimerCall punctual) t f (plan t b.env) b) () t b
          = some b₁ := hfire
      exact ⟨b₁, hfire', ⟨h₁, hsteady.firing (h.unlink hf ht hdue).2, husable₁⟩,
        h.dueNow_card_lt ht hdue hsteady⟩) n ⟨h, hf, husable⟩ hcard
  exact ⟨b', hb'⟩

variable {s : Sys ι γ (TimerLinks ι) (TimerLog ι)}

theorem usable_of_rel (h : HistoryRel s b) (hhead : b.timers.timerList.live timerHead = true)
    (husable : TimersUsable s.timers) : Abs.Usable b.timers where
  head := hhead
  live t := by
    by_contra hdead
    exact (husable t).1 (h.timers.rep.null _ (by simpa using hdead)).1
  timer t := h.timers.timer ▸ (husable t).2

theorem plannedTick_returns [Fintype ι] (h : HistoryRel s b) (hb : Timely init b)
    (hrest : Resting b) (husable : TimersUsable s.timers) (hplan : Considerate plan) :
    ∃ s', plannedTick punctual plan s = some s' := by
  obtain ⟨h₁, hf₁⟩ := hb.tickBegin hrest
  have husable₁ : Abs.Usable { b.timers with rtTick := b.timers.rtTick + 1 } :=
    (usable_of_rel h hb.head husable).of_eq rfl (fun _ => rfl) fun _ => rfl
  obtain ⟨b', hb'⟩ := h₁.check_returns hplan (n := Fintype.card ι) hf₁ husable₁
    (Finset.card_le_univ _)
  have hcheck : Option.Rel HistoryRel
      (rtTimerCheck (fun t f (_ : Unit) s =>
        timerCallback punctual (runTimerCall punctual) t f (plan t s.env) s)
        (List.replicate (Fintype.card ι) ()) _)
      (Abs.timerCheck (fun t f (_ : Unit) b =>
        timerCallback punctual (Abs.runTimerCall punctual) t f (plan t b.env) b)
        (List.replicate (Fintype.card ι) ()) _) :=
    rtTimerCheck_rel (fun _ => True)
      (fun _ t f _ _ _ _ _ _ h => by rw [h.env]; exact timerCallback_rel punctual t f _ h)
      (fun _ _ _ _ _ _ _ => trivial) (List.replicate (Fintype.card ι) ()) _ _ trivial h.tickStart
  obtain ⟨s', hs', -⟩ := Lockstep.exists_of_right hcheck hb'
  exact ⟨s', hs'⟩

/-! ## The theorem -/

/-- **Timers fire on time, once and in order.** Whatever `rt_tick` starts from, every
event of every run finds in the history before it what `OnTime` asks for; and when every
timer is usable the next tick comes to its end, whatever other timers its callbacks start,
stop and detach. -/
theorem timers_on_time [Fintype ι] (hs : TimerReachable punctual init s) :
    (∀ e log, e :: log <:+ s.env → OnTime init log e) ∧
      (TimersUsable s.timers → ∀ plan, Considerate plan →
        ∃ s', plannedTick punctual plan s = some s') := by
  obtain ⟨b, h, hb, hrest⟩ := hs.invariant (I := fun b => Timely init b ∧ Resting b)
    (fun random timer => ⟨.untouched random timer, fun t ht => by
      simp [Abs.timersFrom, TimerSys.queue] at ht⟩)
    fun b op b' _ hI hrun => hI.1.exec hI.2 hrun
  refine ⟨?_, fun husable plan hplan => plannedTick_returns h hb hrest husable hplan⟩
  rw [h.env]
  exact hb.onTime

/-- A periodic timer and a one-shot timer that fall due together once `rt_tick` has wrapped. -/
def twoTimers : List (TimerOp (Fin 2) Unit) :=
  [.call (.init 0 (some ()) 2 RT_TIMER_FLAG_PERIODIC),
    .call (.init 1 (some ()) 4 RT_TIMER_FLAG_ONE_SHOT),
    .call (.start 1), .call (.start 0), .tick [], .tick [[]], .tick [], .tick [[], []]]

/-- The timers before `twoTimers`, two ticks before the last. -/
def beforeTheWrap : Sys (Fin 2) Unit (TimerLinks (Fin 2)) (TimerLog (Fin 2)) :=
  timersFrom 0xfffffffd 0 fun _ =>
    { flag := 0, timeoutFunc := none, initTick := 0, timeoutTick := 0 }

theorem fires_across_the_wrap :
    ∃ s, Run.exec (TimerOp.exec punctual) (fun _ _ => True) twoTimers beforeTheWrap = some s ∧
      s.env.take 4 = [.tickEnd, .start 0 2, .fire 0, .fire 1] ∧
      (∀ e log, e :: log <:+ s.env → OnTime 0xfffffffd log e) ∧
      ∃ s', plannedTick punctual (fun _ _ => []) s = some s' := by
  obtain ⟨s, hs, hreach, hp⟩ := Run.reach_of_exec (TimerOp.exec punctual) (fun _ _ => True)
    twoTimers beforeTheWrap
    (fun s => decide (s.env.take 4 = [.tickEnd, .start 0 2, .fire 0, .fire 1]) &&
      decide (∀ t, s.timers.timerList.next (.item t) ≠ none ∧ (s.timers.timer t).Usable))
    (by decide +kernel)
  simp only [Bool.and_eq_true, decide_eq_true_eq] at hp
  obtain ⟨htime, htick⟩ := timers_on_time (s := s) ⟨0, _, hreach⟩
  exact ⟨s, hs, hp.1, htime, htick hp.2 _ fun _ _ _ hc => absurd hc (List.not_mem_nil)⟩

end OnTime

end SampleRtos
