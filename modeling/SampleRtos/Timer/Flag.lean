import SampleRtos.Timer.Timely

/-!
# The activation flag

`RT_TIMER_FLAG_ACTIVATED` and the timer list are written apart from each other, by
every operation of timer.c in its own way. Each leaves them in step but
`rt_timer_detach`, which takes a running timer off the list and leaves it flagged.
-/

namespace SampleRtos

open Intrusive

section Flag
variable {ι γ E L : Type} [DecidableEq ι]

/-! ## Runs -/

/-- `rt_timer_check` and the tick come with the number of timers they fire at most. -/
inductive FlagOp (ι γ : Type) where
  | call (c : TimerCall ι γ)
  | check (fires : Nat)
  | tick (fires : Nat)

/-- A callback that calls no timer function. -/
def ownCallback (act : ι → γ → E → E) (t : ι) (f : γ) (_ : Unit) (s : Sys ι γ L E) :
    Option (Sys ι γ L E) :=
  some { s with env := act t f s.env }

def FlagOp.exec [Fintype ι] (act : ι → γ → E → E) (s : Sys ι γ (TimerLinks ι) E) :
    FlagOp ι γ → Option (Sys ι γ (TimerLinks ι) E)
  | .call c => do return { s with timers := ← c.exec s.timers }
  | .check fires => rtTimerCheck (ownCallback act) (List.replicate fires ()) s
  | .tick fires => rtTickIncrease some (ownCallback act) (List.replicate fires ()) s

def FlagOp.Allowed (s : Sys ι γ (TimerLinks ι) E) : FlagOp ι γ → Prop
  | .call c => c.Allowed s.timers
  | _ => True

instance (s : Sys ι γ (TimerLinks ι) E) (op : FlagOp ι γ) : Decidable (op.Allowed s) := by
  rcases op <;> dsimp only [FlagOp.Allowed] <;> infer_instance

/-- The call takes a timer off the list that is flagged as running. -/
def DetachesRunning (s : Sys ι γ L E) : FlagOp ι γ → Prop
  | .call (.detach t) => (s.timers.timer t).activated
  | _ => False

instance (s : Sys ι γ L E) (op : FlagOp ι γ) : Decidable (DetachesRunning s op) := by
  rcases op with c | _ | _
  · rcases c <;> dsimp only [DetachesRunning] <;> infer_instance
  all_goals dsimp only [DetachesRunning]; infer_instance

/-- Timers nobody has touched, after `rt_system_timer_init`. -/
def untouched (timers : TimerSys ι γ Unit) (e : E) : Sys ι γ (TimerLinks ι) E where
  timers := rtSystemTimerInit
    { rtTick := timers.rtTick
      randomNr := timers.randomNr
      timer := timers.timer
      timerList := { next := fun _ => none, prev := fun _ => none } }
  env := e

/-- Reached by operations that meet `ok`. -/
def FlagReachable [Fintype ι] (act : ι → γ → E → E)
    (ok : Sys ι γ (TimerLinks ι) E → FlagOp ι γ → Prop) (s : Sys ι γ (TimerLinks ι) E) : Prop :=
  ∃ timers e, Run.Reach (FlagOp.exec act) (fun s op => op.Allowed s ∧ ok s op)
    (untouched timers e) s

/-- The timer list is a ring of timers each linked once, and of the timers that have
been initialised those are on it that are flagged; the others are linked to nothing. -/
def FlagTruthful (k : TimerSys ι γ (TimerLinks ι)) : Prop :=
  ∃ ts, Ring k.timerList .rtTimerList ts ∧ ts.Nodup ∧
    ∀ t, k.timerList.next (.item t) ≠ none →
      ((k.timer t).activated ↔ t ∈ ts) ∧ (t ∉ ts → k.timerList.Linked (.item t) (.item t))

/-! ## On sequences -/

/-- Flag and list are in step for all initialised timers but those in `off`. -/
structure InStep (off : ι → Prop) (a : TimerSys ι γ (TimerRings ι)) : Prop where
  valid : a.timerList.Valid
  head : a.timerList.live timerHead = true
  flag : ∀ t, ¬ off t → a.timerList.live (.item t) = true →
    ((a.timer t).activated ↔ t ∈ a.queue)

variable {a a' : TimerSys ι γ (TimerRings ι)} {t : ι}

namespace InStep

section
omit [DecidableEq ι]

theorem except (h : InStep (fun _ => False) a) (t : ι) : InStep (· = t) a :=
  ⟨h.valid, h.head, fun u _ => h.flag u id⟩

end

/-- Taking the timer off the list. -/
theorem erase (h : InStep (· = t) a) :
    InStep (· = t) { a with timerList := a.timerList.erase t } where
  valid := h.valid.erase t
  head := h.head
  flag u hu hlive := by
    rw [h.flag u hu hlive]
    exact (and_iff_left hu).symm.trans (TimerSys.mem_others h.valid).symm

/-- Writing the record of a timer that is off. -/
theorem setTimer (h : InStep (· = t) a) (r : RtTimer γ) : InStep (· = t) (a.setTimer t r) where
  valid := h.valid
  head := h.head
  flag u hu hlive := by
    rw [TimerSys.setTimer_timer, Function.update_of_ne hu]
    exact h.flag u hu hlive

/-- Once unlinked, a timer without its flag is in step again. -/
theorem settle (h : InStep (· = t) a) (hflag : ¬ (a.timer t).activated) (ht : t ∉ a.queue) :
    InStep (fun _ => False) a where
  valid := h.valid
  head := h.head
  flag u _ hlive := by
    by_cases hut : u = t
    · subst hut
      exact iff_of_false hflag ht
    · exact h.flag u hut hlive

/-- A start flags what it links. -/
theorem start (h : InStep (· = t) a) (hstart : Abs.timerStart a t = some a') :
    InStep (fun _ => False) a' := by
  obtain ⟨xs, ys, hm⟩ := Abs.timerStart_started h.valid hstart
  refine ⟨hm.valid_after, hm.live ▸ hm.head, fun u _ hu => ?_⟩
  rw [hm.live] at hu
  rw [hm.mem_queue]
  by_cases hut : u = t
  · subst hut
    simp [hm.self]
  · simpa [hm.other u hut, hut] using h.flag u hut hu

/-- A call that does not take a running timer off the list. -/
theorem call (h : InStep (fun _ => False) a) {c : TimerCall ι γ} (hc : Abs.TimerCallAllowed a c)
    (hrun : ∀ t, c = .detach t → ¬ (a.timer t).activated)
    (hexec : Abs.execTimerCall a c = some a') : InStep (fun _ => False) a' := by
  unfold Abs.execTimerCall at hexec
  cases c with
  | init t timeout time flag =>
    cases hexec
    refine ⟨h.valid.mark _, by simp [Abs.timerInit, Rings.mark, h.head], fun u _ hlive => ?_⟩
    by_cases hut : u = t
    · subst hut
      refine iff_of_false ?_ hc
      simpa [Abs.timerInit, RtTimer.activated] using (flag_bits flag).2.2.1
    · have hold : a.timerList.live (.item u) = true := by
        simpa [Abs.timerInit, Rings.mark, hut] using hlive
      simpa [Abs.timerInit, TimerSys.queue, hut] using h.flag u id hold
  | start t => exact (h.except t).start hexec
  | stop t =>
    obtain ⟨e, hstop⟩ := returned_of_map hexec
    rcases Abs.timerStop_spec hstop with ⟨-, rfl⟩ | ⟨-, -, rfl⟩
    · exact h
    · exact ((h.except t).erase.setTimer _).settle (by simp)
        (h.valid.erase_free t .rtTimerList)
  | control t cmd =>
    cases hexec
    refine ⟨h.valid, h.head, fun u _ hlive => ?_⟩
    refine Iff.trans ?_ (h.flag u id hlive)
    by_cases hut : u = t
    · subst hut
      simpa using (control_flags (a.timer u) cmd).2
    · simp [hut]
  | detach t =>
    obtain ⟨hlive, rfl⟩ := Abs.timerRemove_eq_some hexec
    exact (h.except t).erase.settle (hrun t rfl) (h.valid.erase_free t .rtTimerList)

end InStep

/-! ## Firing -/

variable {act : ι → γ → E → E} {b b' : Sys ι γ (TimerRings ι) E}

/-- One firing of `rt_timer_check` leaves flag and list in step. -/
theorem InStep.fire (h : InStep (fun _ => False) b.timers)
    (hrun : Abs.timerFire (ownCallback act) () t b = some b') :
    InStep (fun _ => False) b'.timers := by
  obtain ⟨-, f, b₁, -, hcall, hend⟩ := Abs.timerFire_spec hrun
  cases hcall
  have h₁ : InStep (· = t) ((b.unlinked t).timers.deactivate t) := (h.except t).erase.setTimer _
  rcases hend with ⟨-, -, hstart, -⟩ | ⟨-, rfl⟩
  · exact h₁.start hstart
  · exact h₁.settle (by simp) (h.valid.erase_free t .rtTimerList)

theorem InStep.check (h : InStep (fun _ => False) b.timers) {fires : Nat}
    (hrun : Abs.timerCheck (ownCallback act) (List.replicate fires ()) b = some b') :
    InStep (fun _ => False) b'.timers :=
  (Abs.timerCheck_invariant (fun b => InStep (fun _ => False) b.timers) _
    (fun _ _ _ _ _ h _ _ hf => h.fire hf) h hrun).1

theorem ownCallback_rel {s : Sys ι γ (TimerLinks ι) E} (h : SysRel Eq s b) (t : ι) (f : γ) :
    Option.Rel (SysRel Eq) (ownCallback act t f () s) (ownCallback act t f () b) :=
  .some ⟨h.timers, congrArg (act t f) h.env⟩

theorem ownCheck_rel [Fintype ι] {s : Sys ι γ (TimerLinks ι) E} (h : SysRel Eq s b)
    (script : List Unit) : Option.Rel (SysRel Eq)
      (rtTimerCheck (ownCallback act) script s) (Abs.timerCheck (ownCallback act) script b) :=
  rtTimerCheck_rel (fun _ => True) (fun _ t f _ _ _ _ _ _ h₁ => ownCallback_rel h₁ t f)
    (fun _ _ _ _ _ _ _ => trivial) script _ _ trivial h

/-- One operation. -/
theorem InStep.exec [Fintype ι] {s s' : Sys ι γ (TimerLinks ι) E} (h : SysRel Eq s b)
    (hb : InStep (fun _ => False) b.timers) {op : FlagOp ι γ} (hok : op.Allowed s)
    (hdetach : ¬ DetachesRunning s op) (hs : op.exec act s = some s') :
    ∃ b', SysRel Eq s' b' ∧ InStep (fun _ => False) b'.timers := by
  cases op with
  | call c =>
    obtain ⟨k, hk, hret⟩ := Option.bind_eq_some_iff.mp hs
    cases hret
    have hallowed := (timerCallAllowed_iff (s := ⟨s.timers, []⟩) (b := ⟨b.timers, []⟩)
      ⟨h.timers, rfl⟩ c).mp hok
    obtain ⟨m, hm, hrel⟩ := Lockstep.exists_of_left (execTimerCall_rel h.timers hallowed) hk
    refine ⟨⟨m, b.env⟩, ⟨hrel, h.env⟩, hb.call hallowed (fun t hc => ?_) hm⟩
    subst hc
    rw [← h.timers.timer]
    exact hdetach
  | check fires =>
    obtain ⟨b', hb', h'⟩ := Lockstep.exists_of_left (ownCheck_rel h _) hs
    exact ⟨b', h', hb.check hb'⟩
  | tick fires =>
    have h₀ : SysRel Eq { s with timers := { s.timers with rtTick := s.timers.rtTick + 1 } }
        { b with timers := { b.timers with rtTick := b.timers.rtTick + 1 } } := by
      rw [h.timers.rtTick]
      exact ⟨h.timers.setTick _, h.env⟩
    have hb₀ : InStep (fun _ => False) { b.timers with rtTick := b.timers.rtTick + 1 } :=
      ⟨hb.valid, hb.head, hb.flag⟩
    obtain ⟨b', hb', h'⟩ := Lockstep.exists_of_left (ownCheck_rel h₀ _) hs
    exact ⟨b', h', InStep.check (b := ⟨_, b.env⟩) hb₀ hb'⟩

/-! ## The theorem -/

/-- **The activation flag tells the truth** after every operation of every run in which
`rt_timer_detach` is called on timers only that are not flagged as running. -/
theorem activation_flag [Fintype ι] {s : Sys ι γ (TimerLinks ι) E}
    (hs : FlagReachable act (fun s op => ¬ DetachesRunning s op) s) : FlagTruthful s.timers := by
  obtain ⟨timers, e, hrun⟩ := hs
  have h₀ : SysRel Eq (untouched timers e)
      ⟨timers.withList (Rings.mark ⟨fun _ => [], fun _ => false⟩ timerHead), e⟩ :=
    ⟨.mk (timers.withList _) _ (null_rep.selfLink (.inl ⟨.rtTimerList, rfl, rfl⟩)), rfl⟩
  obtain ⟨b, h, hb⟩ := Run.invariant
    (I := fun s => ∃ b, SysRel Eq s b ∧ InStep (fun _ => False) b.timers)
    (fun _ _ _ ⟨_, h, hb⟩ hok hs => hb.exec h hok.1 hok.2 hs)
    ⟨_, h₀, (null_rep (H := TimerHead) (α := ι)).valid.mark _, by simp [Rings.mark],
      fun t _ hlive => by simp [Rings.mark] at hlive⟩ hrun
  have hrep := h.timers.rep
  refine ⟨b.timers.queue, hrep.ring _ hb.head, hb.valid.nodup _, fun t ht => ?_⟩
  have hlive : b.timers.timerList.live (.item t) = true := by
    by_contra hdead
    exact ht (hrep.null _ (by simpa using hdead)).1
  rw [h.timers.timer]
  refine ⟨hb.flag t id hlive, fun hnot => hrep.free t hlive fun hd => ?_⟩
  cases hd
  exact hnot

/-- Two timers nobody has initialised. -/
def twoUntouched : Sys (Fin 2) Unit (TimerLinks (Fin 2)) Unit :=
  untouched { rtTick := 0, randomNr := 0, timerList := (), timer := fun _ =>
    { flag := 0, timeoutFunc := none, initTick := 0, timeoutTick := 0 } } ()

/-- A periodic timer fires, is stopped and detached, and a one-shot timer is started
twice. -/
theorem flagged_after_restart :
    ∃ s, Run.exec (FlagOp.exec fun _ _ => id) (fun s op => op.Allowed s ∧ ¬ DetachesRunning s op)
        [.call (.init 0 (some ()) 1 RT_TIMER_FLAG_PERIODIC), .call (.init 1 (some ()) 3 0),
          .call (.start 0), .call (.start 1), .tick 1, .check 0, .call (.stop 0),
          .call (.detach 0), .call (.start 1)] twoUntouched = some s ∧
      (s.timers.timer 1).activated ∧ FlagTruthful s.timers := by
  obtain ⟨s, hs, hreach, hp⟩ := Run.reach_of_exec (FlagOp.exec fun _ _ => id)
    (fun s op => op.Allowed s ∧ ¬ DetachesRunning s op)
    [.call (.init 0 (some ()) 1 RT_TIMER_FLAG_PERIODIC), .call (.init 1 (some ()) 3 0),
      .call (.start 0), .call (.start 1), .tick 1, .check 0, .call (.stop 0),
      .call (.detach 0), .call (.start 1)] twoUntouched
    (fun s => decide (s.timers.timer 1).activated) (by decide +kernel)
  exact ⟨s, hs, of_decide_eq_true hp, activation_flag (s := s) ⟨_, _, hreach⟩⟩

/-- A running timer that is detached is on no list and flagged as running. -/
theorem detached_still_flagged :
    ¬ ∀ s : Sys (Fin 2) Unit (TimerLinks (Fin 2)) Unit,
      FlagReachable (fun _ _ => id) (fun _ _ => True) s → FlagTruthful s.timers := by
  intro hclaim
  obtain ⟨s, hs, hreach, hp⟩ := Run.reach_of_exec (FlagOp.exec fun _ _ => id)
    (fun s op => op.Allowed s ∧ True)
    [.call (.init 0 (some ()) 1 0), .call (.start 0), .call (.detach 0)] twoUntouched
    (fun s => decide ((s.timers.timerList.next timerHead = some timerHead ∧
      s.timers.timerList.prev timerHead = some timerHead) ∧
      s.timers.timerList.next (.item 0) ≠ none ∧ (s.timers.timer 0).activated))
    (by decide +kernel)
  obtain ⟨hself, hinit, hact⟩ := of_decide_eq_true hp
  obtain ⟨ts, hring, -, hflag⟩ := hclaim s ⟨_, _, hreach⟩
  obtain rfl : ts = [] := hring.unique (.cons_cons hself (.singleton _))
  exact List.not_mem_nil (((hflag 0 hinit).1).mp hact)

end Flag

end SampleRtos
