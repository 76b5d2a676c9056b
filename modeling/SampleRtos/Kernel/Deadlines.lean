import SampleRtos.Kernel.Handover
import SampleRtos.Kernel.WakeAll
import SampleRtos.Timer.Ordered

/-!
# The kernel's timers in the order of their deadlines

Runs in which every timer is started for at least one tick and less than half the range:
by a program, by a blocking call, by `rt_timer_check` for the next period. The timer list
of such a run is in the order of the ticks left, and whatever is due is overdue by none.
`FireKeeps` is the rule for what the checks of such a run preserve.
-/

namespace SampleRtos

open Intrusive HalfRange

section Deadlines
variable {τ σ υ : Type} [DecidableEq τ] [DecidableEq σ] [DecidableEq υ]

/-! ## The discipline -/

/-- At least one tick and less than half the range. -/
def InRange (n : Tick) : Prop := 1 ≤ n ∧ n < RT_TICK_MAX / 2

instance (n : Tick) : Decidable (InRange n) := inferInstanceAs (Decidable (_ ∧ _))

/-- A call that starts a program's timer starts it in range. -/
def Call.Timed {LT LS : Type} (k : Kernel τ σ υ LT LS) : Call τ σ υ → Prop
  | .timerStart u => InRange (k.timers.timer (.inr u)).initTick
  | _ => True

instance {LT LS : Type} (k : Kernel τ σ υ LT LS) (c : Call τ σ υ) : Decidable (c.Timed k) := by
  rcases c <;> dsimp only [Call.Timed] <;> infer_instance

/-- If `rt_timer_check` restarts the timer `x`, it does so in range. -/
def RestartTimed {LT LS : Type} (k : Kernel τ σ υ LT LS) (x : τ ⊕ υ) : Prop :=
  (k.timers.timer x).periodic ∧ (k.timers.timer x).activated →
    InRange (k.timers.timer x).initTick

instance {LT LS : Type} (k : Kernel τ σ υ LT LS) (x : τ ⊕ υ) : Decidable (RestartTimed k x) :=
  inferInstanceAs (Decidable (_ → _))

section Returns
variable [Fintype τ] [Fintype υ] (Q : RtKernel τ σ υ → τ ⊕ υ → Prop)

/-- `Q` holds of the timer `x`, about to fire, when its callback has returned. -/
def fireReturns (c : List (Call τ σ υ)) (x : τ ⊕ υ) (k : RtKernel τ σ υ) : Prop :=
  ∀ f ∈ (k.timers.timer x).timeoutFunc, ∀ m ∈ rtTimerRemove k.timers x,
    ∀ k' ∈ kernelCallback x f c { k with timers := m }, Q k' x

def timerCheckReturns : List (List (Call τ σ υ)) → RtKernel τ σ υ → Prop
  | [], _ => True
  | c :: script, k =>
      ∀ x ∈ k.queue.head?, (k.timers.timer x).due k.timers.rtTick →
        fireReturns Q c x k ∧
          ∀ k' ∈ rtTimerFire kernelCallback c x k, timerCheckReturns script k'

/-- `Q` holds of every timer that `rt_tick_increase` fires, when its callback has
returned. -/
def tickReturns (script : List (List (Call τ σ υ))) (k : RtKernel τ σ υ) : Prop :=
  ∀ k' ∈ Sys.onSched { k with timers := { k.timers with rtTick := k.timers.rtTick + 1 } }
    rtTickSlice, timerCheckReturns Q script k'

variable [∀ k x, Decidable (Q k x)]

instance (c : List (Call τ σ υ)) (x : τ ⊕ υ) (k : RtKernel τ σ υ) :
    Decidable (fireReturns Q c x k) :=
  inferInstanceAs (Decidable (∀ f ∈ _, ∀ m ∈ rtTimerRemove k.timers x, ∀ k' ∈ _, _))

instance decidableTimerCheckReturns : ∀ script k, Decidable (timerCheckReturns Q script k)
  | [], _ => .isTrue trivial
  | _ :: script, k =>
      have := decidableTimerCheckReturns script
      inferInstanceAs (Decidable (∀ x ∈ k.queue.head?, _ → _ ∧ ∀ k' ∈ _, _))

instance (script : List (List (Call τ σ υ))) (k : RtKernel τ σ υ) :
    Decidable (tickReturns Q script k) :=
  inferInstanceAs (Decidable (∀ k' ∈ Sys.onSched _ _, _))

end Returns

/-- Timers are started in range and only a ready thread blocks. -/
def Op.Timed [Fintype τ] [Fintype υ] (k : RtKernel τ σ υ) : Op τ σ υ → Prop
  | .call c => c.Timed k
  | .threadSleep tick => ReadyRuns k.env ∧ InRange tick
  | .semTake s time =>
      TakeBlocks k s time → ReadyRuns k.env ∧ (0 < time.toInt → InRange time)
  | .tickIncrease script =>
      tickMeets (fun k c => c.Timed k) script k ∧ tickReturns RestartTimed script k
  | .schedulerStart => True

instance [Fintype τ] [Fintype υ] (k : RtKernel τ σ υ) (op : Op τ σ υ) :
    Decidable (op.Timed k) := by
  rcases op <;> dsimp only [Op.Timed] <;> infer_instance

/-! ## What a call does to the timers -/

/-- The call of the timer interface that a call amounts to. -/
def Call.onTimer : Call τ σ υ → Option (TimerCall (τ ⊕ υ) (TimerCallback τ))
  | .threadInit t _ _ =>
      some (.init (threadTimer t) (some (.rtThreadTimeout t)) 0 RT_TIMER_FLAG_ONE_SHOT)
  | .threadSuspend t => some (.stop (threadTimer t))
  | .threadDetach t => some (.detach (threadTimer t))
  | .timerInit u time flag => some (.init (.inr u) (some .user) time flag)
  | .timerStart u => some (.start (.inr u))
  | .timerStop u => some (.stop (.inr u))
  | .timerControl u cmd => some (.control (.inr u) cmd)
  | .timerDetach u => some (.detach (.inr u))
  | _ => none

variable {a a' : SeqKernel τ σ υ} {m m' : SeqTimers τ υ} {x : τ ⊕ υ} {t : τ}

theorem execCall_timers [Fintype τ] (hw : KernelWf a) {c : Call τ σ υ}
    (hc : Abs.CallAllowed a c) (hrun : Abs.execCall a c = some a') :
    a'.timers = a.timers ∨ ∃ d ∈ c.onTimer, Abs.TimerCallAllowed a.timers d ∧
      Abs.execTimerCall a.timers d = some a'.timers := by
  unfold Abs.execCall at hrun
  cases c with
  | threadInit u priority tick =>
    cases hrun
    exact .inr ⟨_, rfl, hw.timer_free hc.1, rfl⟩
  | threadSuspend u =>
    obtain ⟨_, hr⟩ := returned_of_map hrun
    rcases threadSuspend_spec hw.sched hr with ⟨-, -, rfl⟩ | ⟨-, -, -, ⟨-, hm⟩ | ⟨hact, hlive, hm⟩⟩
    · exact .inl rfl
    · exact .inl hm
    · refine .inr ⟨_, rfl, trivial, ?_⟩
      rw [hm, Abs.execTimerCall, Abs.timerStop, if_neg (not_not.mpr hact),
        Abs.timerRemove_of_live hlive]
      rfl
  | threadDetach u =>
    obtain ⟨hm, hlive, -⟩ := threadDetach_spec hw.sched hrun
    refine .inr ⟨_, rfl, trivial, ?_⟩
    rw [hm, Abs.execTimerCall, Abs.timerRemove_of_live hlive]
  | semInit s value flag => cases hrun; exact .inl rfl
  | semTrytake s =>
    obtain ⟨_, hr⟩ := returned_of_map hrun
    rcases semTake_spec hr with ⟨-, -, rfl⟩ | ⟨-, -, -, rfl⟩ | ⟨hb, -⟩
    · exact .inl rfl
    · exact .inl rfl
    · exact absurd rfl hb.2
  | enterCritical => cases hrun; exact .inl rfl
  | timerInit u time flag =>
    cases hrun
    exact .inr ⟨_, rfl, fun hmem => hc _ hmem rfl, rfl⟩
  | timerStart u => exact .inr ⟨_, rfl, trivial, (onTimers_spec hrun).1⟩
  | timerStop u => exact .inr ⟨_, rfl, trivial, (onTimers_spec hrun).1⟩
  | timerControl u cmd => cases hrun; exact .inr ⟨_, rfl, trivial, rfl⟩
  | timerDetach u => exact .inr ⟨_, rfl, trivial, (onTimers_spec hrun).1⟩
  | _ => exact .inl (onSched_spec hrun).2

/-! ## The timers by themselves -/

/-- The timers of the kernel as a state of the timers alone, without a history. -/
def alone (m : SeqTimers τ υ) :
    Sys (τ ⊕ υ) (TimerCallback τ) (TimerRings (τ ⊕ υ)) (TimerLog (τ ⊕ υ)) :=
  { timers := m, env := [] }

/-- The timer list is in order and nothing in it is overdue. -/
structure OnSchedule (m : SeqTimers τ υ) : Prop where
  ordered : Ordered (alone m)
  punctual : NoneOverdue (alone m)

/-- A start in range puts the timer where it belongs. -/
theorem Ordered.start_inRange (h : Ordered (alone m)) (ht : InRange (m.timer x).initTick)
    (hstart : Abs.timerStart m x = some m') :
    Ordered (alone m') ∧ (NoneOverdue (alone m) → NoneOverdue (alone m')) := by
  refine h.start (BitVec.le_of_lt ht.2) (fun hfalls => ?_) hstart
  have hone := ht.1
  have hzero : (m.timer x).initTick = 0 := hfalls.1
  rw [hzero] at hone
  exact absurd hone (by decide)

/-- A call that meets the discipline keeps the timers in order. -/
theorem Ordered.execCall [Fintype τ] (h : Ordered (alone a.timers)) (hw : KernelWf a)
    {c : Call τ σ υ} (hc : Abs.CallAllowed a c) (htimed : c.Timed a)
    (hrun : Abs.execCall a c = some a') :
    Ordered (alone a'.timers) ∧
      (NoneOverdue (alone a.timers) → NoneOverdue (alone a'.timers)) := by
  rcases execCall_timers hw hc hrun with heq | ⟨d, hd, hallowed, hexec⟩
  · rw [heq]
    exact ⟨h, id⟩
  · cases d with
    | start x =>
      cases c with
      | timerStart u => cases hd; exact h.start_inRange htimed hexec
      | _ => cases hd
    | _ => exact h.call hallowed rfl hexec

theorem OnSchedule.execCall [Fintype τ] (h : OnSchedule a.timers) (hw : KernelWf a)
    {c : Call τ σ υ} (hc : Abs.CallAllowed a c) (htimed : c.Timed a)
    (hrun : Abs.execCall a c = some a') : OnSchedule a'.timers :=
  have hkept := h.ordered.execCall hw hc htimed hrun
  ⟨hkept.1, hkept.2 h.punctual⟩

/-! ## One timer -/

/-- From `m` to `m'` nothing has happened to the timer `x`. -/
structure SameTimer (x : τ ⊕ υ) (m m' : SeqTimers τ υ) : Prop where
  tick : m'.rtTick = m.rtTick
  mem : x ∈ m'.queue ↔ x ∈ m.queue
  timer : m'.timer x = m.timer x

namespace SameTimer
variable {y : τ ⊕ υ}

section
omit [DecidableEq τ] [DecidableEq υ]

theorem refl (x : τ ⊕ υ) (m : SeqTimers τ υ) : SameTimer x m m := ⟨rfl, Iff.rfl, rfl⟩

theorem trans {m'' : SeqTimers τ υ} (h : SameTimer x m m') (h' : SameTimer x m' m'') :
    SameTimer x m m'' :=
  ⟨h'.tick.trans h.tick, h'.mem.trans h.mem, h'.timer.trans h.timer⟩

end

/-- Another timer goes off the list. -/
theorem erase (hv : m.timerList.Valid) (hxy : x ≠ y) :
    SameTimer x m { m with timerList := m.timerList.erase y } := by
  have hmem : x ∈ m.others y ↔ x ∈ m.queue ∧ x ≠ y := TimerSys.mem_others hv
  exact ⟨rfl, hmem.trans (and_iff_left hxy), rfl⟩

theorem setTimer {r : RtTimer (TimerCallback τ)} (hxy : x ≠ y) :
    SameTimer x m (m.setTimer y r) :=
  ⟨rfl, Iff.rfl, by simp [hxy]⟩

theorem start (hv : m.timerList.Valid) (hxy : x ≠ y) (hstart : Abs.timerStart m y = some m') :
    SameTimer x m m' := by
  obtain ⟨xs, ys, hm⟩ := Abs.timerStart_started hv hstart
  exact ⟨hm.rtTick, hm.mem_queue.trans (or_iff_right hxy), hm.other x hxy⟩

/-- A call of the timer interface leaves the other timers alone. -/
theorem timerCall {d : TimerCall (τ ⊕ υ) (TimerCallback τ)} (hv : m.timerList.Valid)
    (hd : d.timer ≠ x) (hexec : Abs.execTimerCall m d = some m') : SameTimer x m m' := by
  unfold Abs.execTimerCall at hexec
  have hxd := Ne.symm hd
  cases d with
  | init y f time flag =>
    cases hexec
    exact ⟨rfl, Iff.rfl, by simp [Abs.timerInit, TimerSys.setTimer, show x ≠ y from hxd]⟩
  | start y => exact start hv hxd hexec
  | stop y =>
    obtain ⟨_, hstop⟩ := returned_of_map hexec
    rcases Abs.timerStop_spec hstop with ⟨-, rfl⟩ | ⟨-, -, rfl⟩
    · exact refl x _
    · exact (erase hv hxd).trans (setTimer hxd)
  | control y cmd => cases hexec; exact setTimer hxd
  | detach y =>
    obtain ⟨-, rfl⟩ := Abs.timerRemove_eq_some hexec
    exact erase hv hxd

/-- A call that is not about a thread leaves its timer alone. -/
theorem execCall [Fintype τ] (hw : KernelWf a) {c : Call τ σ υ} (hc : Abs.CallAllowed a c)
    (havoids : c.Avoids t) (hrun : Abs.execCall a c = some a') :
    SameTimer (.inl t) a.timers a'.timers := by
  rcases execCall_timers hw hc hrun with heq | ⟨d, hd, -, hexec⟩
  · rw [heq]
    exact refl _ _
  · refine timerCall hw.timers.valid ?_ hexec
    cases c <;> cases hd <;> simp_all [TimerCall.timer, Call.Avoids]

section
omit [DecidableEq τ] [DecidableEq υ]

theorem of_others {u : τ} (h : OtherTimers u m m') (htu : t ≠ u) : SameTimer (.inl t) m m' :=
  ⟨h.tick, h.mem _ (by simpa using htu), h.timer _ (by simpa using htu)⟩

end

end SameTimer

/-- The timer of `t` is not running, or has so many ticks left, counted from the tick
before the present one. -/
def CountsDown (m : SeqTimers τ υ) (t : τ) : Option Nat → Prop
  | none => .inl t ∉ m.queue
  | some n => .inl t ∈ m.queue ∧ left m (.inl t) = n

section
omit [DecidableEq τ] [DecidableEq υ]

theorem SameTimer.left_eq (h : SameTimer x m m') : left m' x = left m x := by
  rw [left, left, h.tick, h.timer]

theorem SameTimer.countsDown {n : Option Nat} (h : SameTimer (.inl t) m m')
    (ht : CountsDown m t n) : CountsDown m' t n := by
  cases n with
  | none => exact fun hmem => ht (h.mem.mp hmem)
  | some n => exact ⟨h.mem.mpr ht.1, h.left_eq.trans ht.2⟩

/-- The tick advances. -/
theorem OnSchedule.countsDown_tick (h : OnSchedule m) {n : Option Nat} (ht : CountsDown m t n) :
    CountsDown { m with rtTick := m.rtTick + 1 } t (n.map (· - 1)) := by
  cases n with
  | none => exact ht
  | some n =>
    obtain ⟨hmem, hleft⟩ := ht
    refine ⟨hmem, ?_⟩
    have hstep : left m (.inl t) = _ := left_eq (h.punctual (.inl t) hmem)
    rw [← hleft, hstep, left, add_sub_cancel_right]
    rfl

end

/-! ## What a firing preserves -/

section Fire
variable [Fintype τ] [Fintype υ] {P : RtKernel τ σ υ → Call τ σ υ → Prop}
  {Q : RtKernel τ σ υ → τ ⊕ υ → Prop} {J : SeqKernel τ σ υ → Prop} {k : RtKernel τ σ υ}

/-- `J` survives what the firing of `x` consists of: the unlinking, the timeout of a thread
or calls that meet `P`, and a restart that meets `Q`. -/
structure FireKeeps (P : RtKernel τ σ υ → Call τ σ υ → Prop)
    (Q : RtKernel τ σ υ → τ ⊕ υ → Prop) (x : τ ⊕ υ) (J : SeqKernel τ σ υ → Prop) : Prop where
  unlink : ∀ {a}, KernelWf a → J a → J (a.unlinked x)
  timeout : ∀ {a t e}, x = .inl t → KernelWf a → (a.env.thread t).Active → J a →
    Abs.timeout a.env t = some e → J { a with env := e }
  call : ∀ {k a c a'}, KernelRel k a → KernelWf a → P k c → Abs.CallAllowed a c → J a →
    Abs.execCall a c = some a' → J a'
  restart : ∀ {k a m}, KernelRel k a → KernelWf a → Q k x → (a.timers.timer x).periodic →
    (a.timers.timer x).activated → J a → Abs.timerStart (a.timers.deactivate x) x = some m →
    J { a with timers := m }
  finish : ∀ {a}, J a → J { a with timers := a.timers.deactivate x }

namespace FireKeeps

theorem runCalls (hJ : FireKeeps P Q x J) (cs : List (Call τ σ υ)) :
    ∀ {k : RtKernel τ σ υ} {a a' : SeqKernel τ σ υ}, KernelRel k a → KernelWf a →
      callsMeet P cs k → J a → Abs.runCalls cs a = some a' → J a' := by
  induction cs with
  | nil => intro k a a' _ _ _ h hrun; cases hrun; exact h
  | cons c cs ih =>
    intro k a a' hk hw hP h hrun
    obtain ⟨a₁, hc, hrest⟩ := Option.bind_eq_some_iff.mp hrun
    split at hc
    · rename_i hallowed
      obtain ⟨k₁, hk₁, h₁⟩ := Lockstep.exists_of_right (execCall_rel hk hw hallowed) hc
      exact ih h₁ (hw.execCall hallowed hc) (hP.2 k₁ hk₁) (hJ.call hk hw hP.1 hallowed h hc) hrest
    · cases hc

theorem fire (hJ : FireKeeps P Q x J) (hk : KernelRel k a) (hw : KernelWf a)
    {c : List (Call τ σ υ)} (hx : x ∈ a.timers.queue) (hP : fireMeets P c x k)
    (hQ : fireReturns Q c x k) (h : J a)
    (hrun : Abs.timerFire Abs.callback c x a = some a') : J a' := by
  obtain ⟨hlive, f, a₁, hf, hcallback, hend⟩ := Abs.timerFire_spec hrun
  have hw₀ : KernelWf (a.unlinked x) := hw.eraseTimer x
  obtain ⟨m, hm, hrel⟩ := Lockstep.exists_of_right (rtTimerRemove_rel hk.timers x)
    (Abs.timerRemove_of_live hlive)
  have hunlinked : KernelRel { k with timers := m } (a.unlinked x) := ⟨hrel, hk.env⟩
  obtain ⟨k₁, hk₁, h₁⟩ :=
    Lockstep.exists_of_right (kernelCallback_rel hunlinked hw₀ x f c) hcallback
  have hQ₁ : Q k₁ x := hQ f (by rw [hk.timers.timer]; exact hf) m hm k₁ hk₁
  have hreturned : J a₁ ∧ KernelWf a₁ := by
    cases f with
    | rtThreadTimeout t =>
      obtain rfl : x = .inl t := hw.timers.callback_eq hx hf
      obtain ⟨htimeout, htimers⟩ := onSched_spec (show (a.unlinked (.inl t)).onSched
        (fun e => Abs.timeout e t) = some a₁ from hcallback)
      have hact := hw.linked t hx
      have h₂ := hJ.timeout rfl hw₀ hact (hJ.unlink hw h) htimeout
      have hw₂ := hw₀.of_waking (Waking.timeout hw₀.sched hact htimeout)
      rw [← htimers] at h₂ hw₂
      exact ⟨h₂, hw₂⟩
    | user =>
      rw [fireMeets, hk.timers.timer] at hP
      exact ⟨hJ.runCalls c hunlinked hw₀ (hP hf m hm) (hJ.unlink hw h) hcallback,
        hw₀.runCalls c hcallback⟩
  rcases hend with ⟨hper, hact, hstart, henv⟩ | ⟨-, rfl⟩
  · have h₂ := hJ.restart h₁ hreturned.2 hQ₁ hper hact hreturned.1 hstart
    rw [← henv] at h₂
    exact h₂
  · exact hJ.finish hreturned.1

end FireKeeps

/-! ## What a check preserves -/

/-- One firing of a timer: the state before it and the state after. -/
structure TimerFiring (τ σ υ : Type) where
  before : RtKernel τ σ υ
  timer : τ ⊕ υ
  after : RtKernel τ σ υ

/-- The firings of `rt_timer_check`, in order. -/
def timerCheckFirings : List (List (Call τ σ υ)) → RtKernel τ σ υ → List (TimerFiring τ σ υ)
  | [], _ => []
  | c :: script, k =>
      match k.queue.head? with
      | none => []
      | some x =>
          if (k.timers.timer x).due k.timers.rtTick then
            (rtTimerFire kernelCallback c x k).elim [] fun k' =>
              ⟨k, x, k'⟩ :: timerCheckFirings script k'
          else []

/-- The firings of `rt_tick_increase`, in order. -/
def tickFirings (script : List (List (Call τ σ υ))) (k : RtKernel τ σ υ) :
    List (TimerFiring τ σ υ) :=
  (Sys.onSched { k with timers := { k.timers with rtTick := k.timers.rtTick + 1 } }
    rtTickSlice).elim [] (timerCheckFirings script)

/-- One round of a check whose first timer is due. -/
theorem check_round {c : List (Call τ σ υ)} {script : List (List (Call τ σ υ))}
    {a₁ : SeqKernel τ σ υ} (hk : KernelRel k a) (hw : KernelWf a)
    (hP : timerCheckMeets P (c :: script) k) (hQ : timerCheckReturns Q (c :: script) k)
    (hx : a.timers.queue.head? = some x) (hdue : (a.timers.timer x).due a.timers.rtTick)
    (hf : Abs.timerFire Abs.callback c x a = some a₁) :
    ∃ k₁, KernelRel k₁ a₁ ∧ KernelWf a₁ ∧ fireMeets P c x k ∧ fireReturns Q c x k ∧
      timerCheckMeets P script k₁ ∧ timerCheckReturns Q script k₁ ∧
      timerCheckFirings (c :: script) k = ⟨k, x, k₁⟩ :: timerCheckFirings script k₁ := by
  obtain ⟨k₁, hk₁, h₁⟩ := Lockstep.exists_of_right (kernelFire_rel hk hw c x) hf
  obtain ⟨hxk, hduek⟩ := hk.first_due hx hdue
  obtain ⟨hmeets, hlater⟩ := hP x hxk hduek
  obtain ⟨hreturns, hafter⟩ := hQ x hxk hduek
  refine ⟨k₁, h₁, hw.fire hx hf, hmeets, hreturns, hlater k₁ hk₁, hafter k₁ hk₁, ?_⟩
  rw [timerCheckFirings, show k.queue.head? = some x from hxk]
  simp only [hduek, if_true, hk₁, Option.elim_some]

/-- A check that has nothing to fire. -/
theorem timerCheckFirings_quiet (hk : KernelRel k a) (hq : Quiet a)
    (script : List (List (Call τ σ υ))) : timerCheckFirings script k = [] := by
  cases script with
  | nil => rfl
  | cons c script =>
    rw [timerCheckFirings, hk.queue, hk.timers.timer, hk.timers.rtTick]
    cases hhead : a.timers.queue.head? with
    | none => rfl
    | some x => simp [hq x hhead]

/-- **What every firing preserves holds at every firing of a check and after it.** -/
theorem check_keeps
    (hJ : ∀ {a x}, J a → a.timers.queue.head? = some x → (a.timers.timer x).due a.timers.rtTick →
      FireKeeps P Q x J) (script : List (List (Call τ σ υ))) :
    ∀ {k : RtKernel τ σ υ} {a a' : SeqKernel τ σ υ}, KernelRel k a → KernelWf a →
      timerCheckMeets P script k → timerCheckReturns Q script k → J a →
      Abs.timerCheck Abs.callback script a = some a' →
      J a' ∧ Quiet a' ∧ ∀ f ∈ timerCheckFirings script k,
        ∃ b b', KernelRel f.before b ∧ KernelRel f.after b' ∧ J b ∧ J b' ∧
          b.timers.queue.head? = some f.timer ∧ (b.timers.timer f.timer).due b.timers.rtTick := by
  induction script with
  | nil =>
    intro k a a' hk hw _ _ h hrun
    rcases Abs.timerCheck_cases hrun with ⟨rfl, hq⟩ | ⟨c, rest, x, a₁, hnil, -⟩
    · exact ⟨h, hq, by simp [timerCheckFirings]⟩
    · cases hnil
  | cons c script ih =>
    intro k a a' hk hw hP hQ h hrun
    rcases Abs.timerCheck_cases hrun with ⟨rfl, hq⟩ | ⟨c', rest, x, a₁, hcons, hx, hdue, hf, hrest⟩
    · exact ⟨h, hq, by simp [timerCheckFirings_quiet hk hq]⟩
    · cases hcons
      obtain ⟨k₁, h₁, hw₁, hmeets, hreturns, hP₁, hQ₁, hfirings⟩ :=
        check_round hk hw hP hQ hx hdue hf
      have hJ₁ : J a₁ := (hJ h hx hdue).fire hk hw (List.mem_of_mem_head? hx) hmeets hreturns h hf
      obtain ⟨hJ', hq, hall⟩ := ih h₁ hw₁ hP₁ hQ₁ hJ₁ hrest
      refine ⟨hJ', hq, fun f hmem => ?_⟩
      rw [hfirings] at hmem
      rcases List.mem_cons.mp hmem with rfl | hmem
      · exact ⟨a, a₁, hk, h₁, h, hJ₁, hx, hdue⟩
      · exact hall f hmem

end Fire

/-! ## Runs that meet the discipline -/

section Runs
variable {k : RtKernel τ σ υ} {s : σ}

theorem Call.timed_iff (h : KernelRel k a) (c : Call τ σ υ) : c.Timed k ↔ c.Timed a := by
  cases c <;> simp only [Call.Timed, h.timers.timer]

/-- The timers stay in order through a firing. -/
theorem ordered_fireKeeps [Fintype τ] (x : τ ⊕ υ) :
    FireKeeps (fun k c => c.Timed k) RestartTimed x
      fun a : SeqKernel τ σ υ => Ordered (alone a.timers) where
  unlink _ h := (h.erase x).1
  timeout _ _ _ h _ := h
  call hk hw htimed hc h hrun :=
    (h.execCall hw hc ((Call.timed_iff hk _).mp htimed) hrun).1
  restart {k a m} hk hw hQ hper hact h hstart := by
    rw [RestartTimed, hk.timers.timer] at hQ
    have h₁ : Ordered (alone (a.timers.deactivate x)) := (h.deactivate x).1
    exact (h₁.start_inRange (by simpa [RtTimer.deactivate] using hQ ⟨hper, hact⟩) hstart).1
  finish h := (h.deactivate x).1

theorem OnSchedule.threadSuspend [Fintype τ] (h : OnSchedule a.timers) (hw : KernelWf a) {e : Int}
    (hsusp : Abs.threadSuspend a t = some (e, a')) : OnSchedule a'.timers := by
  have hrun : Abs.execCall a (.threadSuspend t) = some a' := by
    rw [Abs.execCall, hsusp]
    rfl
  exact h.execCall (c := .threadSuspend t) hw trivial trivial hrun

section
omit [DecidableEq σ]

/-- The timer of a thread is set and started. -/
theorem OnSchedule.threadTimerStart (h : OnSchedule a.timers) (hw : KernelWf a) {tick : Tick}
    (htick : InRange tick) (hrun : Abs.threadTimerStart a t tick = some a') :
    OnSchedule a'.timers ∧ CountsDown a'.timers t (some (tick.toNat + 1)) := by
  obtain ⟨-, hstart⟩ := threadTimerStart_spec hrun
  obtain ⟨-, hother, hlinked, hdeadline⟩ := threadTimerStart_frame hw hrun
  obtain ⟨h₁, hrest₁⟩ := h.ordered.call (g := []) (c := .control (threadTimer t) (.setTime tick))
    trivial rfl rfl
  obtain ⟨h₂, hrest₂⟩ := Ordered.start_inRange h₁ (by simpa [RtTimer.control] using htick) hstart
  refine ⟨⟨h₂, hrest₂ (hrest₁ h.punctual)⟩, hlinked, ?_⟩
  have hone : 1 ≤ tick.toNat := htick.1
  have hhalf : tick.toNat < halfRange := htick.2
  have hrange := two_mul_halfRange_lt
  have hahead : a.timers.rtTick + tick = a.timers.rtTick - 1 + (tick + 1) := by ring
  rw [left, hdeadline, hother.tick, hahead, ahead_add, BitVec.toNat_add_of_lt]
  · rfl
  · show tick.toNat + 1 < 2 ^ 32
    omega

end

/-- A sleeping thread counts down from the ticks it sleeps for. -/
theorem OnSchedule.threadSleep [Fintype τ] (h : OnSchedule a.timers) (hw : KernelWf a)
    (hcan : CanBlock a t) (hcur : a.env.rtCurrentThread = some t) {tick : Tick}
    (htick : InRange tick) (hrun : Abs.threadSleep a tick = some a') :
    OnSchedule a'.timers ∧ CountsDown a'.timers t (some (tick.toNat + 1)) := by
  obtain ⟨t', e, a₁, a₂, hcur', hsusp, htimer, hsched⟩ := threadSleep_spec hrun
  obtain rfl : t' = t := Option.some.inj (hcur'.symm.trans hcur)
  have h₁ := h.threadSuspend hw hsusp
  have h₂ := h₁.threadTimerStart (threadSuspend_suspends hw hcan hsusp).wf htick htimer
  rw [(onSched_spec hsched).2]
  exact h₂

/-- A waiting thread with a timeout counts down from it. -/
theorem OnSchedule.takeWait [Fintype τ] (h : OnSchedule a.timers) (hw : KernelWf a)
    (hcan : CanBlock a t) {time : BitVec 32} (htime : 0 < time.toInt → InRange time)
    (hrun : Abs.takeWait a s t time = some a') :
    OnSchedule a'.timers ∧
      (0 < time.toInt → CountsDown a'.timers t (some (time.toNat + 1))) := by
  obtain ⟨e, a₁, a₂, a₃, hsusp, hins, htimer, hsched⟩ := takeWait_spec hrun
  have hw₀ : KernelWf { a with env := a.env.setError t RT_EOK } := hw.setError t RT_EOK
  have hsuspends := threadSuspend_suspends hw₀ ((canBlock_setError _).mpr hcan) hsusp
  have h₁ : OnSchedule a₁.timers :=
    OnSchedule.threadSuspend (a := { a with env := a.env.setError t RT_EOK }) h hw₀ hsusp
  obtain ⟨hw₂, -, -, htimers₂⟩ := hsuspends.inserted hins
  rw [← htimers₂] at h₁
  rw [(onSched_spec hsched).2]
  rcases htimer with ⟨hpos, htimer⟩ | ⟨hpos, rfl⟩
  · obtain ⟨h₂, hcounts⟩ := h₁.threadTimerStart hw₂ (htime hpos) htimer
    exact ⟨h₂, fun _ => hcounts⟩
  · exact ⟨h₁, fun htime => absurd htime hpos⟩

section
omit [DecidableEq υ]

theorem OnSchedule.tickStart (h : OnSchedule a.timers) (hstart : Abs.tickStart a = some a') :
    Ordered (alone a'.timers) ∧ a'.timers = { a.timers with rtTick := a.timers.rtTick + 1 } := by
  obtain ⟨-, htimers⟩ := onSched_spec hstart
  rw [htimers]
  exact ⟨h.ordered.tickBegin h.punctual, rfl⟩

end

section
omit [DecidableEq τ] [DecidableEq σ] [DecidableEq υ]

/-- When nothing at the front is due any more, nothing is overdue. -/
theorem Ordered.onSchedule (h : Ordered (alone a.timers)) (hq : Quiet a) : OnSchedule a.timers :=
  ⟨h, h.quiet fun x hx => hq x hx⟩

end

variable [Fintype τ] [Fintype υ]

theorem OnSchedule.tick (h : OnSchedule a.timers) (hk : KernelRel k a) (hw : KernelWf a)
    {script : List (List (Call τ σ υ))} (hP : tickMeets (fun k c => c.Timed k) script k)
    (hQ : tickReturns RestartTimed script k) (hrun : Abs.tick script a = some a') :
    OnSchedule a'.timers := by
  obtain ⟨a₁, hstart, hcheck⟩ := Option.bind_eq_some_iff.mp hrun
  obtain ⟨k₁, hk₁, h₁⟩ := Lockstep.exists_of_right (tickStart_rel hk hw.sched) hstart
  obtain ⟨hordered, hquiet, -⟩ := check_keeps (fun _ _ _ => ordered_fireKeeps _) script h₁
    (hw.tickStart hstart) (hP k₁ hk₁) (hQ k₁ hk₁) (h.tickStart hstart).1 hcheck
  exact hordered.onSchedule hquiet

/-- **One operation** that meets the discipline keeps the timers on schedule. -/
theorem OnSchedule.exec (h : OnSchedule a.timers) (hk : KernelRel k a) (hw : KernelWf a)
    {op : Op τ σ υ} (hop : Abs.Allowed a op) (htimed : op.Timed k)
    (hrun : Abs.exec a op = some a') : OnSchedule a'.timers := by
  unfold Abs.exec at hrun
  cases op with
  | call c => exact h.execCall hw hop ((Call.timed_iff hk c).mp htimed) hrun
  | threadSleep tick =>
    obtain ⟨t, hcur, hcan⟩ := hop
    exact (h.threadSleep hw hcan hcur htimed.2 hrun).1
  | semTake s time =>
    obtain ⟨_, hr⟩ := returned_of_map hrun
    rcases semTake_spec hr with ⟨-, -, rfl⟩ | ⟨-, -, -, rfl⟩ | ⟨hb, t, hcur, -, hwait⟩
    · exact h
    · exact h
    · obtain ⟨t', hcur', hcan⟩ := hop hb
      obtain rfl : t = t' := Option.some.inj (hcur.symm.trans hcur')
      have htime := (htimed ((takeBlocks_iff hk s time).mpr hb)).2
      exact (h.takeWait hw hcan htime hwait).1
  | tickIncrease script => exact h.tick hk hw htimed.1 htimed.2 hrun
  | schedulerStart =>
    rw [(onSched_spec hrun).2]
    exact h

section
omit [Fintype τ] [Fintype υ]

/-- No timer is running after initialisation. -/
theorem OnSchedule.boot {idle : τ} (hw : KernelWf a) (h : Abs.boot idle = some a) :
    OnSchedule a.timers := by
  have hnil : (alone a.timers).timers.queue = [] := (boot_spec h).queue
  refine ⟨⟨hw.timers.valid, ?_, ?_⟩, ?_⟩
  · simp [hnil]
  · simp [hnil]
  · intro x hx
    simp [hnil] at hx

end

/-- **The timers of a run that meets the discipline are on schedule.** -/
theorem onSchedule_of_reachable {idle : τ} (hk : Reachable idle (fun k op => op.Timed k) k) :
    ∃ a, KernelRel k a ∧ KernelWf a ∧ OnSchedule a.timers :=
  hk.invariant (fun _ ha hw => OnSchedule.boot hw ha)
    fun _ _ _ _ h hw hI hop htimed hrun => hI.exec h hw hop htimed hrun

end Runs

end Deadlines

end SampleRtos
