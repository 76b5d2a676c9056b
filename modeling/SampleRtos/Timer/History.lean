import SampleRtos.Lib.Run
import SampleRtos.Timer.Spec

/-!
# Runs of the timers with their history

The calls of timer.c and `rt_tick_increase` in any order, on timers alone: what
a callback does is a list of calls. The environment of the timers is the history
of the run, newest event first. Nothing of timer.c reads it; the number of ticks
in it is the time, and the last event about a timer tells whether it is running.
-/

namespace SampleRtos

open Intrusive

section History
variable {ι γ L : Type}

/-! ## Histories -/

inductive TimerEvent (ι : Type) where
  | start (t : ι) (initTick : Tick)
  | stop (t : ι)
  | detach (t : ι)
  | tick
  | fire (t : ι)
  | tickEnd
  deriving DecidableEq, Repr

abbrev TimerLog (ι : Type) := List (TimerEvent ι)

/-- A start: when, for how long, and which event of the history it was. -/
structure TimerStart where
  tick : Tick
  initTick : Tick
  serial : Nat

/-- The tick at which a started timer is to fire. -/
def TimerStart.due (a : TimerStart) : Tick := a.tick + a.initTick

/-- `rt_tick` after the ticks of a history that began at `init`. -/
def clock (init : Tick) : TimerLog ι → Tick
  | [] => init
  | .tick :: log => clock init log + 1
  | _ :: log => clock init log

/-- The start of `t` that has been neither stopped nor fired. -/
def running [DecidableEq ι] (init : Tick) : TimerLog ι → ι → Option TimerStart
  | [], _ => none
  | .start u n :: log, t =>
      if t = u then some ⟨clock init log, n, log.length⟩ else running init log t
  | .stop u :: log, t => if t = u then none else running init log t
  | .detach u :: log, t => if t = u then none else running init log t
  | .fire u :: log, t => if t = u then none else running init log t
  | _ :: log, t => running init log t

/-- Inside a tick. -/
def ticking : TimerLog ι → Bool
  | [] => false
  | .tick :: _ => true
  | .tickEnd :: _ => false
  | _ :: log => ticking log

/-- When the timers were started that have fired since the last tick began. -/
def firedNow [DecidableEq ι] (init : Tick) : TimerLog ι → List Nat
  | [] => []
  | .tick :: _ => []
  | .fire t :: log => ((running init log t).map (·.serial)).toList ++ firedNow init log
  | _ :: log => firedNow init log

/-! ## Runs -/

inductive TimerCall (ι γ : Type) where
  | init (t : ι) (timeout : Option γ) (time : Tick) (flag : BitVec 8)
  | start (t : ι)
  | stop (t : ι)
  | control (t : ι) (cmd : TimerCtrl)
  | detach (t : ι)

inductive TimerOp (ι γ : Type) where
  | call (c : TimerCall ι γ)
  | tick (script : List (List (TimerCall ι γ)))

/-- Which `init_tick` a start may be made with, and which calls the callback of a
timer may make. -/
structure TimerRule (ι γ : Type) where
  start : Tick → Bool
  callback : ι → TimerCall ι γ → Bool

/-- A call by the callback of `firing`, or by a thread if there is none. -/
def TimerRule.permits (rule : TimerRule ι γ) (k : TimerSys ι γ L) (firing : Option ι)
    (c : TimerCall ι γ) : Bool :=
  firing.all (rule.callback · c) &&
    match c with
    | .start t => rule.start (k.timer t).initTick
    | _ => true

namespace TimerCall

def timer : TimerCall ι γ → ι
  | .init t _ _ _ | .start t | .stop t | .control t _ | .detach t => t

def note (k : TimerSys ι γ L) (log : TimerLog ι) : TimerCall ι γ → TimerLog ι
  | .start t => .start t (k.timer t).initTick :: log
  | .stop t => .stop t :: log
  | .detach t => .detach t :: log
  | _ => log

variable [DecidableEq ι]

/-- Only a timer that is not linked is initialised. -/
def Allowed (k : TimerSys ι γ (TimerLinks ι)) : TimerCall ι γ → Prop
  | .init t _ _ _ =>
      k.timerList.next (.item t) = none ∨ k.timerList.next (.item t) = some (.item t)
  | _ => True

instance (k : TimerSys ι γ (TimerLinks ι)) (c : TimerCall ι γ) : Decidable (c.Allowed k) := by
  rcases c <;> dsimp only [Allowed] <;> infer_instance

def exec [Fintype ι] (k : TimerSys ι γ (TimerLinks ι)) :
    TimerCall ι γ → Option (TimerSys ι γ (TimerLinks ι))
  | .init t timeout time flag => some (rtTimerInit k t timeout time flag)
  | .start t => rtTimerStart k t
  | .stop t => (rtTimerStop k t).map Prod.snd
  | .control t cmd => some (k.rtTimerControl t cmd)
  | .detach t => rtTimerDetach k t

end TimerCall

variable [DecidableEq ι]

/-- A permitted call with its note. -/
def runTimerCall [Fintype ι] (rule : TimerRule ι γ) (firing : Option ι)
    (s : Sys ι γ (TimerLinks ι) (TimerLog ι)) (c : TimerCall ι γ) :
    Option (Sys ι γ (TimerLinks ι) (TimerLog ι)) := do
  if c.Allowed s.timers ∧ rule.permits s.timers firing c then
    let k ← c.exec s.timers
    return { timers := k, env := c.note s.timers s.env }
  else none

/-- The restart that `rt_timer_check` is about to make is noted here, under the
condition it tests. -/
def noteRestart (rule : TimerRule ι γ) (t : ι) (s : Sys ι γ L (TimerLog ι)) :
    Option (Sys ι γ L (TimerLog ι)) :=
  if (s.timers.timer t).periodic ∧ (s.timers.timer t).activated then
    if rule.start (s.timers.timer t).initTick then
      some { s with env := .start t (s.timers.timer t).initTick :: s.env }
    else none
  else some s

/-- The callback of `t` making the calls `calls`, each by `run`. -/
def timerCallback (rule : TimerRule ι γ)
    (run : Option ι → Sys ι γ L (TimerLog ι) → TimerCall ι γ → Option (Sys ι γ L (TimerLog ι)))
    (t : ι) (_ : γ) (calls : List (TimerCall ι γ)) (s : Sys ι γ L (TimerLog ι)) :
    Option (Sys ι γ L (TimerLog ι)) := do
  let s ← calls.foldlM (run (some t)) { s with env := .fire t :: s.env }
  noteRestart rule t s

def TimerOp.exec [Fintype ι] (rule : TimerRule ι γ) (s : Sys ι γ (TimerLinks ι) (TimerLog ι)) :
    TimerOp ι γ → Option (Sys ι γ (TimerLinks ι) (TimerLog ι))
  | .call c => runTimerCall rule none s c
  | .tick script => do
      let s ← rtTickIncrease (fun s => some { s with env := .tick :: s.env })
        (timerCallback rule (runTimerCall rule)) script s
      return { s with env := .tickEnd :: s.env }

/-- Timers nobody has touched, after `rt_system_timer_init`, with `rt_tick` and
`random_nr` anywhere. -/
def timersFrom (init : Tick) (random : BitVec 32) (timer : ι → RtTimer γ) :
    Sys ι γ (TimerLinks ι) (TimerLog ι) where
  timers := rtSystemTimerInit
    { rtTick := init
      randomNr := random
      timer := timer
      timerList := { next := fun _ => none, prev := fun _ => none } }
  env := []

def TimerReachable [Fintype ι] (rule : TimerRule ι γ) (init : Tick)
    (s : Sys ι γ (TimerLinks ι) (TimerLog ι)) : Prop :=
  ∃ random timer, Run.Reach (TimerOp.exec rule) (fun _ _ => True) (timersFrom init random timer) s

/-! ## The same runs on sequences -/

namespace Abs

def TimerCallAllowed (a : TimerSys ι γ (TimerRings ι)) : TimerCall ι γ → Prop
  | .init t _ _ _ => t ∉ a.queue
  | _ => True

instance (a : TimerSys ι γ (TimerRings ι)) (c : TimerCall ι γ) :
    Decidable (TimerCallAllowed a c) := by
  rcases c <;> dsimp only [TimerCallAllowed] <;> infer_instance

def execTimerCall (a : TimerSys ι γ (TimerRings ι)) :
    TimerCall ι γ → Option (TimerSys ι γ (TimerRings ι))
  | .init t timeout time flag => some (timerInit a t timeout time flag)
  | .start t => timerStart a t
  | .stop t => (timerStop a t).map Prod.snd
  | .control t cmd => some (a.rtTimerControl t cmd)
  | .detach t => timerRemove a t

def runTimerCall (rule : TimerRule ι γ) (firing : Option ι)
    (b : Sys ι γ (TimerRings ι) (TimerLog ι)) (c : TimerCall ι γ) :
    Option (Sys ι γ (TimerRings ι) (TimerLog ι)) := do
  if TimerCallAllowed b.timers c ∧ rule.permits b.timers firing c then
    let a ← execTimerCall b.timers c
    return { timers := a, env := c.note b.timers b.env }
  else none

def execTimerOp (rule : TimerRule ι γ) (b : Sys ι γ (TimerRings ι) (TimerLog ι)) :
    TimerOp ι γ → Option (Sys ι γ (TimerRings ι) (TimerLog ι))
  | .call c => runTimerCall rule none b c
  | .tick script => do
      let b ← timerCheck (timerCallback rule (runTimerCall rule)) script
        { timers := { b.timers with rtTick := b.timers.rtTick + 1 }, env := .tick :: b.env }
      return { b with env := .tickEnd :: b.env }

def timersFrom (init : Tick) (random : BitVec 32) (timer : ι → RtTimer γ) :
    Sys ι γ (TimerRings ι) (TimerLog ι) where
  timers :=
    { rtTick := init
      randomNr := random
      timer := timer
      timerList := Rings.mark { seq := fun _ => [], live := fun _ => false } timerHead }
  env := []

end Abs

/-! ## Lockstep -/

variable {s : Sys ι γ (TimerLinks ι) (TimerLog ι)} {b : Sys ι γ (TimerRings ι) (TimerLog ι)}

/-- Related timers under the same history. -/
abbrev HistoryRel (s : Sys ι γ (TimerLinks ι) (TimerLog ι))
    (b : Sys ι γ (TimerRings ι) (TimerLog ι)) : Prop :=
  SysRel Eq s b

theorem timerCallAllowed_iff (h : HistoryRel s b) (c : TimerCall ι γ) :
    c.Allowed s.timers ↔ Abs.TimerCallAllowed b.timers c := by
  cases c with
  | init t timeout time flag =>
    exact (next_item_iff h.timers.rep t).trans ⟨fun hf => hf _, fun hf hd => by cases hd; exact hf⟩
  | _ => exact Iff.rfl

theorem note_rel (h : HistoryRel s b) (c : TimerCall ι γ) :
    c.note s.timers s.env = c.note b.timers b.env := by
  cases c <;> simp only [TimerCall.note, h.env, h.timers.timer]

theorem permits_rel (h : HistoryRel s b) (rule : TimerRule ι γ) (firing : Option ι)
    (c : TimerCall ι γ) : rule.permits s.timers firing c = rule.permits b.timers firing c := by
  cases c <;> simp only [TimerRule.permits, h.timers.timer]

theorem execTimerCall_rel [Fintype ι] {k : TimerSys ι γ (TimerLinks ι)}
    {a : TimerSys ι γ (TimerRings ι)} (h : TimerRel k a) {c : TimerCall ι γ}
    (hc : Abs.TimerCallAllowed a c) :
    Option.Rel TimerRel (c.exec k) (Abs.execTimerCall a c) := by
  cases c with
  | init t timeout time flag =>
    exact .some (rtTimerInit_rel h (fun hd => by cases hd; exact hc) timeout time flag)
  | start t => exact rtTimerStart_rel h t
  | stop t => exact Lockstep.map_snd (rtTimerStop_rel h t)
  | control t cmd => exact .some (rtTimerControl_rel h t cmd)
  | detach t => exact rtTimerRemove_rel h t

theorem runTimerCall_rel [Fintype ι] (rule : TimerRule ι γ) (firing : Option ι)
    (h : HistoryRel s b) (c : TimerCall ι γ) :
    Option.Rel HistoryRel (runTimerCall rule firing s c) (Abs.runTimerCall rule firing b c) := by
  unfold runTimerCall Abs.runTimerCall
  refine Lockstep.ite (by rw [timerCallAllowed_iff h, permits_rel h]) (fun hok => ?_) fun _ => .none
  exact Lockstep.bind (execTimerCall_rel h.timers hok.1)
    fun _ _ _ _ h' => .some ⟨h', note_rel h c⟩

theorem noteRestart_rel (rule : TimerRule ι γ) (t : ι) (h : HistoryRel s b) :
    Option.Rel HistoryRel (noteRestart rule t s) (noteRestart rule t b) := by
  unfold noteRestart
  simp only [h.timers.timer]
  refine Lockstep.ite Iff.rfl (fun _ => Lockstep.ite Iff.rfl (fun _ => .some ⟨h.timers, ?_⟩)
    fun _ => .none) fun _ => .some h
  rw [h.env]

theorem timerCallback_rel [Fintype ι] (rule : TimerRule ι γ) (t : ι) (f : γ)
    (calls : List (TimerCall ι γ)) (h : HistoryRel s b) :
    Option.Rel HistoryRel (timerCallback rule (runTimerCall rule) t f calls s)
      (timerCallback rule (Abs.runTimerCall rule) t f calls b) := by
  have h₀ : HistoryRel { s with env := .fire t :: s.env } { b with env := .fire t :: b.env } :=
    ⟨h.timers, by rw [h.env]⟩
  refine Lockstep.bind (Lockstep.foldlM (fun _ => True)
    (fun _ _ c _ h => runTimerCall_rel rule (some t) h c) (fun _ _ _ _ _ => trivial) calls trivial
    h₀) fun _ _ _ _ h₁ => noteRestart_rel rule t h₁

/-- The tick counts and is logged before the check. -/
theorem HistoryRel.tickStart (h : HistoryRel s b) :
    HistoryRel { timers := { s.timers with rtTick := s.timers.rtTick + 1 }, env := .tick :: s.env }
      { timers := { b.timers with rtTick := b.timers.rtTick + 1 }, env := .tick :: b.env } := by
  rw [h.timers.rtTick, h.env]
  exact ⟨h.timers.setTick _, rfl⟩

theorem execTimerOp_rel [Fintype ι] (rule : TimerRule ι γ) (h : HistoryRel s b)
    (op : TimerOp ι γ) :
    Option.Rel HistoryRel (op.exec rule s) (Abs.execTimerOp rule b op) := by
  cases op with
  | call c => exact runTimerCall_rel rule none h c
  | tick script =>
    have hcheck := rtTimerCheck_rel (fun _ => True)
      (fun _ t f c _ _ _ _ _ h₁ => timerCallback_rel rule t f c h₁) (fun _ _ _ _ _ _ _ => trivial)
      script _ _ trivial h.tickStart
    exact Lockstep.bind hcheck fun _ _ _ _ h₁ => .some ⟨h₁.timers, by rw [h₁.env]⟩

theorem timersFrom_rel (init : Tick) (random : BitVec 32) (timer : ι → RtTimer γ) :
    HistoryRel (timersFrom init random timer) (Abs.timersFrom init random timer) :=
  ⟨.mk (Abs.timersFrom init random timer).timers _
    (null_rep.selfLink (.inl ⟨.rtTimerList, rfl, rfl⟩)), rfl⟩

/-- What holds of untouched timers and is kept by every operation holds throughout. -/
theorem TimerReachable.invariant [Fintype ι] {rule : TimerRule ι γ} {init : Tick}
    {I : Sys ι γ (TimerRings ι) (TimerLog ι) → Prop}
    (hinit : ∀ random timer, I (Abs.timersFrom init random timer))
    (hstep : ∀ b op b', b.timers.timerList.Valid → I b → Abs.execTimerOp rule b op = some b' → I b')
    (hs : TimerReachable rule init s) : ∃ b, HistoryRel s b ∧ I b := by
  obtain ⟨random, timer, hrun⟩ := hs
  refine Run.invariant (I := fun s => ∃ b, HistoryRel s b ∧ I b) (fun s op s' hI _ hs => ?_)
    ⟨_, timersFrom_rel init random timer, hinit random timer⟩ hrun
  obtain ⟨b, h, hI⟩ := hI
  obtain ⟨b', hb', h'⟩ := Lockstep.exists_of_left (execTimerOp_rel rule h op) hs
  exact ⟨b', h', hstep b op b' h.timers.rep.valid hI hb'⟩

end History

end SampleRtos
