import SampleRtos.Service.List
import Mathlib.Data.Fintype.Card

/-!
# timer.c: the hard timers

The timer list, its operations and the loop that fires what is due, with the
timers `ι` linked through their `row` nodes. `RT_TIMER_SKIP_LIST_LEVEL` is 1 in
this configuration, so a timer has one row node, there is one list head, the
row loop of `rt_timer_start` runs once and its loop over upper rows never.
Everything here runs to completion, so the interrupt masking of the source
brackets nothing that could change in between.
-/

namespace SampleRtos

open Intrusive

abbrev Tick := BitVec 32

/-! ## rtdef.h -/

def RT_TICK_MAX : Tick := 0xffffffff

def RT_EOK : Int := 0
def RT_ERROR : Int := 1
def RT_ETIMEOUT : Int := 2

def RT_TIMER_FLAG_ACTIVATED : BitVec 8 := 0x1
def RT_TIMER_FLAG_PERIODIC : BitVec 8 := 0x2

/-- `RT_TIMER_FLAG_ONE_SHOT`. -/
def RT_TIMER_FLAG_ONE_SHOT : BitVec 8 := 0x0

/-- The commands of `rt_timer_control` with their argument. -/
inductive TimerCtrl where
  | setTime (tick : Tick)
  | getTime
  | setOneshot
  | setPeriodic
  deriving DecidableEq, Repr

/-- `struct rt_timer` without its object header's name and list node and without
`row`, whose links are kept by node. `timeoutFunc` is the callback together with
its parameter, `none` the null pointer. -/
structure RtTimer (γ : Type) where
  flag : BitVec 8
  timeoutFunc : Option γ
  initTick : Tick
  timeoutTick : Tick

/-- The head `rt_timer_list[0]`. -/
inductive TimerHead where
  | rtTimerList
  deriving DecidableEq, Repr

/-- The timer part of the kernel state: `rt_tick`, the static `random_nr`, the
timers and, in `timerList`, the store of their row links. -/
structure TimerSys (ι γ L : Type) where
  rtTick : Tick
  randomNr : BitVec 32
  timer : ι → RtTimer γ
  timerList : L

/-- Timers together with whatever else their callbacks act on. -/
structure Sys (ι γ L E : Type) where
  timers : TimerSys ι γ L
  env : E

abbrev TimerLinks (ι : Type) := Links (Node TimerHead ι)

abbrev timerHead {ι : Type} : Node TimerHead ι := .head .rtTimerList

/-! ## Single timers -/

namespace RtTimer
variable {γ : Type}

def activated (t : RtTimer γ) : Prop := t.flag &&& RT_TIMER_FLAG_ACTIVATED ≠ 0

def periodic (t : RtTimer γ) : Prop := t.flag &&& RT_TIMER_FLAG_PERIODIC ≠ 0

instance (t : RtTimer γ) : Decidable t.activated := inferInstanceAs (Decidable (_ ≠ _))
instance (t : RtTimer γ) : Decidable t.periodic := inferInstanceAs (Decidable (_ ≠ _))

/-- `flag &= ~RT_TIMER_FLAG_ACTIVATED`. -/
def deactivate (t : RtTimer γ) : RtTimer γ :=
  { t with flag := t.flag &&& ~~~RT_TIMER_FLAG_ACTIVATED }

/-- `flag |= RT_TIMER_FLAG_ACTIVATED`. -/
def activate (t : RtTimer γ) : RtTimer γ :=
  { t with flag := t.flag ||| RT_TIMER_FLAG_ACTIVATED }

/-- The test of `rt_timer_check`: the deadline lies less than half the tick
range in the past. -/
def due (now : Tick) (t : RtTimer γ) : Prop :=
  now - t.timeoutTick < RT_TICK_MAX / 2

instance (now : Tick) (t : RtTimer γ) : Decidable (t.due now) :=
  inferInstanceAs (Decidable (_ < _))

/-- The test that ends the search of `rt_timer_start`: `t` is put before the
first timer whose deadline differs from its own and lies less than half the
tick range after it. -/
def precedes (t u : RtTimer γ) : Prop :=
  u.timeoutTick - t.timeoutTick ≠ 0 ∧ u.timeoutTick - t.timeoutTick < RT_TICK_MAX / 2

instance (t u : RtTimer γ) : Decidable (t.precedes u) :=
  inferInstanceAs (Decidable (_ ∧ _))

/-- The switch of `rt_timer_control`; `GET_TIME` stores nothing in the timer. -/
def control (t : RtTimer γ) : TimerCtrl → RtTimer γ
  | .setTime tick => { t with initTick := tick }
  | .getTime => t
  | .setOneshot => { t with flag := t.flag &&& ~~~RT_TIMER_FLAG_PERIODIC }
  | .setPeriodic => { t with flag := t.flag ||| RT_TIMER_FLAG_PERIODIC }

end RtTimer

/-! ## The timer operations -/

section Timers
variable {ι γ L E : Type} [DecidableEq ι]

namespace TimerSys

def setTimer (k : TimerSys ι γ L) (t : ι) (r : RtTimer γ) : TimerSys ι γ L :=
  { k with timer := Function.update k.timer t r }

def deactivate (k : TimerSys ι γ L) (t : ι) : TimerSys ι γ L :=
  k.setTimer t (k.timer t).deactivate

/-- `rt_timer_control`, which always returns `RT_EOK`. -/
def rtTimerControl (k : TimerSys ι γ L) (t : ι) (cmd : TimerCtrl) : TimerSys ι γ L :=
  k.setTimer t ((k.timer t).control cmd)

end TimerSys

/-- `rt_list_entry` on a node of the timer list: only a row node is a timer. -/
def rtTimerEntry (n : Node TimerHead ι) : Option ι :=
  match n with
  | .head _ => none
  | .item t => some t

/-- `rt_system_timer_init`. -/
def rtSystemTimerInit (k : TimerSys ι γ (TimerLinks ι)) : TimerSys ι γ (TimerLinks ι) :=
  { k with timerList := rtListInit k.timerList timerHead }

/-- `rt_timer_init` after its object registration: `_rt_timer_init`. -/
def rtTimerInit (k : TimerSys ι γ (TimerLinks ι)) (t : ι) (timeout : Option γ) (time : Tick)
    (flag : BitVec 8) : TimerSys ι γ (TimerLinks ι) :=
  -- the deadline is left for the start to compute
  let k := k.setTimer t
    { flag := flag &&& ~~~RT_TIMER_FLAG_ACTIVATED, timeoutFunc := timeout, initTick := time,
      timeoutTick := 0 }
  { k with timerList := rtListInit k.timerList (.item t) }

/-- `_rt_timer_remove`. -/
def rtTimerRemove (k : TimerSys ι γ (TimerLinks ι)) (t : ι) :
    Option (TimerSys ι γ (TimerLinks ι)) := do
  let l ← rtListRemove k.timerList (.item t)
  return { k with timerList := l }

/-- `rt_timer_stop`: only an activated timer is stopped. -/
def rtTimerStop (k : TimerSys ι γ (TimerLinks ι)) (t : ι) :
    Option (Int × TimerSys ι γ (TimerLinks ι)) := do
  if ¬ (k.timer t).activated then return (-RT_ERROR, k)
  let k ← rtTimerRemove k t
  return (RT_EOK, k.deactivate t)

/-- `rt_timer_detach` before its object is detached. -/
def rtTimerDetach (k : TimerSys ι γ (TimerLinks ι)) (t : ι) :
    Option (TimerSys ι γ (TimerLinks ι)) :=
  -- the activation flag stays as it is
  rtTimerRemove k t

/-- The search of `rt_timer_start` for the row node to insert after, from `row`
on. A walk of more steps than there are timers is going round for ever. -/
def rtTimerSearch (k : TimerSys ι γ (TimerLinks ι)) (t : ι) :
    Nat → Node TimerHead ι → Option (Node TimerHead ι)
  | 0, _ => none
  | fuel + 1, row =>
      if some row = k.timerList.prev timerHead then some row
      else do
        let p ← k.timerList.next row
        let u ← rtTimerEntry p
        if (k.timer t).precedes (k.timer u) then return row
        rtTimerSearch k t fuel p

/-- The first masked section of `rt_timer_start`. -/
def rtTimerStartUnlink (k : TimerSys ι γ (TimerLinks ι)) (t : ι) :
    Option (TimerSys ι γ (TimerLinks ι)) := do
  let k ← rtTimerRemove k t
  return k.deactivate t

/-- `timeout_tick = rt_tick_get() + init_tick`, computed unmasked. -/
def rtTimerStartArm (k : TimerSys ι γ L) (t : ι) : TimerSys ι γ L :=
  k.setTimer t { k.timer t with timeoutTick := k.rtTick + (k.timer t).initTick }

/-- The second masked section of `rt_timer_start`. -/
def rtTimerStartLink [Fintype ι] (k : TimerSys ι γ (TimerLinks ι)) (t : ι) :
    Option (TimerSys ι γ (TimerLinks ι)) := do
  let row ← rtTimerSearch k t (Fintype.card ι + 1) timerHead
  -- drawn for the upper rows, of which there are none
  let k := { k with randomNr := k.randomNr + 1 }
  let l ← rtListInsertAfter k.timerList row (.item t)
  let k := { k with timerList := l }
  return k.setTimer t (k.timer t).activate

/-- `rt_timer_start`, which always returns `RT_EOK`. -/
def rtTimerStart [Fintype ι] (k : TimerSys ι γ (TimerLinks ι)) (t : ι) :
    Option (TimerSys ι γ (TimerLinks ι)) := do
  let k ← rtTimerStartUnlink k t
  rtTimerStartLink (rtTimerStartArm k t) t

/-! ## Firing -/

/-- One iteration of `rt_timer_check` on a due timer `t`: unlink it, run its
callback, restart it if it is periodic and still activated. What a callback
does is up to `call`, given the timer, its callback and a script `c`. -/
def rtTimerFire {κ : Type} [Fintype ι]
    (call : ι → γ → κ → Sys ι γ (TimerLinks ι) E → Option (Sys ι γ (TimerLinks ι) E))
    (c : κ) (t : ι) (s : Sys ι γ (TimerLinks ι) E) : Option (Sys ι γ (TimerLinks ι) E) := do
  let k ← rtTimerRemove s.timers t
  let f ← (k.timer t).timeoutFunc
  let s ← call t f c { s with timers := k }
  -- the flag as the callback leaves it: a timer stopped there stays stopped, one detached
  -- there is started again
  if (s.timers.timer t).periodic ∧ (s.timers.timer t).activated then
    let k ← rtTimerStart (s.timers.deactivate t) t
    return { s with timers := k }
  else
    return { s with timers := s.timers.deactivate t }

/-- `rt_timer_check`. The script lists what the callbacks do, one entry for each
timer that fires; a script too short for the timers that are due describes no
complete run. -/
def rtTimerCheck {κ : Type} [Fintype ι]
    (call : ι → γ → κ → Sys ι γ (TimerLinks ι) E → Option (Sys ι γ (TimerLinks ι) E)) :
    List κ → Sys ι γ (TimerLinks ι) E → Option (Sys ι γ (TimerLinks ι) E)
  | script, s =>
      if rtListIsempty s.timers.timerList timerHead then some s
      else do
        let n ← s.timers.timerList.next timerHead
        let t ← rtTimerEntry n
        if (s.timers.timer t).due s.timers.rtTick then
          match script with
          | [] => none
          | c :: script => do
              let s ← rtTimerFire call c t s
              rtTimerCheck call script s
        else return s

/-- `rt_tick_increase`: advance the tick, charge the current thread's slice
(`slice`), fire what is due. -/
def rtTickIncrease {κ : Type} [Fintype ι]
    (slice : Sys ι γ (TimerLinks ι) E → Option (Sys ι γ (TimerLinks ι) E))
    (call : ι → γ → κ → Sys ι γ (TimerLinks ι) E → Option (Sys ι γ (TimerLinks ι) E))
    (script : List κ) (s : Sys ι γ (TimerLinks ι) E) : Option (Sys ι γ (TimerLinks ι) E) := do
  let s ← slice { s with timers := { s.timers with rtTick := s.timers.rtTick + 1 } }
  rtTimerCheck call script s

end Timers

end SampleRtos
