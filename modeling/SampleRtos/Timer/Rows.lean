import SampleRtos.Timer.History

/-!
# timer.c with more than one row

`RT_TIMER_SKIP_LIST_LEVEL` may be defined before rtdef.h defines it as 1, and so may
`RT_TIMER_SKIP_LIST_MASK`. Here are the functions of timer.c that depend on them, for
any number `L` of levels and any mask: a timer has a node in each of `L` rows, every
timer that is linked is linked in the bottom row, and a start goes down from row to row.
-/

namespace SampleRtos

open Intrusive

namespace SkipList
variable {ι γ E : Type}

/-- `rt_timer_list[r]` is `head r`, and `row[r]` of `t` is `item (t, r)`. -/
abbrev RowNode (ι : Type) := Node Nat (ι × Nat)

abbrev RowLinks (ι : Type) := Links (RowNode ι)

/-- `row + 1`, the node in the row below that the same timer or `rt_timer_list` has. -/
def below : RowNode ι → RowNode ι
  | .head r => .head (r + 1)
  | .item (t, r) => .item (t, r + 1)

/-- `rt_list_entry` with `row[r]`. -/
def rtTimerEntry (r : Nat) : RowNode ι → Option ι
  | .head _ => none
  | .item (t, r') => if r' = r then some t else none

section Timers
variable [DecidableEq ι]

def rtSystemTimerInit (L : Nat) (k : TimerSys ι γ (RowLinks ι)) : TimerSys ι γ (RowLinks ι) :=
  { k with timerList := (List.range L).foldl (fun l i => rtListInit l (.head i)) k.timerList }

/-- `_rt_timer_init`. -/
def rtTimerInit (L : Nat) (k : TimerSys ι γ (RowLinks ι)) (t : ι) (timeout : Option γ)
    (time : Tick) (flag : BitVec 8) : TimerSys ι γ (RowLinks ι) :=
  let k := k.setTimer t
    { flag := flag &&& ~~~RT_TIMER_FLAG_ACTIVATED, timeoutFunc := timeout, initTick := time,
      timeoutTick := 0 }
  { k with timerList := (List.range L).foldl (fun l i => rtListInit l (.item (t, i))) k.timerList }

/-- `_rt_timer_remove`. -/
def rtTimerRemove (L : Nat) (k : TimerSys ι γ (RowLinks ι)) (t : ι) :
    Option (TimerSys ι γ (RowLinks ι)) := do
  let l ← (List.range L).foldlM (fun l i => rtListRemove l (.item (t, i))) k.timerList
  return { k with timerList := l }

def rtTimerStop (L : Nat) (k : TimerSys ι γ (RowLinks ι)) (t : ι) :
    Option (Int × TimerSys ι γ (RowLinks ι)) := do
  if ¬ (k.timer t).activated then return (-RT_ERROR, k)
  let k ← rtTimerRemove L k t
  return (RT_EOK, k.deactivate t)

def rtTimerDetach (L : Nat) (k : TimerSys ι γ (RowLinks ι)) (t : ι) :
    Option (TimerSys ι γ (RowLinks ι)) :=
  rtTimerRemove L k t

/-! ## Starting -/

/-- The inner loop of the search, in row `r` from `row` on. -/
def rtTimerSearchRow (k : TimerSys ι γ (RowLinks ι)) (t : ι) (r : Nat) :
    Nat → RowNode ι → Option (RowNode ι)
  | 0, _ => none
  | fuel + 1, row =>
      if some row = k.timerList.prev (.head r) then some row
      else do
        let p ← k.timerList.next row
        let u ← rtTimerEntry r p
        if (k.timer t).precedes (k.timer u) then return row
        rtTimerSearchRow k t r fuel p

/-- The loop over `row_lvl`, `n` rows from row `r` on, the first of them from `row` on.
What it returns is `row_head` from `row_head[r]` on; what would lie below the last row
is used by no pass. -/
def rtTimerSearch [Fintype ι] (k : TimerSys ι γ (RowLinks ι)) (t : ι) :
    Nat → Nat → RowNode ι → Option (List (RowNode ι))
  | 0, _, _ => some []
  | n + 1, r, row => do
      let row ← rtTimerSearchRow k t r (Fintype.card ι + 1) row
      let rows ← rtTimerSearch k t n (r + 1) (below row)
      return row :: rows

/-- The loop that links the timer into the upper rows too, from row `r - 1` up, until
the bits of `tst_nr` under the mask are not all 0. -/
def rtTimerRaise (mask : BitVec 32) (rowHead : List (RowNode ι)) (t : ι) :
    Nat → BitVec 32 → RowLinks ι → Option (RowLinks ι)
  | 0, _, l => some l
  | r + 1, tstNr, l =>
      if tstNr &&& mask = 0 then do
        let row ← rowHead[r]?
        let l ← rtListInsertAfter l row (.item (t, r))
        rtTimerRaise mask rowHead t r (tstNr >>> ((mask + 1) >>> 1)) l
      else some l

/-- The first masked section of `rt_timer_start`. -/
def rtTimerStartUnlink (L : Nat) (k : TimerSys ι γ (RowLinks ι)) (t : ι) :
    Option (TimerSys ι γ (RowLinks ι)) := do
  let k ← rtTimerRemove L k t
  return k.deactivate t

/-- The second masked section of `rt_timer_start`. -/
def rtTimerStartLink [Fintype ι] (L : Nat) (mask : BitVec 32) (k : TimerSys ι γ (RowLinks ι))
    (t : ι) : Option (TimerSys ι γ (RowLinks ι)) := do
  let rowHead ← rtTimerSearch k t L 0 (.head 0)
  let k := { k with randomNr := k.randomNr + 1 }
  let row ← rowHead[L - 1]?
  let l ← rtListInsertAfter k.timerList row (.item (t, L - 1))
  let l ← rtTimerRaise mask rowHead t (L - 1) k.randomNr l
  let k := { k with timerList := l }
  return k.setTimer t (k.timer t).activate

def rtTimerStart [Fintype ι] (L : Nat) (mask : BitVec 32) (k : TimerSys ι γ (RowLinks ι)) (t : ι) :
    Option (TimerSys ι γ (RowLinks ι)) := do
  let k ← rtTimerStartUnlink L k t
  rtTimerStartLink L mask (rtTimerStartArm k t) t

/-! ## Firing -/

/-- One iteration of `rt_timer_check` on a due timer `t`. -/
def rtTimerFire [Fintype ι] (L : Nat) (mask : BitVec 32)
    (call : ι → γ → Sys ι γ (RowLinks ι) E → Option (Sys ι γ (RowLinks ι) E)) (t : ι)
    (s : Sys ι γ (RowLinks ι) E) : Option (Sys ι γ (RowLinks ι) E) := do
  let k ← rtTimerRemove L s.timers t
  let f ← (k.timer t).timeoutFunc
  let s ← call t f { s with timers := k }
  if (s.timers.timer t).periodic ∧ (s.timers.timer t).activated then
    let k ← rtTimerStart L mask (s.timers.deactivate t) t
    return { s with timers := k }
  else
    return { s with timers := s.timers.deactivate t }

/-- `rt_timer_check`, of at most `fuel` firings. -/
def rtTimerCheck [Fintype ι] (L : Nat) (mask : BitVec 32)
    (call : ι → γ → Sys ι γ (RowLinks ι) E → Option (Sys ι γ (RowLinks ι) E)) :
    Nat → Sys ι γ (RowLinks ι) E → Option (Sys ι γ (RowLinks ι) E)
  | fuel, s =>
      if rtListIsempty s.timers.timerList (.head (L - 1)) then some s
      else do
        let n ← s.timers.timerList.next (.head (L - 1))
        let t ← rtTimerEntry (L - 1) n
        if (s.timers.timer t).due s.timers.rtTick then
          match fuel with
          | 0 => none
          | fuel + 1 => do
              let s ← rtTimerFire L mask call t s
              rtTimerCheck L mask call fuel s
        else return s

/-- `rt_tick_increase`, which fires each timer at most once if it returns. -/
def rtTickIncrease [Fintype ι] (L : Nat) (mask : BitVec 32)
    (slice : Sys ι γ (RowLinks ι) E → Option (Sys ι γ (RowLinks ι) E))
    (call : ι → γ → Sys ι γ (RowLinks ι) E → Option (Sys ι γ (RowLinks ι) E))
    (s : Sys ι γ (RowLinks ι) E) : Option (Sys ι γ (RowLinks ι) E) := do
  let s ← slice { s with timers := { s.timers with rtTick := s.timers.rtTick + 1 } }
  rtTimerCheck L mask call (Fintype.card ι) s

end Timers

/-! ## Runs -/

/-- What `rt_timer_init` is given besides the timer and its name. -/
structure TimerArgs (γ : Type) where
  timeout : γ
  time : Tick
  flag : BitVec 8

inductive RowOp (ι : Type) where
  | start (t : ι)
  | stop (t : ι)
  | detach (t : ι)
  | tick

/-- A callback that calls no timer function. -/
def silent {L : Type} (t : ι) (_ : γ) (s : Sys ι γ L (TimerLog ι)) :
    Option (Sys ι γ L (TimerLog ι)) :=
  some { s with env := .fire t :: s.env }

variable [DecidableEq ι]

def RowOp.exec [Fintype ι] (L : Nat) (mask : BitVec 32) (s : Sys ι γ (RowLinks ι) (TimerLog ι)) :
    RowOp ι → Option (Sys ι γ (RowLinks ι) (TimerLog ι))
  | .start t => do return { s with timers := ← rtTimerStart L mask s.timers t }
  | .stop t => do return { s with timers := ← (rtTimerStop L s.timers t).map Prod.snd }
  | .detach t => do return { s with timers := ← rtTimerDetach L s.timers t }
  | .tick => rtTickIncrease L mask (fun s => some { s with env := .tick :: s.env }) silent s

/-- The timers `ts` after `rt_system_timer_init` and `rt_timer_init`, with `rt_tick` and
`random_nr` anywhere. -/
def rowTimers (L : Nat) (init : Tick) (random : BitVec 32) (args : ι → TimerArgs γ)
    (ts : List ι) : Sys ι γ (RowLinks ι) (TimerLog ι) where
  timers := ts.foldl
    (fun k t => rtTimerInit L k t (some (args t).timeout) (args t).time (args t).flag)
    (rtSystemTimerInit L
      { rtTick := init
        randomNr := random
        timer := fun _ => { flag := 0, timeoutFunc := none, initTick := 0, timeoutTick := 0 }
        timerList := { next := fun _ => none, prev := fun _ => none } })
  env := []

/-- A run of `ops` with `L` rows. -/
def runRows [Fintype ι] (L : Nat) (mask : BitVec 32) (ops : List (RowOp ι))
    (s : Sys ι γ (RowLinks ι) (TimerLog ι)) : Option (Sys ι γ (RowLinks ι) (TimerLog ι)) :=
  ops.foldlM (RowOp.exec L mask) s

/-- The timers in row `r`, read along its links. -/
def row [Fintype ι] (k : TimerSys ι γ (RowLinks ι)) (r : Nat) : List ι :=
  (k.timerList.read (Fintype.card ι) (.head r)).map Prod.fst

end SkipList

end SampleRtos
