import SampleRtos.Lib.HalfRange
import SampleRtos.Lib.StableOrder
import SampleRtos.Timer.History

/-!
# The timer list and the history

As long as every start is made for at least one tick and for less than half the
tick range, and callbacks leave the timer that is firing alone, each timer fires
in the tick its last start asked for, and timers due together fire in the order
in which they were started. The timer list is kept in the order of the ticks
left, and among equals in the order of the starts; a difference of two deadlines
tells that order although `rt_tick` wraps.
-/

namespace SampleRtos

open Intrusive HalfRange StableOrder

section Timely
variable {ι γ : Type} [DecidableEq ι]

/-- What an event must find in the history before it. A timer fires inside a tick,
when the time of its last start has come, after all that were started before it
and have fired in the same tick; no tick ends with a timer due at it. -/
def OnTime (init : Tick) (log : TimerLog ι) : TimerEvent ι → Prop
  | .fire t => ticking log = true ∧ ∃ a ∈ running init log t, clock init log = a.due ∧
      ∀ i ∈ firedNow init log, i < a.serial
  | .tickEnd => ∀ t, ∀ a ∈ running init log t, clock init log ≠ a.due
  | _ => True

/-- Starts for at least one tick and less than half the range; callbacks of a timer
that leave it alone. -/
def punctual : TimerRule ι γ where
  start n := decide (1 ≤ n ∧ n < RT_TICK_MAX / 2)
  callback t c := decide (c.timer ≠ t)

/-- Half the range of `rt_tick`, as the timers compare it. -/
def halfRange : Nat := (RT_TICK_MAX / 2).toNat

theorem two_mul_halfRange : 2 * halfRange ≤ 2 ^ 32 := by decide

/-- The ticks left until the deadline of `t`. -/
def remaining {L : Type} (k : TimerSys ι γ L) (t : ι) : Nat :=
  ahead k.rtTick (k.timer t).timeoutTick

/-- When `t` was started. -/
def serial (init : Tick) (log : TimerLog ι) (t : ι) : Nat :=
  ((running init log t).map (·.serial)).getD 0

variable {init : Tick} {b b' b'' : Sys ι γ (TimerRings ι) (TimerLog ι)} {log : TimerLog ι} {t : ι}

theorem serial_eq {a : TimerStart} (ha : a ∈ running init log t) :
    serial init log t = a.serial := by
  rw [serial, Option.mem_def.mp ha]
  rfl

/-- Every start of a history lies inside it. -/
theorem running_serial_lt : ∀ {log : TimerLog ι} {a : TimerStart}, a ∈ running init log t →
    a.serial < log.length := by
  intro log
  induction log with
  | nil => intro a ha; cases ha
  | cons e log ih =>
    intro a ha
    cases e with
    | start u n =>
      simp only [running] at ha
      split at ha
      · cases ha; simp
      · exact Nat.lt_succ_of_lt (ih ha)
    | tick => exact Nat.lt_succ_of_lt (ih ha)
    | tickEnd => exact Nat.lt_succ_of_lt (ih ha)
    | _ =>
      simp only [running] at ha
      split at ha
      · cases ha
      · exact Nat.lt_succ_of_lt (ih ha)

/-! ## The invariant -/

/-- The timer list of `b` agrees with the history, and the history so far was on time. -/
structure Timely (init : Tick) (b : Sys ι γ (TimerRings ι) (TimerLog ι)) : Prop where
  valid : b.timers.timerList.Valid
  head : b.timers.timerList.live timerHead = true
  clock : clock init b.env = b.timers.rtTick
  linked : ∀ t, t ∈ b.timers.queue ↔ (running init b.env t).isSome
  deadline : ∀ t, ∀ a ∈ running init b.env t, (b.timers.timer t).timeoutTick = a.due
  activated : ∀ t ∈ b.timers.queue, (b.timers.timer t).activated
  soon : ∀ t ∈ b.timers.queue, remaining b.timers t < halfRange
  sorted : b.timers.queue.Pairwise (Before (remaining b.timers) (serial init b.env))
  onTime : ∀ e log, e :: log <:+ b.env → OnTime init log e

/-- Outside a tick no linked timer is due. -/
def Resting (b : Sys ι γ (TimerRings ι) (TimerLog ι)) : Prop :=
  ∀ t ∈ b.timers.queue, remaining b.timers t ≠ 0

/-- Inside a tick, what is still due was started after what has fired. -/
structure Firing (init : Tick) (b : Sys ι γ (TimerRings ι) (TimerLog ι)) : Prop where
  ticking : ticking b.env = true
  later : ∀ i ∈ firedNow init b.env, ∀ t ∈ b.timers.queue, remaining b.timers t = 0 →
    i < serial init b.env t

/-- Nothing has become due and nothing has fired. -/
structure Steady (init : Tick) (b b' : Sys ι γ (TimerRings ι) (TimerLog ι)) : Prop where
  ticking : ticking b'.env = ticking b.env
  fired : firedNow init b'.env = firedNow init b.env
  due : ∀ t ∈ b'.timers.queue, remaining b'.timers t = 0 →
    t ∈ b.timers.queue ∧ remaining b.timers t = 0 ∧ serial init b'.env t = serial init b.env t

theorem Steady.refl (init : Tick) (b : Sys ι γ (TimerRings ι) (TimerLog ι)) : Steady init b b :=
  ⟨rfl, rfl, fun _ ht hz => ⟨ht, hz, rfl⟩⟩

theorem Steady.trans (h : Steady init b b') (h' : Steady init b' b'') : Steady init b b'' where
  ticking := h'.ticking.trans h.ticking
  fired := h'.fired.trans h.fired
  due t ht hz := by
    obtain ⟨ht', hz', hs'⟩ := h'.due t ht hz
    obtain ⟨ht₀, hz₀, hs₀⟩ := h.due t ht' hz'
    exact ⟨ht₀, hz₀, hs'.trans hs₀⟩

theorem Steady.resting (h : Steady init b b') (hrest : Resting b) : Resting b' := fun t ht hz =>
  have hold := h.due t ht hz
  hrest t hold.1 hold.2.1

theorem Steady.firing (h : Steady init b b') (hf : Firing init b) : Firing init b' where
  ticking := h.ticking.trans hf.ticking
  later i hi t ht hz := by
    obtain ⟨ht₀, hz₀, hs⟩ := h.due t ht hz
    rw [hs]
    exact hf.later i (h.fired ▸ hi) t ht₀ hz₀

namespace Timely

theorem onTime_cons (h : Timely init b) {e : TimerEvent ι} (he : OnTime init b.env e) :
    ∀ e' log, e' :: log <:+ e :: b.env → OnTime init log e' := by
  intro e' log hsuf
  rcases List.suffix_cons_iff.mp hsuf with heq | hsuf
  · cases heq; exact he
  · exact h.onTime e' log hsuf

/-- A timer leaves the list, under an event that says so. -/
theorem leave (h : Timely init b) {m : TimerSys ι γ (TimerRings ι)} {e : TimerEvent ι}
    (hlist : m.timerList = b.timers.timerList.erase t)
    (hother : ∀ u, u ≠ t → m.timer u = b.timers.timer u) (htick : m.rtTick = b.timers.rtTick)
    (hrun : ∀ u, running init (e :: b.env) u = if u = t then none else running init b.env u)
    (hclock : SampleRtos.clock init (e :: b.env) = SampleRtos.clock init b.env)
    (he : OnTime init b.env e) : Timely init { timers := m, env := e :: b.env } := by
  have hmem : ∀ {u}, u ∈ m.queue ↔ u ∈ b.timers.queue ∧ u ≠ t := by
    intro u
    rw [TimerSys.queue, hlist]
    exact TimerSys.mem_others h.valid
  have hrem : ∀ {u}, u ≠ t → remaining m u = remaining b.timers u := fun hu => by
    rw [remaining, remaining, htick, hother _ hu]
  have hser : ∀ {u}, u ≠ t → serial init (e :: b.env) u = serial init b.env u := fun hu => by
    rw [serial, serial, hrun, if_neg hu]
  constructor
  · rw [hlist]; exact h.valid.erase t
  · rw [hlist]; exact h.head
  · exact hclock.trans (h.clock.trans htick.symm)
  · intro u
    simp only [hmem, hrun, h.linked]
    by_cases hu : u = t <;> simp [hu]
  · intro u a ha
    rw [hrun] at ha
    split at ha
    · cases ha
    · rename_i hu
      rw [hother u hu]
      exact h.deadline u a ha
  · intro u hu
    rw [hother u (hmem.mp hu).2]
    exact h.activated u (hmem.mp hu).1
  · intro u hu
    rw [hrem (hmem.mp hu).2]
    exact h.soon u (hmem.mp hu).1
  · have hsub : m.queue.Sublist b.timers.queue := by
      rw [TimerSys.queue, hlist]
      exact List.erase_sublist
    exact pairwise_congr (fun u hu => hrem (hmem.mp hu).2) (fun u hu => hser (hmem.mp hu).2)
      (h.sorted.sublist hsub)
  · exact h.onTime_cons he

theorem leaves (h : Timely init b) {m : TimerSys ι γ (TimerRings ι)} {e : TimerEvent ι}
    (hlist : m.timerList = b.timers.timerList.erase t)
    (hother : ∀ u, u ≠ t → m.timer u = b.timers.timer u) (htick : m.rtTick = b.timers.rtTick)
    (hrun : ∀ u, running init (e :: b.env) u = if u = t then none else running init b.env u)
    (hclock : SampleRtos.clock init (e :: b.env) = SampleRtos.clock init b.env)
    (he : OnTime init b.env e) (hticking : SampleRtos.ticking (e :: b.env) = ticking b.env)
    (hfired : firedNow init (e :: b.env) = firedNow init b.env) :
    Timely init { timers := m, env := e :: b.env } ∧
      Steady init b { timers := m, env := e :: b.env } := by
  refine ⟨h.leave hlist hother htick hrun hclock he, ⟨hticking, hfired, fun u hu hz => ?_⟩⟩
  have hmem : u ∈ b.timers.queue ∧ u ≠ t := by
    rw [TimerSys.queue, hlist] at hu
    exact (TimerSys.mem_others h.valid).mp hu
  refine ⟨hmem.1, ?_, ?_⟩
  · rw [← hz, remaining, remaining, htick, hother u hmem.2]
  · rw [serial, serial, hrun, if_neg hmem.2]

/-- Records change, but neither a deadline nor the mark of a linked timer. -/
theorem touch (h : Timely init b) {m : TimerSys ι γ (TimerRings ι)} (hvalid : m.timerList.Valid)
    (hhead : m.timerList.live timerHead = true) (hqueue : m.queue = b.timers.queue)
    (htick : m.rtTick = b.timers.rtTick)
    (htimer : ∀ u ∈ b.timers.queue, (m.timer u).timeoutTick = (b.timers.timer u).timeoutTick ∧
      (m.timer u).activated) : Timely init { b with timers := m } := by
  have hrem : ∀ u ∈ b.timers.queue, remaining m u = remaining b.timers u := fun u hu => by
    rw [remaining, remaining, htick, (htimer u hu).1]
  refine ⟨hvalid, hhead, h.clock.trans htick.symm, fun u => ?_, fun u a ha => ?_, fun u hu => ?_,
    fun u hu => ?_, ?_, h.onTime⟩
  · rw [hqueue]; exact h.linked u
  · rw [(htimer u ((h.linked u).mpr (Option.isSome_of_mem ha))).1]
    exact h.deadline u a ha
  · rw [hqueue] at hu; exact (htimer u hu).2
  · rw [hqueue] at hu
    rw [hrem u hu]
    exact h.soon u hu
  · simp only [hqueue]
    exact pairwise_congr hrem (fun _ _ => rfl) h.sorted

theorem touch_steady {m : TimerSys ι γ (TimerRings ι)} (hqueue : m.queue = b.timers.queue)
    (htick : m.rtTick = b.timers.rtTick)
    (htimer : ∀ u ∈ b.timers.queue, (m.timer u).timeoutTick = (b.timers.timer u).timeoutTick) :
    Steady init b { b with timers := m } where
  ticking := rfl
  fired := rfl
  due u hu hz := by
    rw [hqueue] at hu
    refine ⟨hu, ?_, rfl⟩
    rw [← hz, remaining, remaining, htick, htimer u hu]

end Timely

/-! ## Starting -/

/-- The test that ends the search of `rt_timer_start`, in ticks left. -/
theorem precedes_iff {r r' : RtTimer γ} {now : Tick} (hr : ahead now r.timeoutTick < halfRange)
    (hr' : ahead now r'.timeoutTick < halfRange) :
    r.precedes r' ↔ ahead now r.timeoutTick < ahead now r'.timeoutTick :=
  sub_lt_half two_mul_halfRange hr hr'

/-- The test of `rt_timer_check`, in ticks left. -/
theorem due_iff {r : RtTimer γ} {now : Tick} (hr : ahead now r.timeoutTick < halfRange) :
    r.due now ↔ ahead now r.timeoutTick = 0 :=
  past_lt_half two_mul_halfRange hr

section Start
variable {m : TimerSys ι γ (TimerRings ι)} {n : Tick} {xs ys : List ι}

theorem Started.remaining_self (hm : Started b.timers m t xs ys) :
    remaining m t = (b.timers.timer t).initTick.toNat := by
  rw [remaining, hm.self, hm.rtTick]
  exact ahead_add _ _

theorem Started.remaining_other (hm : Started b.timers m t xs ys) {u : ι} (hut : u ≠ t) :
    remaining m u = remaining b.timers u := by
  rw [remaining, remaining, hm.rtTick, hm.other u hut]

theorem running_start_self (log : TimerLog ι) : running init (.start t n :: log) t =
    some ⟨clock init log, n, log.length⟩ := by
  rw [running, if_pos rfl]

theorem running_start_other {log : TimerLog ι} {u : ι} (hut : u ≠ t) :
    running init (.start t n :: log) u = running init log u := by
  rw [running, if_neg hut]

/-- The search ends where the timer has fewer ticks left than what comes next. -/
theorem Timely.start_precedes (h : Timely init b) (hm : Started b.timers m t xs ys)
    (hlt : (b.timers.timer t).initTick < RT_TICK_MAX / 2) {u : ι} (hu : u ∈ xs ++ ys) :
    ((b.timers.timer t).started b.timers.rtTick).precedes (b.timers.timer u) ↔
      remaining m t < remaining m u := by
  obtain ⟨hq, hut⟩ := hm.mem_rest.mp hu
  have hself := hm.remaining_self
  rw [remaining, hm.self, hm.rtTick] at hself
  have hsoon : ahead b.timers.rtTick ((b.timers.timer t).started b.timers.rtTick).timeoutTick <
      halfRange := by
    rw [hself]
    exact hlt
  rw [precedes_iff hsoon (h.soon u hq), hm.remaining_other hut, remaining, hm.self, hm.rtTick]
  rfl

/-- The timer comes behind all with as many ticks left, started before it. -/
theorem Timely.start_sorted (h : Timely init b) (hm : Started b.timers m t xs ys)
    (hlt : (b.timers.timer t).initTick < RT_TICK_MAX / 2) :
    m.queue.Pairwise (Before (remaining m) (serial init (.start t n :: b.env))) := by
  have hsorted : (xs ++ ys).Pairwise
      (Before (remaining m) (serial init (.start t n :: b.env))) := by
    refine pairwise_congr (fun u hu => hm.remaining_other (hm.mem_rest.mp hu).2) (fun u hu => ?_)
      (h.sorted.sublist hm.sublist)
    rw [serial, serial, running_start_other (hm.mem_rest.mp hu).2]
  rw [hm.queue]
  refine pairwise_insert hsorted (fun u hu => ?_) (fun u hu => ?_) fun u hu => ?_
  · have hnot := hm.passed u hu
    rw [h.start_precedes hm hlt (List.mem_append_left _ hu)] at hnot
    omega
  · have hmem : u ∈ xs ++ ys := List.mem_append_right _ (List.mem_of_mem_head? hu)
    exact (h.start_precedes hm hlt hmem).mp (hm.reached u hu)
  · obtain ⟨hq, hut⟩ := hm.mem_rest.mp hu
    obtain ⟨a, ha⟩ := Option.isSome_iff_exists.mp ((h.linked u).mp hq)
    rw [serial, running_start_other hut, serial, running_start_self, ha]
    exact running_serial_lt ha

/-- A start for `1 ≤ n < RT_TICK_MAX / 2` ticks puts the timer where it belongs. -/
theorem Timely.start (h : Timely init b) (hn : n = (b.timers.timer t).initTick) (hpos : 1 ≤ n)
    (hlt : n < RT_TICK_MAX / 2) (hstart : Abs.timerStart b.timers t = some m) :
    Timely init { timers := m, env := .start t n :: b.env } ∧
      Steady init b { timers := m, env := .start t n :: b.env } := by
  obtain ⟨xs, ys, hm⟩ := Abs.timerStart_started h.valid hstart
  subst hn
  have hself := hm.remaining_self
  refine ⟨?_, ⟨rfl, rfl, fun u hu hz => ?_⟩⟩
  · constructor
    · exact hm.valid_after
    · rw [hm.live]; exact h.head
    · exact h.clock.trans hm.rtTick.symm
    · intro u
      rw [hm.mem_queue]
      by_cases hut : u = t
      · subst hut; simp [running_start_self]
      · simp [hut, running_start_other hut, h.linked u]
    · intro u a ha
      by_cases hut : u = t
      · subst hut
        rw [Option.mem_def, running_start_self] at ha
        cases ha
        rw [hm.self, TimerStart.due, h.clock]
        rfl
      · rw [running_start_other hut] at ha
        rw [hm.other u hut]
        exact h.deadline u a ha
    · intro u hu
      by_cases hut : u = t
      · subst hut
        rw [hm.self]
        exact RtTimer.started_activated _ _
      · rw [hm.other u hut]
        exact h.activated u ((hm.mem_queue.mp hu).resolve_left hut)
    · intro u hu
      by_cases hut : u = t
      · subst hut
        rw [hself]
        exact hlt
      · rw [hm.remaining_other hut]
        exact h.soon u ((hm.mem_queue.mp hu).resolve_left hut)
    · exact h.start_sorted hm hlt
    · exact h.onTime_cons trivial
  · -- the timer itself is not due, so what is due was so before
    have hut : u ≠ t := by
      rintro rfl
      rw [hself] at hz
      exact absurd hz (Nat.ne_of_gt (show 1 ≤ (b.timers.timer u).initTick.toNat from hpos))
    refine ⟨(hm.mem_queue.mp hu).resolve_left hut, hm.remaining_other hut ▸ hz, ?_⟩
    rw [serial, serial, running_start_other hut]

end Start

/-! ## Calls -/

theorem control_flags (r : RtTimer γ) (cmd : TimerCtrl) :
    (r.control cmd).timeoutTick = r.timeoutTick ∧ ((r.control cmd).activated ↔ r.activated) := by
  have hbits : ∀ f : BitVec 8,
      (f &&& ~~~RT_TIMER_FLAG_PERIODIC) &&& RT_TIMER_FLAG_ACTIVATED =
          f &&& RT_TIMER_FLAG_ACTIVATED ∧
        (f ||| RT_TIMER_FLAG_PERIODIC) &&& RT_TIMER_FLAG_ACTIVATED =
          f &&& RT_TIMER_FLAG_ACTIVATED := by
    decide +kernel
  cases cmd <;> simp [RtTimer.control, RtTimer.activated, hbits]

/-- A call keeps the list and the history in agreement and makes nothing due. -/
theorem Timely.call (h : Timely init b) {firing : Option ι} {c : TimerCall ι γ}
    (hrun : Abs.runTimerCall punctual firing b c = some b') :
    Timely init b' ∧ Steady init b b' := by
  unfold Abs.runTimerCall at hrun
  split at hrun
  · rename_i hok
    obtain ⟨m, hexec, hret⟩ := Option.bind_eq_some_iff.mp hrun
    cases hret
    unfold Abs.execTimerCall at hexec
    -- a start links, a stop or a detach unlinks, the rest touch no deadline of a linked timer
    cases c with
    | init t timeout time flag =>
      cases hexec
      have hne : ∀ u ∈ b.timers.queue, u ≠ t := fun u hu hut => hok.1 (hut ▸ hu)
      have htimer : ∀ u ∈ b.timers.queue,
          (Abs.timerInit b.timers t timeout time flag).timer u = b.timers.timer u := fun u hu => by
        simp [Abs.timerInit, TimerSys.setTimer, hne u hu]
      exact ⟨h.touch (h.valid.mark _) (Rings.mark_live_mono h.head) rfl rfl
          fun u hu => ⟨by rw [htimer u hu], by rw [htimer u hu]; exact h.activated u hu⟩,
        Timely.touch_steady rfl rfl fun u hu => by rw [htimer u hu]⟩
    | start t =>
      have hrange := hok.2
      simp only [TimerRule.permits, punctual, Bool.and_eq_true, decide_eq_true_eq] at hrange
      exact h.start rfl hrange.2.1 hrange.2.2 hexec
    | stop t =>
      obtain ⟨e, hstop⟩ := returned_of_map hexec
      refine h.leaves (e := .stop t) ?_ ?_ ?_ (fun _ => rfl) rfl trivial rfl rfl <;>
        rcases Abs.timerStop_spec hstop with ⟨hact, rfl⟩ | ⟨-, -, rfl⟩
      · -- a timer that is not activated is not linked
        refine (Rings.erase_of_free fun hd => ?_).symm
        cases hd
        exact fun ht => hact (h.activated t ht)
      · rfl
      · exact fun _ _ => rfl
      · exact fun u hu => by simp [TimerSys.stopped, hu]
      · rfl
      · rfl
    | control t cmd =>
      cases hexec
      have htimer : ∀ u, ((b.timers.rtTimerControl t cmd).timer u).timeoutTick =
          (b.timers.timer u).timeoutTick ∧
          (((b.timers.rtTimerControl t cmd).timer u).activated ↔
            (b.timers.timer u).activated) := fun u => by
        by_cases hut : u = t
        · subst hut; simpa using control_flags (b.timers.timer u) cmd
        · simp [hut]
      exact ⟨h.touch h.valid h.head rfl rfl
          fun u hu => ⟨(htimer u).1, (htimer u).2.mpr (h.activated u hu)⟩,
        Timely.touch_steady rfl rfl fun u _ => (htimer u).1⟩
    | detach t =>
      obtain ⟨-, rfl⟩ := Abs.timerRemove_eq_some hexec
      exact h.leaves (e := .detach t) rfl (fun _ _ => rfl) rfl (fun _ => rfl) rfl trivial rfl rfl
  · cases hrun

/-! ## Firing -/

/-- A call about another timer leaves `t` as it was. -/
theorem running_note {L : Type} {k : TimerSys ι γ L} {c : TimerCall ι γ} (hc : c.timer ≠ t) :
    running init (c.note k log) t = running init log t := by
  have hne : t ≠ c.timer := Ne.symm hc
  cases c <;> simp_all [TimerCall.note, TimerCall.timer, running]

/-- The calls of a callback that leaves its timer `t` alone. -/
theorem Timely.calls (calls : List (TimerCall ι γ)) :
    ∀ {b b' : Sys ι γ (TimerRings ι) (TimerLog ι)},
    Timely init b → running init b.env t = none →
      calls.foldlM (Abs.runTimerCall punctual (some t)) b = some b' →
      Timely init b' ∧ Steady init b b' ∧ running init b'.env t = none := by
  induction calls with
  | nil => intro b b' h ht hrun; cases hrun; exact ⟨h, .refl init b, ht⟩
  | cons c calls ih =>
    intro b b' h ht hrun
    rw [List.foldlM_cons] at hrun
    obtain ⟨b₁, hc, hrest⟩ := Option.bind_eq_some_iff.mp hrun
    obtain ⟨h₁, hsteady⟩ := h.call hc
    have ht₁ : running init b₁.env t = none := by
      unfold Abs.runTimerCall at hc
      split at hc
      · rename_i hok
        obtain ⟨m, -, hret⟩ := Option.bind_eq_some_iff.mp hc
        cases hret
        have hother := hok.2
        simp only [TimerRule.permits, punctual, Option.all_some, Bool.and_eq_true,
          decide_eq_true_eq] at hother
        rw [running_note hother.1, ht]
      · cases hc
    obtain ⟨h', hsteady', ht'⟩ := ih h₁ ht₁ hrest
    exact ⟨h', hsteady.trans hsteady', ht'⟩

/-- The first timer of the list, found due, is unlinked and fires. -/
theorem Timely.unlink (h : Timely init b) (hf : Firing init b)
    (ht : b.timers.queue.head? = some t) (hdue : (b.timers.timer t).due b.timers.rtTick) :
    Timely init { (b.unlinked t) with env := .fire t :: b.env } ∧
      Firing init { (b.unlinked t) with env := .fire t :: b.env } := by
  have hmem : t ∈ b.timers.queue := List.mem_of_mem_head? ht
  have hzero : remaining b.timers t = 0 := (due_iff (h.soon t hmem)).mp hdue
  obtain ⟨a, ha⟩ := Option.isSome_iff_exists.mp ((h.linked t).mp hmem)
  have hser : serial init b.env t = a.serial := serial_eq ha
  have hother : ∀ {u}, u ∈ (b.unlinked t).timers.queue → u ∈ b.timers.queue ∧ u ≠ t :=
    fun hu => (TimerSys.mem_others h.valid).mp hu
  refine ⟨h.leave rfl (fun _ _ => rfl) rfl (fun _ => rfl) rfl
    ⟨hf.ticking, a, ha, ?_, fun i hi => ?_⟩, hf.ticking, fun i hi u hu hz => ?_⟩
  · rw [h.clock, ← h.deadline t a ha]
    exact ahead_eq_zero.mp hzero
  · rw [← hser]
    exact hf.later i hi t hmem hzero
  · obtain ⟨hu, hut⟩ := hother hu
    rw [serial, running, if_neg hut]
    simp only [firedNow, ha, Option.map_some, Option.toList_some, List.singleton_append,
      List.mem_cons] at hi
    rcases hi with rfl | hi
    · -- `t` stands before every other timer due at this tick
      obtain ⟨ts, hts⟩ := List.head?_eq_some_iff.mp ht
      have hsorted := h.sorted
      rw [hts] at hsorted hu
      have hbefore := (List.pairwise_cons.mp hsorted).1 u (List.mem_of_ne_of_mem hut hu)
      rw [← hser]
      exact hbefore.stamp_lt (by rw [hzero]; exact Nat.le_of_eq hz)
    · exact hf.later i hi u hu hz

/-- **One firing.** After the timer is unlinked nothing more becomes due. -/
theorem Timely.fire (h : Timely init b) (hf : Firing init b) {calls : List (TimerCall ι γ)}
    (ht : b.timers.queue.head? = some t) (hdue : (b.timers.timer t).due b.timers.rtTick)
    (hrun : Abs.timerFire (timerCallback punctual (Abs.runTimerCall punctual)) calls t b =
      some b') :
    Timely init b' ∧ Steady init { (b.unlinked t) with env := .fire t :: b.env } b' := by
  obtain ⟨-, f, b₁, -, hcall, hend⟩ := Abs.timerFire_spec hrun
  obtain ⟨b₂, hcalls, hnote⟩ := Option.bind_eq_some_iff.mp hcall
  obtain ⟨h₀, -⟩ := h.unlink hf ht hdue
  obtain ⟨h₂, hsteady, hnone⟩ := h₀.calls calls (by simp [running]) hcalls
  have hout : ∀ u ∈ b₂.timers.queue, u ≠ t := by
    intro u hu hut
    rw [h₂.linked, hut, hnone] at hu
    cases hu
  -- the mark is taken off a timer that is not linked
  have hrecord : ∀ u ∈ b₂.timers.queue, (b₂.timers.deactivate t).timer u = b₂.timers.timer u :=
    fun u hu => by simp [hout u hu]
  have h₃ : Timely init { b₂ with timers := b₂.timers.deactivate t } :=
    h₂.touch h₂.valid h₂.head rfl rfl
      fun u hu => ⟨by rw [hrecord u hu], by rw [hrecord u hu]; exact h₂.activated u hu⟩
  have hsteady₃ := hsteady.trans (Timely.touch_steady (m := b₂.timers.deactivate t) rfl rfl
    fun u hu => by rw [hrecord u hu])
  unfold noteRestart at hnote
  split at hnote
  · rename_i hagain
    split at hnote
    · rename_i hrange
      cases hnote
      rcases hend with ⟨-, -, hstart, henv⟩ | ⟨hnot, -⟩
      · -- the restart at the end is a start like any other
        simp only [punctual, decide_eq_true_eq] at hrange
        obtain ⟨h₄, hsteady₄⟩ := h₃.start (n := (b₂.timers.timer t).initTick)
          (by simp [RtTimer.deactivate]) hrange.1 hrange.2 hstart
        obtain ⟨m', log'⟩ := b'
        have hlog : log' = .start t (b₂.timers.timer t).initTick :: b₂.env := henv
        subst hlog
        exact ⟨h₄, hsteady₃.trans hsteady₄⟩
      · exact absurd hagain hnot
    · cases hnote
  · rename_i honce
    cases hnote
    rcases hend with ⟨hper, hact, -⟩ | ⟨-, rfl⟩
    · exact absurd ⟨hper, hact⟩ honce
    · exact ⟨h₃, hsteady₃⟩

theorem Timely.firing (h : Timely init b) (hf : Firing init b) {calls : List (TimerCall ι γ)}
    (ht : b.timers.queue.head? = some t) (hdue : (b.timers.timer t).due b.timers.rtTick)
    (hrun : Abs.timerFire (timerCallback punctual (Abs.runTimerCall punctual)) calls t b =
      some b') :
    Timely init b' ∧ Firing init b' :=
  have hfire := h.fire hf ht hdue hrun
  ⟨hfire.1, hfire.2.firing (h.unlink hf ht hdue).2⟩

/-! ## Ticks -/

/-- When the check ends no timer of the list is due. -/
theorem Timely.resting (h : Timely init b) (hq : Quiet b) : Resting b := by
  intro t ht
  cases hqueue : b.timers.queue with
  | nil => simp [hqueue] at ht
  | cons x xs =>
    have hx : x ∈ b.timers.queue := by simp [hqueue]
    have hnot : remaining b.timers x ≠ 0 := fun hz =>
      hq x (by simp [hqueue]) ((due_iff (h.soon x hx)).mpr hz)
    have hsorted := h.sorted
    rw [hqueue] at ht hsorted
    rcases List.mem_cons.mp ht with rfl | ht
    · exact hnot
    · have hle := ((List.pairwise_cons.mp hsorted).1 t ht).key_le
      omega

/-- The tick advances. -/
theorem Timely.tickBegin (h : Timely init b) (hrest : Resting b) :
    let b₀ : Sys ι γ (TimerRings ι) (TimerLog ι) :=
      { timers := { b.timers with rtTick := b.timers.rtTick + 1 }, env := .tick :: b.env }
    Timely init b₀ ∧ Firing init b₀ := by
  intro b₀
  have hrem : ∀ u ∈ b.timers.queue, remaining b₀.timers u + 1 = remaining b.timers u :=
    fun u hu => ahead_succ (hrest u hu)
  refine ⟨⟨h.valid, h.head, ?_, h.linked, h.deadline, h.activated, fun u hu => ?_,
    pairwise_shift hrem h.sorted, h.onTime_cons trivial⟩, rfl,
    fun i hi => by simp [b₀, firedNow] at hi⟩
  · simp [b₀, SampleRtos.clock, h.clock]
  · have hsoon := h.soon u hu
    have := hrem u hu
    omega

/-- The tick is over. -/
theorem Timely.tickEnd (h : Timely init b) (hrest : Resting b) :
    Timely init { b with env := .tickEnd :: b.env } where
  valid := h.valid
  head := h.head
  clock := h.clock
  linked := h.linked
  deadline := h.deadline
  activated := h.activated
  soon := h.soon
  sorted := h.sorted
  onTime := h.onTime_cons fun t a ha hclock => by
    refine hrest t ((h.linked t).mpr (Option.isSome_of_mem ha)) (ahead_eq_zero.mpr ?_)
    rw [← h.clock, h.deadline t a ha]
    exact hclock

/-- **One operation** keeps the timers on time. -/
theorem Timely.exec (h : Timely init b) (hrest : Resting b) {op : TimerOp ι γ}
    (hrun : Abs.execTimerOp punctual b op = some b') : Timely init b' ∧ Resting b' := by
  cases op with
  | call c =>
    obtain ⟨h', hsteady⟩ := h.call hrun
    exact ⟨h', hsteady.resting hrest⟩
  | tick script =>
    obtain ⟨b₁, hcheck, hret⟩ := Option.bind_eq_some_iff.mp hrun
    cases hret
    obtain ⟨⟨h₁, -⟩, hq⟩ := Abs.timerCheck_invariant (fun b => Timely init b ∧ Firing init b) script
      (fun b t c b' _ hI ht hdue hf => hI.1.firing hI.2 ht hdue hf) (h.tickBegin hrest) hcheck
    have hrest₁ := h₁.resting hq
    exact ⟨h₁.tickEnd hrest₁, hrest₁⟩

theorem Timely.untouched (random : BitVec 32) (timer : ι → RtTimer γ) :
    Timely init (Abs.timersFrom init random timer) where
  valid := (null_rep (H := TimerHead) (α := ι)).valid.mark _
  head := by simp [Abs.timersFrom, Rings.mark]
  clock := rfl
  linked t := by simp [Abs.timersFrom, TimerSys.queue, running]
  deadline t a ha := by cases ha
  activated t ht := by simp [Abs.timersFrom, TimerSys.queue] at ht
  soon t ht := by simp [Abs.timersFrom, TimerSys.queue] at ht
  sorted := by simp [Abs.timersFrom, TimerSys.queue]
  onTime e log hsuf := by simp [Abs.timersFrom] at hsuf

end Timely

end SampleRtos
