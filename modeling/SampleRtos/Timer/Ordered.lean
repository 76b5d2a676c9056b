import SampleRtos.Timer.Guarded
import SampleRtos.Timer.Timely

/-!
# The order of the timer list up to half the range

`rt_timer_start` allows for timeouts of up to `RT_TICK_MAX / 2` ticks and looks for
deadlines less than that after its own. Two deadlines alive at one tick may lie
exactly `RT_TICK_MAX / 2` apart: a timer started for no ticks at all does not see
those started for all of them. Wherever it does see a timer that is not due, the
list stays in the order of the ticks left.
-/

namespace SampleRtos

open Intrusive HalfRange

section Ordered
variable {ι γ : Type} [DecidableEq ι]

/-! ## The property and its exception -/

/-- The timer list in the order of the ticks left. -/
def InDueOrder (v : TimerView ι γ) : Prop :=
  v.timerList.Pairwise fun t u =>
    (v.timer t).timeoutTick - v.rtTick ≤ (v.timer u).timeoutTick - v.rtTick

instance (v : TimerView ι γ) : Decidable (InDueOrder v) :=
  inferInstanceAs (Decidable (List.Pairwise _ _))

/-- The linked timers that are not due, `t` left out. -/
def pending (v : TimerView ι γ) (t : ι) : List ι :=
  v.timerList.filter fun u => u ≠ t ∧ ¬ (v.timer u).due v.rtTick

/-- A start of `t` for no ticks while all that is pending has `RT_TICK_MAX / 2` left. -/
def FallsBehind (v : TimerView ι γ) (t : ι) : Prop :=
  (v.timer t).initTick = 0 ∧ pending v t ≠ [] ∧
    ∀ u ∈ pending v t, (v.timer u).timeoutTick - v.rtTick = RT_TICK_MAX / 2

instance (v : TimerView ι γ) (t : ι) : Decidable (FallsBehind v t) :=
  inferInstanceAs (Decidable (_ ∧ _ ∧ _))

/-- Starts for at most `RT_TICK_MAX / 2` ticks that meet `spare` besides. -/
def upToHalf (spare : TimerView ι γ → ι → Bool) : TimerGuard ι γ where
  call v c := match c with
    | .start t => decide ((v.timer t).initTick ≤ RT_TICK_MAX / 2) && spare v t
    | _ => true
  returned _ _ := true

/-! ## The invariant -/

/-- The ticks left, counted from the tick before the present one. -/
def left {L : Type} (k : TimerSys ι γ L) (t : ι) : Nat :=
  ahead (k.rtTick - 1) (k.timer t).timeoutTick

/-- Nothing linked is overdue by more than one tick or has more than half the range
left, and the list is in the order of the ticks left. -/
structure Ordered (b : Sys ι γ (TimerRings ι) (TimerLog ι)) : Prop where
  valid : b.timers.timerList.Valid
  soon : ∀ t ∈ b.timers.queue, left b.timers t ≤ halfRange + 1
  sorted : b.timers.queue.Pairwise fun t u => left b.timers t ≤ left b.timers u

/-- Outside a check nothing is overdue. -/
def NoneOverdue (b : Sys ι γ (TimerRings ι) (TimerLog ι)) : Prop :=
  ∀ t ∈ b.timers.queue, 1 ≤ left b.timers t

theorem two_mul_halfRange_lt : 2 * halfRange + 1 < 2 ^ 32 := by decide

section
omit [DecidableEq ι]

theorem left_eq {L : Type} {k : TimerSys ι γ L} {t : ι} (h : 1 ≤ left k t) :
    left k t = ((k.timer t).timeoutTick - k.rtTick).toNat + 1 := by
  have hsucc := ahead_succ (show ahead (k.rtTick - 1) (k.timer t).timeoutTick ≠ 0 by
    unfold left at h
    omega)
  rw [sub_add_cancel] at hsucc
  exact hsucc.symm

/-- The test of `rt_timer_check`. -/
theorem due_iff_left {L : Type} {k : TimerSys ι γ L} {t : ι} (h : left k t ≤ halfRange + 1) :
    (k.timer t).due k.rtTick ↔ left k t ≤ 1 := by
  have hrange := two_mul_halfRange_lt
  have hpast := past_succ_lt_half (by decide) (show 2 ≤ halfRange by decide)
    (show ahead (k.rtTick - 1) (k.timer t).timeoutTick + halfRange ≤ 2 ^ 32 + 1 by
      unfold left at h
      omega)
  rw [sub_add_cancel] at hpast
  exact hpast

end

/-- The test that ends the search of `rt_timer_start`. -/
theorem precedes_iff_left {r r' : RtTimer γ} {now : Tick}
    (h : ahead (now - 1) r.timeoutTick ≤ halfRange + 1) :
    r.precedes r' ↔ ahead (now - 1) r.timeoutTick < ahead (now - 1) r'.timeoutTick ∧
      ahead (now - 1) r'.timeoutTick < ahead (now - 1) r.timeoutTick + halfRange := by
  have hrange := two_mul_halfRange_lt
  exact sub_lt_half_iff (show ahead (now - 1) r.timeoutTick + halfRange ≤ 2 ^ 32 by omega)

variable {spare : TimerView ι γ → ι → Bool} {b b' : Sys ι γ (TimerRings ι) (TimerLog ι)}
  {g : TimerLog ι} {t : ι}

/-- What a start does to the timer it is about. -/
theorem started_left {r : RtTimer γ} (now : Tick) (hle : r.initTick ≤ RT_TICK_MAX / 2) :
    ahead (now - 1) (r.started now).timeoutTick = r.initTick.toNat + 1 := by
  have hrange := two_mul_halfRange_lt
  have hle' : r.initTick.toNat ≤ halfRange := hle
  have hdeadline : now + r.initTick = now - 1 + (r.initTick + 1) := by ring
  rw [RtTimer.started]
  simp only
  rw [hdeadline, ahead_add, BitVec.toNat_add_of_lt]
  · rfl
  · show r.initTick.toNat + 1 < 2 ^ 32
    omega

/-- Which timers it is put before. -/
theorem started_precedes_left {r r' : RtTimer γ} {now : Tick}
    (hle : r.initTick ≤ RT_TICK_MAX / 2) :
    (r.started now).precedes r' ↔ r.initTick.toNat + 1 < ahead (now - 1) r'.timeoutTick ∧
      ahead (now - 1) r'.timeoutTick < r.initTick.toNat + 1 + halfRange := by
  have hself := started_left now hle
  rw [precedes_iff_left (by rw [hself]; exact Nat.succ_le_succ hle), hself]

theorem Started.left_self {a m : TimerSys ι γ (TimerRings ι)} {xs ys : List ι}
    (hm : Started a m t xs ys) (hle : (a.timer t).initTick ≤ RT_TICK_MAX / 2) :
    left m t = (a.timer t).initTick.toNat + 1 := by
  rw [left, hm.self, hm.rtTick]
  exact started_left a.rtTick hle

theorem Started.left_other {a m : TimerSys ι γ (TimerRings ι)} {xs ys : List ι}
    (hm : Started a m t xs ys) {u : ι} (hut : u ≠ t) : left m u = left a u := by
  rw [left, left, hm.rtTick, hm.other u hut]

section
omit [DecidableEq ι]

/-- A search that passes a timer with more ticks left has come from no ticks at all, and
nothing that is not due has less than all of half the range left. -/
theorem passes_later {half n : Nat} {key : ι → Nat} {xs ys : List ι} {x : ι}
    (hsorted : (xs ++ ys).Pairwise fun u v => key u ≤ key v)
    (hbound : ∀ u ∈ xs ++ ys, key u ≤ half + 1)
    (hxs : ∀ u ∈ xs, ¬ (n + 1 < key u ∧ key u < n + 1 + half)) (hx : x ∈ xs)
    (hlater : n + 1 < key x) : n = 0 ∧ ∀ u ∈ xs ++ ys, 1 < key u → key u = half + 1 := by
  have hunseen := hxs x hx
  have hmax := hbound x (List.mem_append_left _ hx)
  refine ⟨by omega, fun u hu hpos => ?_⟩
  have humax := hbound u hu
  rcases List.mem_append.mp hu with hux | huy
  · have hunseen' := hxs u hux
    omega
  · have hxu := (List.pairwise_append.mp hsorted).2.2 x hx u huy
    omega

end

namespace Ordered

theorem mem_pending (h : Ordered b) {u : ι} :
    u ∈ pending (Abs.view b.timers) t ↔ (u ∈ b.timers.queue ∧ u ≠ t) ∧ 1 < left b.timers u := by
  rw [pending, List.mem_filter, decide_eq_true_eq, and_assoc]
  refine and_congr_right fun hu => and_congr_right fun _ => ?_
  rw [Abs.view_timer, Abs.view_rtTick, due_iff_left (h.soon u hu), not_le]

section
omit [DecidableEq ι]

/-- Fewer timers, with the same deadlines. -/
theorem sublist (h : Ordered b) {m : TimerSys ι γ (TimerRings ι)} (hvalid : m.timerList.Valid)
    (hsub : m.queue.Sublist b.timers.queue) (htick : m.rtTick = b.timers.rtTick)
    (htimer : ∀ u ∈ m.queue, (m.timer u).timeoutTick = (b.timers.timer u).timeoutTick) :
    Ordered { timers := m, env := g } ∧
      (NoneOverdue b → NoneOverdue (ι := ι) { timers := m, env := g }) := by
  have hleft : ∀ u ∈ m.queue, left m u = left b.timers u := by
    intro u hu
    rw [left, left, htick, htimer u hu]
  refine ⟨⟨hvalid, fun u hu => ?_, ?_⟩, fun hrest u hu => ?_⟩
  · rw [hleft u hu]
    exact h.soon u (hsub.subset hu)
  · refine (h.sorted.sublist hsub).imp_of_mem fun {u v} hu hv huv => ?_
    rw [hleft u hu, hleft v hv]
    exact huv
  · rw [hleft u hu]
    exact hrest u (hsub.subset hu)

end

theorem erase (h : Ordered b) (t : ι) :
    Ordered { timers := { b.timers with timerList := b.timers.timerList.erase t }, env := g } ∧
      (NoneOverdue b → NoneOverdue (ι := ι)
        { timers := { b.timers with timerList := b.timers.timerList.erase t }, env := g }) :=
  h.sublist (h.valid.erase t) List.erase_sublist rfl fun _ _ => rfl

section Start
variable {m : TimerSys ι γ (TimerRings ι)} {xs ys : List ι}

theorem start_precedes (hm : Started b.timers m t xs ys)
    (hle : (b.timers.timer t).initTick ≤ RT_TICK_MAX / 2) {u : ι} (hu : u ∈ xs ++ ys) :
    ((b.timers.timer t).started b.timers.rtTick).precedes (b.timers.timer u) ↔
      (b.timers.timer t).initTick.toNat + 1 < left m u ∧
        left m u < (b.timers.timer t).initTick.toNat + 1 + halfRange := by
  rw [hm.left_other (hm.mem_rest.mp hu).2]
  exact started_precedes_left hle

theorem start_rest (h : Ordered b) (hm : Started b.timers m t xs ys) :
    (∀ u ∈ xs ++ ys, left m u ≤ halfRange + 1) ∧
      (xs ++ ys).Pairwise fun u v => left m u ≤ left m v := by
  constructor
  · intro u hu
    obtain ⟨hq, hut⟩ := hm.mem_rest.mp hu
    rw [hm.left_other hut]
    exact h.soon u hq
  · refine (h.sorted.sublist hm.sublist).imp_of_mem fun {u v} hu hv huv => ?_
    rw [hm.left_other (hm.mem_rest.mp hu).2, hm.left_other (hm.mem_rest.mp hv).2]
    exact huv

/-- Of what the search passes nothing has more ticks left than the timer. -/
theorem start_front (h : Ordered b) (hm : Started b.timers m t xs ys)
    (hle : (b.timers.timer t).initTick ≤ RT_TICK_MAX / 2)
    (hspare : ¬ FallsBehind (Abs.view b.timers) t) : ∀ u ∈ xs, left m u ≤ left m t := by
  intro x hx
  have hx' : x ∈ xs ++ ys := List.mem_append_left _ hx
  obtain ⟨hsoon, hsorted⟩ := h.start_rest hm
  have hself := hm.left_self hle
  by_contra hgt
  -- a passed timer with more ticks left is one that a start for no ticks falls behind
  obtain ⟨hzero, hfull⟩ := passes_later hsorted hsoon
    (fun u hu => by
      rw [← start_precedes hm hle (List.mem_append_left _ hu)]
      exact hm.passed u hu)
    hx (by omega)
  have hpend : ∀ u, u ∈ pending (Abs.view b.timers) t ↔ u ∈ xs ++ ys ∧ 1 < left m u := by
    intro u
    rw [mem_pending h, ← hm.mem_rest]
    refine and_congr_right fun hu => ?_
    rw [hm.left_other (hm.mem_rest.mp hu).2]
  refine hspare ⟨BitVec.eq_of_toNat_eq hzero,
    List.ne_nil_of_mem ((hpend x).mpr ⟨hx', by omega⟩), fun u hu => ?_⟩
  obtain ⟨hu, hpos⟩ := (hpend u).mp hu
  have hmax := hfull u hu hpos
  rw [hm.left_other (hm.mem_rest.mp hu).2] at hmax
  have heq := left_eq (k := b.timers) (t := u) (by omega)
  exact BitVec.eq_of_toNat_eq (Nat.succ.inj (heq.symm.trans hmax))

/-- A timer that does not fall behind is put where it belongs. -/
theorem started (h : Ordered b) (hle : (b.timers.timer t).initTick ≤ RT_TICK_MAX / 2)
    (hspare : ¬ FallsBehind (Abs.view b.timers) t) (hm : Started b.timers m t xs ys) :
    Ordered { timers := m, env := g } ∧
      (NoneOverdue b → NoneOverdue (ι := ι) { timers := m, env := g }) := by
  have hself := hm.left_self hle
  -- the search stops at one with more ticks left
  have hback : ∀ u ∈ ys.head?, left m t ≤ left m u := by
    intro y hy
    have hy' : y ∈ xs ++ ys := List.mem_append_right _ (List.mem_of_mem_head? hy)
    rw [hself]
    exact Nat.le_of_lt ((start_precedes hm hle hy').mp (hm.reached y hy)).1
  refine ⟨⟨hm.valid_after, fun u hu => ?_, ?_⟩, fun hrest u hu => ?_⟩
  · by_cases hut : u = t
    · subst hut
      rw [hself]
      exact Nat.succ_le_succ hle
    · rw [hm.left_other hut]
      exact h.soon u ((hm.mem_queue.mp hu).resolve_left hut)
  · simp only [hm.queue]
    exact StableOrder.pairwise_insert_key (h.start_rest hm).2 (h.start_front hm hle hspare) hback
  · by_cases hut : u = t
    · subst hut
      rw [hself]
      omega
    · rw [hm.left_other hut]
      exact hrest u ((hm.mem_queue.mp hu).resolve_left hut)

/-- **A start** that does not fall behind. -/
theorem start (h : Ordered b) (hle : (b.timers.timer t).initTick ≤ RT_TICK_MAX / 2)
    (hspare : ¬ FallsBehind (Abs.view b.timers) t) (hstart : Abs.timerStart b.timers t = some m) :
    Ordered { timers := m, env := g } ∧
      (NoneOverdue b → NoneOverdue (ι := ι) { timers := m, env := g }) := by
  obtain ⟨xs, ys, hm⟩ := Abs.timerStart_started h.valid hstart
  exact h.started hle hspare hm

end Start

theorem deactivate (h : Ordered b) (t : ι) :
    Ordered { b with timers := b.timers.deactivate t } ∧
      (NoneOverdue b → NoneOverdue { b with timers := b.timers.deactivate t }) := by
  refine h.sublist h.valid (List.Sublist.refl _) rfl fun u _ => ?_
  by_cases hut : u = t
  · subst hut; simp [RtTimer.deactivate]
  · simp [hut]

/-- A call keeps the order and makes nothing overdue. -/
theorem call (h : Ordered b) {c : TimerCall ι γ} {m : TimerSys ι γ (TimerRings ι)}
    (hallowed : Abs.TimerCallAllowed b.timers c)
    (hc : (upToHalf fun v t => !decide (FallsBehind v t)).call (Abs.view b.timers) c = true)
    (hexec : Abs.execTimerCall b.timers c = some m) :
    Ordered { timers := m, env := g } ∧
      (NoneOverdue b → NoneOverdue (ι := ι) { timers := m, env := g }) := by
  unfold Abs.execTimerCall at hexec
  cases c with
  | init t timeout time flag =>
    cases hexec
    refine h.sublist (h.valid.mark _) (List.Sublist.refl _) rfl fun u hu => ?_
    have hut : u ≠ t := fun hut => hallowed (hut ▸ hu)
    simp [Abs.timerInit, TimerSys.setTimer, hut]
  | start t =>
    simp only [upToHalf, Bool.and_eq_true, decide_eq_true_eq, Bool.not_eq_true',
      decide_eq_false_iff_not] at hc
    exact h.start hc.1 hc.2 hexec
  | stop t =>
    obtain ⟨e, hstop⟩ := returned_of_map hexec
    rcases Abs.timerStop_spec hstop with ⟨-, rfl⟩ | ⟨-, -, rfl⟩
    · exact h.sublist h.valid (List.Sublist.refl _) rfl fun _ _ => rfl
    · refine h.sublist (h.valid.erase t) List.erase_sublist rfl fun u _ => ?_
      by_cases hut : u = t
      · subst hut; simp [TimerSys.stopped, RtTimer.deactivate]
      · simp [TimerSys.stopped, hut]
  | control t cmd =>
    cases hexec
    refine h.sublist h.valid (List.Sublist.refl _) rfl fun u _ => ?_
    by_cases hut : u = t
    · subst hut; simpa using (control_flags (b.timers.timer u) cmd).1
    · simp [hut]
  | detach t =>
    obtain ⟨-, rfl⟩ := Abs.timerRemove_eq_some hexec
    exact h.erase t

end Ordered

/-! ## Checks and ticks -/

/-- Marking a timer as stopped tells nothing about the order. -/
theorem fallsBehind_deactivate {a : TimerSys ι γ (TimerRings ι)} :
    FallsBehind (Abs.view (a.deactivate t)) t ↔ FallsBehind (Abs.view a) t := by
  have hinit : ∀ u, ((a.deactivate t).timer u).initTick = (a.timer u).initTick := by
    intro u
    by_cases hut : u = t
    · subst hut; simp [RtTimer.deactivate]
    · simp [hut]
  have hdeadline : ∀ u, ((a.deactivate t).timer u).timeoutTick = (a.timer u).timeoutTick := by
    intro u
    by_cases hut : u = t
    · subst hut; simp [RtTimer.deactivate]
    · simp [hut]
  have hpending : pending (Abs.view (a.deactivate t)) t = pending (Abs.view a) t := by
    refine List.filter_congr fun u _ => decide_eq_decide.mpr ?_
    simp only [Abs.view_timer, Abs.view_rtTick, TimerSys.deactivate_rtTick, RtTimer.due, hdeadline]
  unfold FallsBehind
  rw [hpending]
  simp only [Abs.view_timer, Abs.view_rtTick, TimerSys.deactivate_rtTick, hinit, hdeadline]

/-- A check keeps the order, and if nothing is overdue that as well. -/
theorem checkKeeps_ordered (P : Prop) :
    CheckKeeps (upToHalf fun v t => !decide (FallsBehind v t))
      fun b : Sys ι γ (TimerRings ι) (TimerLog ι) => Ordered b ∧ (P → NoneOverdue b) where
  call h hallowed hc hexec := by
    obtain ⟨h', hrest⟩ := h.1.call hallowed hc hexec
    exact ⟨h', fun hP => hrest (h.2 hP)⟩
  unlink {b t} h ht hdue := by
    obtain ⟨h', hrest⟩ := h.1.erase t
    exact ⟨h', fun hP => hrest (h.2 hP)⟩
  restart h hreturns hper hact hstart := by
    have hc := hreturns.2 ⟨hper, hact⟩
    simp only [upToHalf, Bool.and_eq_true, decide_eq_true_eq, Bool.not_eq_true',
      decide_eq_false_iff_not] at hc
    obtain ⟨h₁, hrest₁⟩ := h.1.deactivate _
    obtain ⟨h', hrest⟩ := h₁.start (by simpa [RtTimer.deactivate] using hc.1)
      (by rw [fallsBehind_deactivate]; exact hc.2) hstart
    exact ⟨h', fun hP => hrest (hrest₁ (h.2 hP))⟩
  finish h _ _ := by
    obtain ⟨h', hrest⟩ := h.1.deactivate _
    exact ⟨h', fun hP => hrest (h.2 hP)⟩

section
omit [DecidableEq ι]

/-- When the first timer is not due, none is. -/
theorem Ordered.none_due (h : Ordered b) (hq : Quiet b) (ht : t ∈ b.timers.queue) :
    1 < left b.timers t := by
  cases hqueue : b.timers.queue with
  | nil => simp [hqueue] at ht
  | cons x xs =>
    have hx : x ∈ b.timers.queue := by simp [hqueue]
    have hnot : ¬ left b.timers x ≤ 1 := fun hle =>
      hq x (by simp [hqueue]) ((due_iff_left (h.soon x hx)).mpr hle)
    have hsorted := h.sorted
    rw [hqueue] at ht hsorted
    rcases List.mem_cons.mp ht with rfl | ht
    · omega
    · have hle := (List.pairwise_cons.mp hsorted).1 t ht
      omega

theorem Ordered.quiet (h : Ordered b) (hq : Quiet b) : NoneOverdue b :=
  fun _ ht => Nat.le_of_lt (h.none_due hq ht)

/-- The tick advances. -/
theorem Ordered.tickBegin (h : Ordered b) (hrest : NoneOverdue b) :
    Ordered { timers := { b.timers with rtTick := b.timers.rtTick + 1 }, env := g } := by
  have hleft : ∀ u ∈ b.timers.queue,
      left { b.timers with rtTick := b.timers.rtTick + 1 } u + 1 = left b.timers u := by
    intro u hu
    rw [left_eq (hrest u hu), left]
    simp only [add_sub_cancel_right]
    rfl
  refine ⟨h.valid, fun u hu => ?_, h.sorted.imp_of_mem fun {u v} hu hv huv => ?_⟩
  · exact Nat.le_of_succ_le ((hleft u hu).trans_le (h.soon u hu))
  · rw [← hleft u hu, ← hleft v hv] at huv
    exact Nat.le_of_succ_le_succ huv

end

/-- **One operation** keeps the order. -/
theorem Ordered.exec (h : Ordered b) (hrest : NoneOverdue b) {op : CheckOp ι γ}
    (hrun : Abs.execCheckOp (upToHalf fun v t => !decide (FallsBehind v t)) b op = some b') :
    Ordered b' ∧ NoneOverdue b' := by
  have hkeeps := checkKeeps_ordered (ι := ι) (γ := γ)
  cases op with
  | call c =>
    obtain ⟨h', hrest'⟩ := (hkeeps True).runCall ⟨h, fun _ => hrest⟩ hrun
    exact ⟨h', hrest' trivial⟩
  | check script =>
    obtain ⟨⟨h', hrest'⟩, -⟩ := (hkeeps True).check ⟨h, fun _ => hrest⟩ hrun
    exact ⟨h', hrest' trivial⟩
  | tick script =>
    obtain ⟨⟨h', -⟩, hquiet⟩ := (hkeeps False).check ⟨h.tickBegin hrest, False.elim⟩ hrun
    exact ⟨h', h'.quiet hquiet⟩

/-! ## The theorem -/

/-- **The timer list is in the order of the ticks left** after every operation of every
run whose starts are for at most `RT_TICK_MAX / 2` ticks, unless a timer is started for
no ticks while everything pending has `RT_TICK_MAX / 2` left. -/
theorem timer_list_ordered [Fintype ι] {init : Tick} {s : Sys ι γ (TimerLinks ι) (TimerLog ι)}
    (hs : GuardedReachable (upToHalf fun v t => !decide (FallsBehind v t)) init s) :
    InDueOrder s.timers.view := by
  obtain ⟨b, h, hb, hrest⟩ := hs.invariant (I := fun b => Ordered b ∧ NoneOverdue b)
    (fun random timer => ⟨⟨(null_rep (H := TimerHead) (α := ι)).valid.mark _, by
        simp [Abs.timersFrom, TimerSys.queue], by simp [Abs.timersFrom, TimerSys.queue]⟩,
      fun t ht => by simp [Abs.timersFrom, TimerSys.queue] at ht⟩)
    fun b op b' hI hrun => hI.1.exec hI.2 hrun
  rw [view_rel h.timers]
  refine hb.sorted.imp_of_mem fun {t u} ht hu htu => ?_
  rw [left_eq (hrest t ht), left_eq (hrest u hu)] at htu
  exact BitVec.le_def.mpr (Nat.le_of_succ_le_succ htu)

/-- Timer 0 is started for `RT_TICK_MAX / 2` ticks, and after `ops` timer 1 for none. -/
def startBoth (ops : List (CheckOp (Fin 2) Unit)) : List (CheckOp (Fin 2) Unit) :=
  [.call (.init 0 (some ()) (RT_TICK_MAX / 2) 0), .call (.init 1 (some ()) 0 0),
    .call (.start 0)] ++ ops ++ [.call (.start 1)]

/-- A tick later the second timer goes first. -/
theorem ordered_after_a_tick :
    ∃ s, Run.exec (CheckOp.exec (upToHalf fun v t => !decide (FallsBehind v t)))
        (fun _ _ => True) (startBoth [.tick []]) rawTimers = some s ∧
      s.timers.view.timerList = [1, 0] ∧ InDueOrder s.timers.view := by
  obtain ⟨s, hs, hreach, hp⟩ := Run.reach_of_exec
    (CheckOp.exec (upToHalf fun v t => !decide (FallsBehind v t))) (fun _ _ => True)
    (startBoth [.tick []]) rawTimers (fun s => decide (s.timers.view.timerList = [1, 0]))
    (by decide +kernel)
  exact ⟨s, hs, of_decide_eq_true hp, timer_list_ordered (s := s) ⟨0, _, hreach⟩⟩

/-- At once it goes behind the first, which has `RT_TICK_MAX / 2` ticks left. -/
theorem behind_half_the_range :
    ¬ ∀ (init : Tick) (s : Sys (Fin 2) Unit (TimerLinks (Fin 2)) (TimerLog (Fin 2))),
      GuardedReachable (upToHalf fun _ _ => true) init s → InDueOrder s.timers.view := by
  intro hclaim
  obtain ⟨s, hs, hreach, hp⟩ := Run.reach_of_exec
    (CheckOp.exec (upToHalf fun _ _ => true)) (fun _ _ => True) (startBoth []) rawTimers
    (fun s => decide (¬ InDueOrder s.timers.view)) (by decide +kernel)
  exact of_decide_eq_true hp (hclaim 0 s ⟨0, _, hreach⟩)

end Ordered

end SampleRtos
