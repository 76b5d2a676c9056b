import SampleRtos.Timer.RowSearch
import SampleRtos.Timer.Ordered
import SampleRtos.Timer.OnTime

/-!
# The rows agree with the single list

A run with `L` rows, a run with one and a run on the sequence of the timers go in
lockstep. The sequence is in the order of the ticks left, so what ends a search ends
it for good, and whatever rows a timer is promoted to, it is put into the bottom row
where it is put into the single list.
-/

namespace SampleRtos

open Intrusive Cut HalfRange

namespace SkipList
variable {ι γ : Type} [DecidableEq ι]

/-! ## The order of the single list -/

variable {L : Nat} {rows : Nat → List ι} {k : TimerSys ι γ (RowLinks ι)} {t : ι}
  {b b' : Sys ι γ (TimerRings ι) (TimerLog ι)}

/-- The single list in the order of the ticks left, of timers that may be started. -/
structure Tame (b : Sys ι γ (TimerRings ι) (TimerLog ι)) : Prop where
  ordered : Ordered b
  usable : Abs.Usable b.timers

section
omit [DecidableEq ι]

/-- What a started timer is not put before has nothing before it that it is put before. -/
theorem Tame.down (h : Tame b) (t : ι) :
    Down
      (fun u => decide ¬ ((b.timers.timer t).started b.timers.rtTick).precedes (b.timers.timer u))
      b.timers.queue := by
  have husable := h.usable.timer t
  have hpos : 1 ≤ (b.timers.timer t).initTick.toNat := BitVec.le_def.mp husable.pos
  have hpre : ∀ u, ((b.timers.timer t).started b.timers.rtTick).precedes (b.timers.timer u) ↔
      (b.timers.timer t).initTick.toNat + 1 < left b.timers u ∧
        left b.timers u < (b.timers.timer t).initTick.toNat + 1 + halfRange := fun u =>
    started_precedes_left (BitVec.le_of_lt husable.lt)
  refine h.ordered.sorted.imp_of_mem fun {u v} hu hv huv hpass => ?_
  have hsoon := h.ordered.soon v hv
  simp only [decide_eq_true_eq, hpre] at hpass ⊢
  omega

end

/-- `t` taken off the list and set for its timeout from now. -/
def armed (a : TimerSys ι γ (TimerRings ι)) (t : ι) : TimerSys ι γ (TimerRings ι) :=
  rtTimerStartArm (TimerSys.deactivate { a with timerList := a.timerList.erase t } t) t

theorem timerStart_eq {a : TimerSys ι γ (TimerRings ι)} (h : Abs.Usable a) (t : ι) :
    Abs.timerStart a t = some (TimerSys.setTimer { armed a t with
        randomNr := a.randomNr + 1
        timerList := (armed a t).timerList.setSeq .rtTimerList
          (place (fun u => decide ¬ ((armed a t).timer t).precedes ((armed a t).timer u)) t
            (a.others t)) }
      t ((armed a t).timer t).activate) := by
  have hmark : (a.timerList.erase t).mark (.item t) = a.timerList.erase t :=
    Rings.mark_of_live (h.live t)
  rw [Abs.timerStart, Abs.timerRemove_of_live (h.live t)]
  show (insertOrdered _ (a.timerList.erase t) .rtTimerList t).bind _ = _
  rw [insertOrdered, insertAt,
    if_pos (show (a.timerList.erase t).live timerHead = true from h.head), hmark]
  rfl

/-- **A start** with rows and without. -/
theorem Rows.start [Fintype ι] (h : Rows L k b.timers rows) (hb : Tame b) (hL : 0 < L)
    (mask : BitVec 32) (t : ι) :
    ∃ k' a' rows', rtTimerStart L mask k t = some k' ∧ Abs.timerStart b.timers t = some a' ∧
      Rows L k' a' rows' := by
  obtain ⟨k₁, hk₁, h₁⟩ := h.remove t
  have h₂ : Rows L (rtTimerStartArm (k₁.deactivate t) t) (armed b.timers t) _ :=
    (h₁.deactivate t).arm t
  have hpasses : passes (rtTimerStartArm (k₁.deactivate t) t) t = fun u =>
      decide ¬ ((armed b.timers t).timer t).precedes ((armed b.timers t).timer u) := by
    funext u
    rw [passes, h₂.timer]
  -- arming gives `t` the deadline of the start and leaves those of the others
  have hsame : ∀ u ∈ b.timers.others t,
      ((armed b.timers t).timer t).precedes ((armed b.timers t).timer u) ↔
        ((b.timers.timer t).started b.timers.rtTick).precedes (b.timers.timer u) := by
    intro u hu
    have hut := ((TimerSys.mem_others hb.ordered.valid).mp hu).2
    simp [armed, rtTimerStartArm, RtTimer.precedes, RtTimer.started, RtTimer.deactivate, hut]
  have hdown : Down (passes (rtTimerStartArm (k₁.deactivate t) t) t) (b.timers.others t) := by
    refine ((hb.down t).sublist List.erase_sublist).imp_of_mem fun {u v} hu hv huv => ?_
    simp only [hpasses, hsame u hu, hsame v hv]
    exact huv
  obtain ⟨k', rows', hk', h'⟩ :=
    h₂.link hL (hb.ordered.valid.erase_free t .rtTimerList) hdown mask
  rw [hpasses] at h'
  refine ⟨k', _, rows', ?_, timerStart_eq hb.usable t, h'⟩
  rw [rtTimerStart, rtTimerStartUnlink, hk₁]
  exact hk'

/-! ## The single list keeps its order -/

namespace Tame
variable {g : TimerLog ι}

theorem deactivate (h : Tame b) (t : ι) : Tame { b with timers := b.timers.deactivate t } :=
  ⟨(h.ordered.deactivate t).1, h.usable.deactivate t⟩

theorem remove (h : Tame b) (t : ι) :
    Tame { timers := { b.timers with timerList := b.timers.timerList.erase t }, env := g } ∧
      (NoneOverdue b → NoneOverdue (ι := ι)
        { timers := { b.timers with timerList := b.timers.timerList.erase t }, env := g }) := by
  obtain ⟨hordered, hrest⟩ := h.ordered.sublist (g := g)
    (m := { b.timers with timerList := b.timers.timerList.erase t })
    (h.ordered.valid.erase t) List.erase_sublist rfl fun _ _ => rfl
  exact ⟨⟨hordered, (h.usable.remove t).2⟩, hrest⟩

theorem start (h : Tame b) (t : ι) :
    ∃ a', Abs.timerStart b.timers t = some a' ∧ Tame { timers := a', env := g } ∧
      (NoneOverdue b → NoneOverdue (ι := ι) { timers := a', env := g }) := by
  obtain ⟨a', ha', husable⟩ := h.usable.start t
  have hrange := h.usable.timer t
  obtain ⟨hordered, hrest⟩ := h.ordered.start (g := g) (BitVec.le_of_lt hrange.lt)
    (fun hbehind => by
      have hpos := hrange.pos
      have hzero : (b.timers.timer t).initTick = 0 := hbehind.1
      rw [hzero] at hpos
      exact absurd hpos (by decide)) ha'
  exact ⟨a', ha', ⟨hordered, husable⟩, hrest⟩

theorem stop (h : Tame b) (t : ι) :
    ∃ e a', Abs.timerStop b.timers t = some (e, a') ∧ Tame { timers := a', env := g } ∧
      (NoneOverdue b → NoneOverdue (ι := ι) { timers := a', env := g }) := by
  unfold Abs.timerStop
  split
  · exact ⟨_, b.timers, rfl, ⟨⟨h.ordered.valid, h.ordered.soon, h.ordered.sorted⟩, h.usable⟩,
      fun hrest => hrest⟩
  · obtain ⟨hremove, hrest⟩ := h.remove (g := g) t
    rw [(h.usable.remove t).1]
    refine ⟨_, _, rfl, hremove.deactivate t, fun h₀ => ?_⟩
    exact (hremove.ordered.deactivate t).2 (hrest h₀)

end Tame

/-- The timers at the front that a check is to fire. -/
def overdue [Fintype ι] (a : TimerSys ι γ (TimerRings ι)) : Finset ι :=
  Finset.univ.filter fun u => u ∈ a.queue ∧ left a u ≤ 1

theorem mem_overdue [Fintype ι] {a : TimerSys ι γ (TimerRings ι)} {u : ι} :
    u ∈ overdue a ↔ u ∈ a.queue ∧ left a u ≤ 1 := by
  simp [overdue]

/-- A started timer is not to fire at once, and starting it leaves the others alone. -/
theorem overdue_start [Fintype ι] (h : Tame b) {a' : TimerSys ι γ (TimerRings ι)}
    (hstart : Abs.timerStart b.timers t = some a') {u : ι} (hu : u ∈ overdue a') :
    u ≠ t ∧ u ∈ overdue b.timers := by
  obtain ⟨xs, ys, hm⟩ := Abs.timerStart_started h.ordered.valid hstart
  obtain ⟨hmem, hleft⟩ := mem_overdue.mp hu
  have husable := h.usable.timer t
  have hut : u ≠ t := by
    rintro rfl
    have hpos : 1 ≤ (b.timers.timer u).initTick.toNat := BitVec.le_def.mp husable.pos
    rw [hm.left_self (BitVec.le_of_lt husable.lt)] at hleft
    omega
  rw [hm.left_other hut] at hleft
  exact ⟨hut, mem_overdue.mpr ⟨(hm.mem_queue.mp hmem).resolve_left hut, hleft⟩⟩

/-- Marking a timer as stopped changes nothing about when it is to fire. -/
theorem overdue_deactivate [Fintype ι] (a : TimerSys ι γ (TimerRings ι)) (t : ι) :
    overdue (a.deactivate t) = overdue a := by
  refine Finset.filter_congr fun u _ => ?_
  by_cases hut : u = t
  · subst hut
    simp [left, RtTimer.deactivate]
  · simp [left, hut]

theorem overdue_remove [Fintype ι] (h : Tame b) {u : ι}
    (hu : u ∈ overdue { b.timers with timerList := b.timers.timerList.erase t }) :
    u ≠ t ∧ u ∈ overdue b.timers := by
  obtain ⟨hmem, hleft⟩ := mem_overdue.mp hu
  obtain ⟨hold, hut⟩ := (TimerSys.mem_others h.ordered.valid).mp hmem
  exact ⟨hut, mem_overdue.mpr ⟨hold, hleft⟩⟩

/-- One firing, of a callback that calls nothing. -/
def fireList (t : ι) (b : Sys ι γ (TimerRings ι) (TimerLog ι)) :
    Option (Sys ι γ (TimerRings ι) (TimerLog ι)) :=
  Abs.timerFire (fun t f (_ : Unit) b => silent t f b) () t b

/-- **A firing** returns, keeps the order and leaves fewer timers to fire. -/
theorem Tame.fire [Fintype ι] (h : Tame b) (ht : b.timers.queue.head? = some t)
    (hdue : (b.timers.timer t).due b.timers.rtTick) :
    ∃ b', fireList t b = some b' ∧ Tame b' ∧
      (overdue b'.timers).card < (overdue b.timers).card := by
  have hmem : t ∈ b.timers.queue := List.mem_of_mem_head? ht
  have hnow : t ∈ overdue b.timers :=
    mem_overdue.mpr ⟨hmem, (due_iff_left (h.ordered.soon t hmem)).mp hdue⟩
  -- `t` was overdue; it is enough that it is not any more and nobody becomes so
  have hfewer : ∀ a : TimerSys ι γ (TimerRings ι),
      (∀ u ∈ overdue a, u ≠ t ∧ u ∈ overdue b.timers) →
        (overdue a).card < (overdue b.timers).card := by
    intro a ha
    have hsub : overdue a ⊆ (overdue b.timers).erase t := fun u hu =>
      Finset.mem_erase.mpr (ha u hu)
    exact (Finset.card_le_card hsub).trans_lt (Finset.card_erase_lt_of_mem hnow)
  obtain ⟨f, hf⟩ := Option.ne_none_iff_exists'.mp (h.usable.timer t).timeoutFunc
  have h₁ := (h.remove (g := .fire t :: b.env) t).1
  have h₂ := h₁.deactivate t
  rw [fireList, Abs.timerFire_eq (h.usable.live t) hf rfl]
  split
  · obtain ⟨a', ha', h', -⟩ := h₂.start (g := .fire t :: b.env) t
    refine ⟨{ timers := a', env := .fire t :: b.env }, ?_, h', hfewer a' fun u hu => ?_⟩
    · exact congrArg (Option.map _) ha'
    · obtain ⟨-, hu'⟩ := overdue_start h₂ ha' hu
      rw [overdue_deactivate] at hu'
      exact overdue_remove h hu'
  · refine ⟨_, rfl, h₂, hfewer _ fun u hu => ?_⟩
    rw [overdue_deactivate] at hu
    exact overdue_remove h hu

/-- **A check** returns within as many firings as there are timers to fire. -/
theorem Tame.check [Fintype ι] {n : Nat} (h : Tame b) (hcard : (overdue b.timers).card ≤ n) :
    ∃ b', Abs.timerCheck (fun t f (_ : Unit) b => silent t f b) (List.replicate n ()) b =
      some b' ∧ Tame b' ∧ NoneOverdue b' := by
  obtain ⟨b', hb', h', hquiet⟩ := Abs.timerCheck_returns (I := Tame)
    (m := fun b => (overdue b.timers).card) (fun _ h => h.usable.head)
    (fun _ _ h ht hdue => h.fire ht hdue) n h hcard
  exact ⟨b', hb', h', h'.ordered.quiet hquiet⟩

/-! ## Lockstep -/

/-- The same with `L` rows and on the sequence, under the same history. -/
structure RowsRel (L : Nat) (s : Sys ι γ (RowLinks ι) (TimerLog ι))
    (b : Sys ι γ (TimerRings ι) (TimerLog ι)) : Prop where
  rows : ∃ rows, Rows L s.timers b.timers rows
  env : s.env = b.env

namespace RowsRel
variable {s : Sys ι γ (RowLinks ι) (TimerLog ι)} {mask : BitVec 32} [Fintype ι]

/-- An iteration whose callback calls nothing. -/
theorem rtTimerFire_silent {k₁ : TimerSys ι γ (RowLinks ι)} {f : γ}
    (hk : rtTimerRemove L s.timers t = some k₁) (hf : (k₁.timer t).timeoutFunc = some f) :
    rtTimerFire L mask silent t s =
      if (k₁.timer t).periodic ∧ (k₁.timer t).activated then
        (rtTimerStart L mask (k₁.deactivate t) t).map fun k => ⟨k, .fire t :: s.env⟩
      else some ⟨k₁.deactivate t, .fire t :: s.env⟩ := by
  rw [rtTimerFire, hk]
  simp only [Option.bind_eq_bind, Option.bind_some, hf, silent, Option.pure_def,
    Option.map_eq_bind, Function.comp_def]

theorem fire (h : RowsRel L s b) (mask : BitVec 32) (hb : Tame b) (hL : 0 < L)
    (hfire : fireList t b = some b') :
    ∃ s', rtTimerFire L mask silent t s = some s' ∧ RowsRel L s' b' := by
  obtain ⟨rows, hrows⟩ := h.rows
  obtain ⟨f, hf⟩ := Option.ne_none_iff_exists'.mp (hb.usable.timer t).timeoutFunc
  obtain ⟨k₁, hk₁, h₁⟩ := hrows.remove t
  rw [fireList, Abs.timerFire_eq (hb.usable.live t) hf rfl] at hfire
  rw [rtTimerFire_silent hk₁ (by rw [h₁.timer]; exact hf), h₁.timer, h.env]
  by_cases hagain : (b.timers.timer t).periodic ∧ (b.timers.timer t).activated
  · obtain ⟨k₂, a₂, rows₂, hk₂, ha₂, h₂⟩ := Rows.start (h₁.deactivate t)
      (b := ⟨_, b.env⟩) ((hb.remove (g := b.env) t).1.deactivate t) hL mask t
    obtain ⟨a', ha', rfl⟩ := Option.map_eq_some_iff.mp ((if_pos hagain).symm.trans hfire)
    obtain rfl : a' = a₂ := Option.some.inj (ha'.symm.trans ha₂)
    rw [if_pos hagain, hk₂]
    exact ⟨_, rfl, ⟨rows₂, h₂⟩, rfl⟩
  · obtain rfl := Option.some.inj ((if_neg hagain).symm.trans hfire)
    rw [if_neg hagain]
    exact ⟨_, rfl, ⟨_, h₁.deactivate t⟩, rfl⟩

section
omit [Fintype ι]

theorem next_first (h : RowsRel L s b) (hL : 0 < L) :
    s.timers.timerList.next (.head (L - 1)) =
      some (firstNode (L - 1) (b.timers.queue.map fun t => (t, L - 1))) := by
  obtain ⟨rows, hrows⟩ := h.rows
  have hnext := hrows.rep.next_head (rowRings_live_head.mpr (Nat.sub_lt hL Nat.one_pos))
  rw [← hrows.bottom]
  exact hnext

end

variable {call : ι → γ → Sys ι γ (RowLinks ι) (TimerLog ι) →
  Option (Sys ι γ (RowLinks ι) (TimerLog ι))}

/-- The check is over for the rows when it is for the sequence. -/
theorem stops (h : RowsRel L s b) (hL : 0 < L) (hq : Quiet b) (fuel : Nat) :
    rtTimerCheck L mask call fuel s = some s := by
  obtain ⟨rows, hrows⟩ := h.rows
  have hnext := h.next_first hL
  unfold rtTimerCheck
  cases hqueue : b.timers.queue with
  | nil =>
    rw [hqueue] at hnext
    exact if_pos (decide_eq_true hnext)
  | cons t ts =>
    rw [hqueue] at hnext
    have hnot : ¬ (s.timers.timer t).due s.timers.rtTick := by
      rw [hrows.timer, hrows.rtTick]
      exact hq t (by simp [hqueue])
    simp [rtListIsempty, hnext, rtTimerEntry, hnot]

/-- The check goes on with the first of the sequence. -/
theorem fires (h : RowsRel L s b) (hL : 0 < L) (ht : b.timers.queue.head? = some t)
    (hdue : (b.timers.timer t).due b.timers.rtTick) (fuel : Nat) :
    rtTimerCheck L mask call (fuel + 1) s =
      (rtTimerFire L mask call t s).bind (rtTimerCheck L mask call fuel) := by
  obtain ⟨rows, hrows⟩ := h.rows
  obtain ⟨ts, hqueue⟩ := List.head?_eq_some_iff.mp ht
  have hnext := h.next_first hL
  rw [hqueue] at hnext
  have hdue' : (s.timers.timer t).due s.timers.rtTick := by
    rw [hrows.timer, hrows.rtTick]
    exact hdue
  rw [rtTimerCheck]
  simp [rtListIsempty, hnext, rtTimerEntry, hdue']

theorem check (hL : 0 < L) (n : Nat) :
    ∀ {s : Sys ι γ (RowLinks ι) (TimerLog ι)} {b b' : Sys ι γ (TimerRings ι) (TimerLog ι)},
      RowsRel L s b → Tame b →
      Abs.timerCheck (fun t f (_ : Unit) b => silent t f b) (List.replicate n ()) b = some b' →
      ∃ s', rtTimerCheck L mask silent n s = some s' ∧ RowsRel L s' b' := by
  induction n with
  | zero =>
    intro s b b' h _ hcheck
    rcases Abs.timerCheck_cases hcheck with ⟨rfl, hq⟩ | ⟨c, rest, t, b₁, hnil, -⟩
    · exact ⟨s, h.stops hL hq 0, h⟩
    · cases hnil
  | succ n ih =>
    intro s b b' h hb hcheck
    rcases Abs.timerCheck_cases hcheck with ⟨rfl, hq⟩ | ⟨c, rest, t, b₁, hcons, ht, hdue, hf, hrest⟩
    · exact ⟨s, h.stops hL hq (n + 1), h⟩
    · cases hcons
      obtain ⟨s₁, hs₁, h₁⟩ := h.fire mask hb hL hf
      obtain ⟨b₂, hb₂, htame, -⟩ := hb.fire ht hdue
      obtain rfl : b₁ = b₂ := Option.some.inj (hf.symm.trans hb₂)
      obtain ⟨s', hs', h'⟩ := ih h₁ htame hrest
      refine ⟨s', ?_, h'⟩
      rw [h.fires hL ht hdue, hs₁]
      exact hs'

end RowsRel

/-! ## Runs -/

/-- The operations on the sequence. -/
def RowOp.execList [Fintype ι] (b : Sys ι γ (TimerRings ι) (TimerLog ι)) :
    RowOp ι → Option (Sys ι γ (TimerRings ι) (TimerLog ι))
  | .start t => do return { b with timers := ← Abs.timerStart b.timers t }
  | .stop t => do return { b with timers := ← (Abs.timerStop b.timers t).map Prod.snd }
  | .detach t => do return { b with timers := ← Abs.timerRemove b.timers t }
  | .tick => Abs.timerCheck (fun t f (_ : Unit) b => silent t f b)
      (List.replicate (Fintype.card ι) ())
      { timers := { b.timers with rtTick := b.timers.rtTick + 1 }, env := .tick :: b.env }

section
omit [DecidableEq ι]

theorem Tame.tickBegin (h : Tame b) (hrest : NoneOverdue b) :
    Tame { timers := { b.timers with rtTick := b.timers.rtTick + 1 }, env := .tick :: b.env } :=
  ⟨h.ordered.tickBegin hrest, h.usable.of_eq rfl (fun _ => rfl) fun _ => rfl⟩

end

/-- Every operation returns. -/
theorem Tame.exec [Fintype ι] (h : Tame b) (hrest : NoneOverdue b) (op : RowOp ι) :
    ∃ b', op.execList b = some b' ∧ Tame b' ∧ NoneOverdue b' := by
  cases op with
  | start t =>
    obtain ⟨a', ha', h', hrest'⟩ := h.start (g := b.env) t
    exact ⟨⟨a', b.env⟩, by simp [RowOp.execList, ha'], h', hrest' hrest⟩
  | stop t =>
    obtain ⟨e, a', ha', h', hrest'⟩ := h.stop (g := b.env) t
    exact ⟨⟨a', b.env⟩, by simp [RowOp.execList, ha'], h', hrest' hrest⟩
  | detach t =>
    obtain ⟨h', hrest'⟩ := h.remove (g := b.env) t
    exact ⟨⟨_, b.env⟩, by simp [RowOp.execList, (h.usable.remove t).1], h', hrest' hrest⟩
  | tick => exact (h.tickBegin hrest).check (Finset.card_le_univ _)

theorem Rows.stop (h : Rows L k b.timers rows) (hb : Tame b) {e : Int}
    {a' : TimerSys ι γ (TimerRings ι)} (hstop : Abs.timerStop b.timers t = some (e, a')) :
    ∃ k' rows', rtTimerStop L k t = some (e, k') ∧ Rows L k' a' rows' := by
  unfold Abs.timerStop at hstop
  unfold rtTimerStop
  rw [h.timer]
  split at hstop
  · rename_i hact
    cases hstop
    exact ⟨k, rows, if_pos hact, h⟩
  · rename_i hact
    rw [(hb.usable.remove t).1] at hstop
    cases hstop
    obtain ⟨k₁, hk₁, h₁⟩ := h.remove t
    exact ⟨k₁.deactivate t, _, by rw [if_neg hact, hk₁]; rfl, h₁.deactivate t⟩

/-- **One operation** with rows and on the sequence. -/
theorem RowsRel.exec [Fintype ι] {s : Sys ι γ (RowLinks ι) (TimerLog ι)} (h : RowsRel L s b)
    (hb : Tame b) (hrest : NoneOverdue b) (hL : 0 < L) (mask : BitVec 32) {op : RowOp ι}
    (hrun : op.execList b = some b') : ∃ s', op.exec L mask s = some s' ∧ RowsRel L s' b' := by
  obtain ⟨rows, hrows⟩ := h.rows
  cases op with
  | start t =>
    obtain ⟨a', ha', hret⟩ := Option.bind_eq_some_iff.mp hrun
    cases hret
    obtain ⟨k', a₂, rows', hk', ha₂, h'⟩ := hrows.start hb hL mask t
    obtain rfl : a' = a₂ := Option.some.inj (ha'.symm.trans ha₂)
    exact ⟨⟨k', s.env⟩, by simp [RowOp.exec, hk'], ⟨rows', h'⟩, h.env⟩
  | stop t =>
    obtain ⟨a', ha', hret⟩ := Option.bind_eq_some_iff.mp hrun
    cases hret
    obtain ⟨e, hstop⟩ := returned_of_map ha'
    obtain ⟨k', rows', hk', h'⟩ := hrows.stop hb hstop
    exact ⟨⟨k', s.env⟩, by simp [RowOp.exec, hk'], ⟨rows', h'⟩, h.env⟩
  | detach t =>
    obtain ⟨a', ha', hret⟩ := Option.bind_eq_some_iff.mp hrun
    cases hret
    obtain ⟨-, rfl⟩ := Abs.timerRemove_eq_some ha'
    obtain ⟨k', hk', h'⟩ := hrows.remove t
    exact ⟨⟨k', s.env⟩, by simp [RowOp.exec, rtTimerDetach, hk'], ⟨_, h'⟩, h.env⟩
  | tick =>
    have h₁ : RowsRel L
        { timers := { s.timers with rtTick := s.timers.rtTick + 1 }, env := .tick :: s.env }
        { timers := { b.timers with rtTick := b.timers.rtTick + 1 }, env := .tick :: b.env } :=
      ⟨⟨rows, by rw [hrows.rtTick]; exact hrows.setTick _⟩, by rw [h.env]⟩
    exact RowsRel.check hL (Fintype.card ι) h₁ (hb.tickBegin hrest) hrun

/-! ## The timers as they are initialised -/

/-- The record that `rt_timer_init` leaves. -/
def TimerArgs.timer (x : TimerArgs γ) : RtTimer γ where
  flag := x.flag &&& ~~~RT_TIMER_FLAG_ACTIVATED
  timeoutFunc := some x.timeout
  initTick := x.time
  timeoutTick := 0

/-- All timers initialised and none started, on the sequence. -/
def listTimers (init : Tick) (random : BitVec 32) (args : ι → TimerArgs γ) :
    Sys ι γ (TimerRings ι) (TimerLog ι) where
  timers :=
    { rtTick := init
      randomNr := random
      timer := fun t => (args t).timer
      timerList := { seq := fun _ => [], live := fun _ => true } }
  env := []

/-- The row nodes of the timers `ts`. -/
def rowNodes (L : Nat) (ts : List ι) : List (RowNode ι) :=
  ts.flatMap fun t => (List.range L).map fun i => .item (t, i)

theorem init_foldl (args : ι → TimerArgs γ) (ts : List ι) :
    ∀ {k k' : TimerSys ι γ (RowLinks ι)}, k' = ts.foldl (fun k t =>
        rtTimerInit L k t (some (args t).timeout) (args t).time (args t).flag) k →
      k'.rtTick = k.rtTick ∧
      (∀ t, k'.timer t = if t ∈ ts then (args t).timer else k.timer t) ∧
      k'.timerList = (rowNodes L ts).foldl rtListInit k.timerList := by
  induction ts with
  | nil =>
    rintro k _ rfl
    exact ⟨rfl, fun t => by simp, rfl⟩
  | cons u ts ih =>
    intro k k' hk'
    obtain ⟨htick, htimer, hlist⟩ := ih hk'
    refine ⟨htick, fun t => ?_, ?_⟩
    · rw [htimer t]
      by_cases ht : t ∈ ts
      · simp [ht]
      · by_cases htu : t = u
        · subst htu
          simp [ht, rtTimerInit, TimerArgs.timer, TimerSys.setTimer]
        · simp [ht, htu, rtTimerInit, TimerSys.setTimer]
    · rw [hlist, rowNodes, rowNodes, List.flatMap_cons, List.foldl_append, List.foldl_map]
      rfl

theorem rowTimers_rel {init : Tick} {random : BitVec 32} {args : ι → TimerArgs γ} {ts : List ι}
    (hts : ∀ t, t ∈ ts) : RowsRel L (rowTimers L init random args ts)
      (listTimers init random args) := by
  obtain ⟨htick, htimer, hlist⟩ := init_foldl args ts
    (rfl : (rowTimers L init random args ts).timers = _)
  have hrep := rtListInit_foldl_rep ((List.range L).map .head ++ rowNodes L ts)
  have hlive : (⟨fun _ => [], fun n => decide (n ∈ (List.range L).map .head ++ rowNodes L ts)⟩ :
      Rings Nat (ι × Nat)) = rowRings L fun _ => [] := by
    refine congrArg (Rings.mk _) (funext fun n => ?_)
    cases n with
    | head r => simp [rowNodes]
    | item x =>
      obtain ⟨t, r⟩ := x
      simp [rowNodes, hts]
  rw [hlive, List.foldl_append, List.foldl_map] at hrep
  refine ⟨⟨fun _ => [], ?_, rfl, fun _ _ => List.Sublist.refl _, htick, funext fun t => ?_⟩, rfl⟩
  · rw [hlist]
    exact hrep
  · rw [htimer t, if_pos (hts t)]
    rfl

section
omit [DecidableEq ι]

theorem listTimers_tame (init : Tick) (random : BitVec 32) {args : ι → TimerArgs γ}
    (hargs : ∀ t, 1 ≤ (args t).time ∧ (args t).time < RT_TICK_MAX / 2) :
    Tame (listTimers init random args) ∧ NoneOverdue (listTimers init random args) := by
  have hvalid : (listTimers init random args).timers.timerList.Valid :=
    ⟨fun _ => List.nodup_nil, fun h => absurd h List.not_mem_nil, fun _ => rfl, fun _ => rfl⟩
  have husable : Abs.Usable (listTimers init random args).timers :=
    ⟨rfl, fun _ => rfl, fun t => ⟨Option.some_ne_none _, (hargs t).1, (hargs t).2⟩⟩
  exact ⟨⟨⟨hvalid, fun _ h => absurd h List.not_mem_nil, .nil⟩, husable⟩,
    fun _ h => absurd h List.not_mem_nil⟩

end

/-! ## The theorem -/

theorem RowsRel.row_eq [Fintype ι] {s : Sys ι γ (RowLinks ι) (TimerLog ι)} {k : Nat → List ι}
    (h : Rows L s.timers b.timers k) (r : Nat) : row s.timers r = k r := by
  have hread := h.rep.read_eq r (n := Fintype.card ι) (by
    rw [show (rowRings L k).seq r = (k r).map fun t => (t, r) from rfl, List.length_map]
    exact (nodup_row h.rep r).length_le_card)
  rw [row, hread]
  simp [rowRings, Function.comp_def]

/-- Runs with `L` rows, with `L'` and on the sequence go in lockstep. -/
theorem runRows_rel [Fintype ι] {L' : Nat} (hL : 0 < L) (hL' : 0 < L') (mask : BitVec 32)
    (ops : List (RowOp ι)) :
    ∀ {s s₁ : Sys ι γ (RowLinks ι) (TimerLog ι)} {b : Sys ι γ (TimerRings ι) (TimerLog ι)},
      RowsRel L s b → RowsRel L' s₁ b → Tame b → NoneOverdue b →
      ∃ s' s₁' b', runRows L mask ops s = some s' ∧ runRows L' mask ops s₁ = some s₁' ∧
        RowsRel L s' b' ∧ RowsRel L' s₁' b' := by
  induction ops with
  | nil => exact fun h h₁ _ _ => ⟨_, _, _, rfl, rfl, h, h₁⟩
  | cons op ops ih =>
    intro s s₁ b h h₁ hb hrest
    obtain ⟨b₂, hb₂, htame, hrest₂⟩ := hb.exec hrest op
    obtain ⟨s₂, hs₂, h₂⟩ := h.exec hb hrest hL mask hb₂
    obtain ⟨s₃, hs₃, h₃⟩ := h₁.exec hb hrest hL' mask hb₂
    obtain ⟨s', s₁', b', hs', hs₁', hrel⟩ := ih h₂ h₃ htame hrest₂
    refine ⟨s', s₁', b', ?_, ?_, hrel⟩
    · rw [runRows, List.foldlM_cons, hs₂]
      exact hs'
    · rw [runRows, List.foldlM_cons, hs₃]
      exact hs₁'

/-- **The skip list agrees with the plain list.** For any number of levels, any mask and
any start of `random_nr`, every run of starts, stops, detaches and ticks returns with the
timers in the bottom row that the single list holds, in the same order, with every upper
row a subsequence of the row below it, and having run the same callbacks. -/
theorem skip_list_agrees [Fintype ι] (hL : 0 < L) (mask : BitVec 32) (init : Tick)
    (random : BitVec 32) {args : ι → TimerArgs γ}
    (hargs : ∀ t, 1 ≤ (args t).time ∧ (args t).time < RT_TICK_MAX / 2) {ts : List ι}
    (hts : ∀ t, t ∈ ts) (ops : List (RowOp ι)) :
    ∃ s s₁, runRows L mask ops (rowTimers L init random args ts) = some s ∧
      runRows 1 mask ops (rowTimers 1 init random args ts) = some s₁ ∧
      row s.timers (L - 1) = row s₁.timers 0 ∧
      (∀ r, r + 1 < L → (row s.timers r).Sublist (row s.timers (r + 1))) ∧
      s.env = s₁.env := by
  obtain ⟨htame, hrest⟩ := listTimers_tame init random hargs
  obtain ⟨s, s₁, b, hs, hs₁, ⟨⟨rows, hrows⟩, henv⟩, ⟨⟨rows₁, hrows₁⟩, henv₁⟩⟩ :=
    runRows_rel hL Nat.one_pos mask ops (rowTimers_rel hts) (rowTimers_rel hts) htame hrest
  refine ⟨s, s₁, hs, hs₁, ?_, fun r hr => ?_, henv.trans henv₁.symm⟩
  · rw [RowsRel.row_eq hrows, RowsRel.row_eq hrows₁, hrows.bottom]
    exact hrows₁.bottom.symm
  · rw [RowsRel.row_eq hrows, RowsRel.row_eq hrows]
    exact hrows.upper r hr

/-- Four periodic timers, the first and the last for the same time. -/
def fourTimers (t : Fin 4) : TimerArgs Unit where
  timeout := ()
  time := if t = 3 then 4 else 4 + BitVec.ofNat 32 t.val
  flag := RT_TIMER_FLAG_PERIODIC

/-- Three rows after starts, restarts and a tick. -/
theorem three_rows :
    ∃ s s₁, runRows 3 1 [.start 2, .start 1, .start 0, .start 3, .tick, .start 3]
        (rowTimers 3 0 0 fourTimers [0, 1, 2, 3]) = some s ∧
      runRows 1 1 [.start 2, .start 1, .start 0, .start 3, .tick, .start 3]
        (rowTimers 1 0 0 fourTimers [0, 1, 2, 3]) = some s₁ ∧
      row s.timers 2 = row s₁.timers 0 ∧
      (∀ r, r + 1 < 3 → (row s.timers r).Sublist (row s.timers (r + 1))) ∧
      s.env = s₁.env :=
  skip_list_agrees (by decide) 1 0 0 (by decide) (by decide) _

/-! ## The functions without rows -/

/-- The operations of `RT_TIMER_SKIP_LIST_LEVEL` 1 as they stand without rows. -/
def RowOp.execPlain [Fintype ι] (s : Sys ι γ (TimerLinks ι) (TimerLog ι)) :
    RowOp ι → Option (Sys ι γ (TimerLinks ι) (TimerLog ι))
  | .start t => do return { s with timers := ← SampleRtos.rtTimerStart s.timers t }
  | .stop t => do return { s with timers := ← (SampleRtos.rtTimerStop s.timers t).map Prod.snd }
  | .detach t => do return { s with timers := ← SampleRtos.rtTimerDetach s.timers t }
  | .tick => SampleRtos.rtTickIncrease (fun s => some { s with env := .tick :: s.env })
      (fun t f (_ : Unit) s => silent t f s) (List.replicate (Fintype.card ι) ()) s

theorem RowOp.execPlain_rel [Fintype ι] {s : Sys ι γ (TimerLinks ι) (TimerLog ι)}
    (h : HistoryRel s b) (op : RowOp ι) :
    Option.Rel HistoryRel (op.execPlain s) (op.execList b) := by
  cases op with
  | start t =>
    exact Lockstep.bind (rtTimerStart_rel h.timers t) fun _ _ _ _ h' => .some ⟨h', h.env⟩
  | stop t =>
    exact Lockstep.bind (Lockstep.map_snd (rtTimerStop_rel h.timers t))
      fun _ _ _ _ h' => .some ⟨h', h.env⟩
  | detach t =>
    exact Lockstep.bind (rtTimerRemove_rel h.timers t) fun _ _ _ _ h' => .some ⟨h', h.env⟩
  | tick =>
    have hsilent : ∀ (t : ι) (f : γ) {s₁ : Sys ι γ (TimerLinks ι) (TimerLog ι)}
        {b₁ : Sys ι γ (TimerRings ι) (TimerLog ι)}, HistoryRel s₁ b₁ →
          Option.Rel HistoryRel (silent t f s₁) (silent t f b₁) := fun t f _ _ h₁ =>
      .some ⟨h₁.timers, congrArg (List.cons (TimerEvent.fire t)) h₁.env⟩
    exact rtTimerCheck_rel (fun _ => True) (fun _ t f _ _ _ _ _ _ h₁ => hsilent t f h₁)
      (fun _ _ _ _ _ _ _ => trivial) _ _ _ trivial h.tickStart

/-- The functions without rows and those with one row go in lockstep. -/
theorem plain_run [Fintype ι] (mask : BitVec 32) (ops : List (RowOp ι)) :
    ∀ {s : Sys ι γ (TimerLinks ι) (TimerLog ι)} {s₁ : Sys ι γ (RowLinks ι) (TimerLog ι)}
      {b : Sys ι γ (TimerRings ι) (TimerLog ι)},
      HistoryRel s b → RowsRel 1 s₁ b → Tame b → NoneOverdue b →
      ∃ s' s₁', ops.foldlM RowOp.execPlain s = some s' ∧ runRows 1 mask ops s₁ = some s₁' ∧
        s'.timers.view.timerList = row s₁'.timers 0 ∧ s'.env = s₁'.env := by
  induction ops with
  | nil =>
    intro s s₁ b h ⟨⟨rows, hrows⟩, henv⟩ _ _
    refine ⟨s, s₁, rfl, rfl, ?_, h.env.trans henv.symm⟩
    rw [view_rel h.timers, RowsRel.row_eq hrows]
    exact hrows.bottom.symm
  | cons op ops ih =>
    intro s s₁ b h h₁ hb hrest
    obtain ⟨b₂, hb₂, htame, hrest₂⟩ := hb.exec hrest op
    obtain ⟨s₂, hs₂, h₂⟩ := Lockstep.exists_of_right (RowOp.execPlain_rel h op) hb₂
    obtain ⟨s₃, hs₃, h₃⟩ := h₁.exec hb hrest Nat.one_pos mask hb₂
    obtain ⟨s', s₁', hs', hs₁', hsame⟩ := ih h₂ h₃ htame hrest₂
    refine ⟨s', s₁', ?_, ?_, hsame⟩
    · rw [List.foldlM_cons, hs₂]
      exact hs'
    · rw [runRows, List.foldlM_cons, hs₃]
      exact hs₁'

end SkipList

end SampleRtos
