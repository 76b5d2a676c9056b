import SampleRtos.Timer.Spec
import Mathlib.Data.BitVec
import Mathlib.Tactic.Ring

/-!
# Timers with another origin of the tick

The timer operations compare instants and read none by itself: what they do does not depend on
where `rt_tick` started. Two states whose ticks differ by `d`, and the deadlines of whose linked
timers do, go through every operation in lockstep. The deadline of a timer that is not linked
is never read.
-/

namespace SampleRtos

open Intrusive

section Origin
variable {ι γ E κ : Type} [DecidableEq ι] {d : Tick}
  {a b : TimerSys ι γ (TimerRings ι)} {t : ι} {r r' : RtTimer γ}

/-- The record but for its deadline. -/
def RtTimer.SameBut (r r' : RtTimer γ) : Prop := r' = { r with timeoutTick := r'.timeoutTick }

/-- `b` is `a` with every instant `d` later. -/
structure Shifted (d : Tick) (a b : TimerSys ι γ (TimerRings ι)) : Prop where
  rtTick : b.rtTick = a.rtTick + d
  randomNr : b.randomNr = a.randomNr
  timerList : b.timerList = a.timerList
  timer : ∀ t, (a.timer t).SameBut (b.timer t)
  deadline : ∀ t ∈ a.queue, (b.timer t).timeoutTick = (a.timer t).timeoutTick + d

namespace RtTimer.SameBut

theorem flag (h : r.SameBut r') : r'.flag = r.flag := by rw [h]

theorem timeoutFunc (h : r.SameBut r') : r'.timeoutFunc = r.timeoutFunc := by rw [h]

theorem initTick (h : r.SameBut r') : r'.initTick = r.initTick := by rw [h]

theorem activated (h : r.SameBut r') : r'.activated ↔ r.activated := by
  rw [RtTimer.activated, RtTimer.activated, h.flag]

theorem periodic (h : r.SameBut r') : r'.periodic ↔ r.periodic := by
  rw [RtTimer.periodic, RtTimer.periodic, h.flag]

theorem deactivate (h : r.SameBut r') : r.deactivate.SameBut r'.deactivate := by
  rw [h]
  rfl

theorem activate (h : r.SameBut r') : r.activate.SameBut r'.activate := by
  rw [h]
  rfl

theorem control (h : r.SameBut r') (cmd : TimerCtrl) :
    (r.control cmd).SameBut (r'.control cmd) := by
  rw [h]
  cases cmd <;> rfl

end RtTimer.SameBut

/-- The difference of two instants is where it was. -/
theorem sub_shifted (x y d : Tick) : x + d - (y + d) = x - y := by ring

/-- Whether a timer is due is a matter of a difference. -/
theorem due_shifted {now : Tick} (hr : r'.timeoutTick = r.timeoutTick + d) :
    r'.due (now + d) ↔ r.due now := by
  rw [RtTimer.due, RtTimer.due, hr, sub_shifted]

/-- And so is which of two comes first. -/
theorem precedes_shifted {u u' : RtTimer γ} (hr : r'.timeoutTick = r.timeoutTick + d)
    (hu : u'.timeoutTick = u.timeoutTick + d) : r'.precedes u' ↔ r.precedes u := by
  rw [RtTimer.precedes, RtTimer.precedes, hr, hu, sub_shifted]

/-- An ordered insertion compares the new item with those listed and with no others. -/
theorem insertOrdered_congr {H α : Type} [DecidableEq H] [DecidableEq α]
    {before before' : α → α → Prop} [DecidableRel before] [DecidableRel before'] {l : Rings H α}
    {h : H} {x : α} (hc : ∀ y ∈ l.seq h, before x y ↔ before' x y) :
    insertOrdered before l h x = insertOrdered before' l h x := by
  have hcut : ∀ ys : List α, (∀ y ∈ ys, before x y ↔ before' x y) →
      (ys.takeWhile fun y => ¬ before x y) = (ys.takeWhile fun y => ¬ before' x y) ∧
        (ys.dropWhile fun y => ¬ before x y) = ys.dropWhile fun y => ¬ before' x y := by
    intro ys
    induction ys with
    | nil => exact fun _ => ⟨rfl, rfl⟩
    | cons y ys ih =>
      intro hys
      obtain ⟨htake, hdrop⟩ := ih fun z hz => hys z (List.mem_cons_of_mem y hz)
      have hy := hys y List.mem_cons_self
      by_cases hb : before x y
      · simp [hb, hy.mp hb]
      · simpa [hb, mt hy.mpr hb] using And.intro htake hdrop
  obtain ⟨htake, hdrop⟩ := hcut _ hc
  rw [insertOrdered, insertOrdered, htake, hdrop]

namespace Shifted

section
omit [DecidableEq ι]

theorem queue (h : Shifted d a b) : b.queue = a.queue := by
  rw [TimerSys.queue, TimerSys.queue, h.timerList]

/-- Timers may be unlinked. -/
theorem setList (h : Shifted d a b) {l : TimerRings ι}
    (hl : ∀ t ∈ l.seq .rtTimerList, t ∈ a.queue) :
    Shifted d { a with timerList := l } { b with timerList := l } :=
  ⟨h.rtTick, h.randomNr, rfl, h.timer, fun t ht => h.deadline t (hl t ht)⟩

end

theorem setTimer (h : Shifted d a b) (hr : r.SameBut r')
    (ht : t ∈ a.queue → r'.timeoutTick = r.timeoutTick + d) :
    Shifted d (a.setTimer t r) (b.setTimer t r') where
  rtTick := h.rtTick
  randomNr := h.randomNr
  timerList := h.timerList
  timer u := by
    by_cases hut : u = t
    · subst hut
      simpa using hr
    · simpa [hut] using h.timer u
  deadline u hu := by
    by_cases hut : u = t
    · subst hut
      simpa using ht hu
    · simpa [hut] using h.deadline u hu

theorem deactivate (h : Shifted d a b) (t : ι) : Shifted d (a.deactivate t) (b.deactivate t) :=
  h.setTimer (h.timer t).deactivate (h.deadline t)

theorem erase (h : Shifted d a b) (t : ι) :
    Shifted d { a with timerList := a.timerList.erase t }
      { b with timerList := b.timerList.erase t } := by
  rw [h.timerList]
  exact h.setList fun u hu => Rings.mem_of_mem_erase hu

theorem remove (h : Shifted d a b) (t : ι) :
    Option.Rel (Shifted d) (Abs.timerRemove a t) (Abs.timerRemove b t) := by
  by_cases hlive : a.timerList.live (.item t) = true
  · rw [Abs.timerRemove_of_live hlive, Abs.timerRemove_of_live (h.timerList ▸ hlive)]
    exact .some (h.erase t)
  · have hnone : ∀ c : TimerSys ι γ (TimerRings ι), c.timerList = a.timerList →
        Abs.timerRemove c t = none := by
      intro c hc
      simp [Abs.timerRemove, SampleRtos.remove, hc, hlive]
    rw [hnone a rfl, hnone b h.timerList]
    exact .none

theorem init (h : Shifted d a b) (ht : t ∉ a.queue) (f : Option γ) (time : Tick)
    (flag : BitVec 8) :
    Shifted d (Abs.timerInit a t f time flag) (Abs.timerInit b t f time flag) := by
  let r : RtTimer γ :=
    { flag := flag &&& ~~~RT_TIMER_FLAG_ACTIVATED, timeoutFunc := f, initTick := time
      timeoutTick := 0 }
  have hset := h.setTimer (t := t) (show r.SameBut r from rfl) fun hmem => absurd hmem ht
  have hmark := hset.setList (l := a.timerList.mark (.item t)) fun u hu => hu
  unfold Abs.timerInit
  dsimp only
  rw [TimerSys.setTimer_timerList, TimerSys.setTimer_timerList, h.timerList]
  exact hmark

theorem stop (h : Shifted d a b) (t : ι) :
    Option.Rel (fun x y => x.1 = y.1 ∧ Shifted d x.2 y.2) (Abs.timerStop a t)
      (Abs.timerStop b t) := by
  unfold Abs.timerStop
  refine Lockstep.ite (not_congr (h.timer t).activated.symm) (fun _ => .some ⟨rfl, h⟩) fun _ => ?_
  exact Lockstep.bind (h.remove t) fun _ _ _ _ h' => .some ⟨rfl, h'.deactivate t⟩

theorem control (h : Shifted d a b) (t : ι) (cmd : TimerCtrl) :
    Shifted d (a.rtTimerControl t cmd) (b.rtTimerControl t cmd) := by
  refine h.setTimer ((h.timer t).control cmd) fun ht => ?_
  have hd := h.deadline t ht
  cases cmd <;> exact hd

/-- The new deadline is as much later as the tick it is counted from. -/
theorem arm (h : Shifted d a b) (ht : t ∉ a.queue) :
    Shifted d (rtTimerStartArm a t) (rtTimerStartArm b t) ∧
      ((rtTimerStartArm b t).timer t).timeoutTick =
        ((rtTimerStartArm a t).timer t).timeoutTick + d := by
  have hdeadline : b.rtTick + (b.timer t).initTick = a.rtTick + (a.timer t).initTick + d := by
    rw [h.rtTick, (h.timer t).initTick]
    ring
  refine ⟨h.setTimer ?_ fun hmem => absurd hmem ht, ?_⟩
  · rw [h.timer t]
    rfl
  · simpa [rtTimerStartArm] using hdeadline

/-- `rt_timer_start` stamps the timer and searches for its place. -/
theorem start (h : Shifted d a b) (hv : a.timerList.Valid) (t : ι) :
    Option.Rel (Shifted d) (Abs.timerStart a t) (Abs.timerStart b t) := by
  unfold Abs.timerStart
  refine Lockstep.bind (h.remove t) fun a₁ b₁ ha₁ _ h₁ => ?_
  obtain ⟨-, rfl⟩ := Abs.timerRemove_eq_some ha₁
  have hoff : t ∉ (a.timerList.erase t).seq .rtTimerList := hv.erase_free t _
  obtain ⟨h₂, hself⟩ := (h₁.deactivate t).arm hoff
  dsimp only
  generalize rtTimerStartArm (TimerSys.deactivate _ t) t = a₂ at h₂ hself ⊢
  generalize rtTimerStartArm (b₁.deactivate t) t = b₂ at h₂ hself ⊢
  have hsame : insertOrdered (fun x y => (b₂.timer x).precedes (b₂.timer y)) b₂.timerList
      .rtTimerList t =
      insertOrdered (fun x y => (a₂.timer x).precedes (a₂.timer y)) a₂.timerList
        .rtTimerList t := by
    rw [h₂.timerList]
    exact insertOrdered_congr fun u hu => precedes_shifted hself (h₂.deadline u hu)
  rw [hsame]
  refine Lockstep.bind (Lockstep.refl _) fun l l' hl _ hll => ?_
  subst hll
  obtain ⟨-, xs, ys, hcut, rfl, -⟩ := insertOrdered_spec hl
  have h₃ : Shifted d
      { a₂ with
        randomNr := a₂.randomNr + 1
        timerList := (a₂.timerList.mark (.item t)).setSeq .rtTimerList (xs ++ t :: ys) }
      { b₂ with
        randomNr := b₂.randomNr + 1
        timerList := (a₂.timerList.mark (.item t)).setSeq .rtTimerList (xs ++ t :: ys) } := by
    refine ⟨h₂.rtTick, by rw [h₂.randomNr], rfl, h₂.timer, fun u hu => ?_⟩
    by_cases hut : u = t
    · rw [hut]
      exact hself
    · have hold : u ∈ a₂.timerList.seq .rtTimerList := by
        rw [hcut]
        simpa [TimerSys.queue, hut] using hu
      exact h₂.deadline u hold
  exact .some (h₃.setTimer (h₂.timer t).activate fun _ => hself)

end Shifted

/-! ## One firing and a whole check -/

/-- Shifted timers with the same beside them. -/
structure ShiftedSys (d : Tick) (s s' : Sys ι γ (TimerRings ι) E) : Prop where
  timers : Shifted d s.timers s'.timers
  env : s'.env = s.env

variable {s s' : Sys ι γ (TimerRings ι) E}
  {call : ι → γ → κ → Sys ι γ (TimerRings ι) E → Option (Sys ι γ (TimerRings ι) E)}

/-- A firing, if the callback is in lockstep with itself. -/
theorem ShiftedSys.fire (h : ShiftedSys d s s') {c : κ} {t : ι}
    (hcall : ∀ f, ShiftedSys d (s.unlinked t) (s'.unlinked t) →
      Option.Rel (ShiftedSys d) (call t f c (s.unlinked t)) (call t f c (s'.unlinked t)))
    (hvalid : ∀ f s₁, call t f c (s.unlinked t) = some s₁ → s₁.timers.timerList.Valid) :
    Option.Rel (ShiftedSys d) (Abs.timerFire call c t s) (Abs.timerFire call c t s') := by
  unfold Abs.timerFire
  refine Lockstep.bind (h.timers.remove t) fun a₁ b₁ ha₁ hb₁ h₁ => ?_
  obtain ⟨-, rfl⟩ := Abs.timerRemove_eq_some ha₁
  obtain ⟨-, rfl⟩ := Abs.timerRemove_eq_some hb₁
  rw [show (TimerSys.timer _ t).timeoutFunc = _ from (h₁.timer t).timeoutFunc]
  refine Lockstep.bind (Lockstep.refl _) fun f f' _ _ hf => ?_
  subst hf
  have hfired : ShiftedSys d (s.unlinked t) (s'.unlinked t) := ⟨h₁, h.env⟩
  refine Lockstep.bind (hcall f hfired) fun s₁ s₁' hs₁ _ h₂ => ?_
  have hagain := and_congr (h₂.timers.timer t).periodic (h₂.timers.timer t).activated
  refine Lockstep.ite hagain.symm (fun _ => ?_) fun _ => .some ⟨h₂.timers.deactivate t, h₂.env⟩
  have hv : (s₁.timers.deactivate t).timerList.Valid := hvalid f s₁ hs₁
  exact Lockstep.bind ((h₂.timers.deactivate t).start hv t) fun _ _ _ _ h₃ => .some ⟨h₃, h₂.env⟩

/-- A whole check, if every firing is in lockstep with itself. -/
theorem ShiftedSys.check (I : Sys ι γ (TimerRings ι) E → Prop)
    (hfire : ∀ {s s' : Sys ι γ (TimerRings ι) E} {c t}, I s → ShiftedSys d s s' →
      s.timers.queue.head? = some t →
      Option.Rel (ShiftedSys d) (Abs.timerFire call c t s) (Abs.timerFire call c t s'))
    (hkeep : ∀ {s s₁ : Sys ι γ (TimerRings ι) E} {c t}, I s → s.timers.queue.head? = some t →
      Abs.timerFire call c t s = some s₁ → I s₁) (script : List κ) :
    ∀ {s s' : Sys ι γ (TimerRings ι) E}, I s → ShiftedSys d s s' →
      Option.Rel (ShiftedSys d) (Abs.timerCheck call script s)
        (Abs.timerCheck call script s') := by
  induction script with
  | nil =>
    intro s s' hI h
    unfold Abs.timerCheck
    refine Lockstep.ite (by rw [h.timers.timerList]) (fun _ => .some h) fun _ => ?_
    rw [h.timers.queue]
    refine Lockstep.bind (Lockstep.refl _) fun t t' ht _ htt => ?_
    subst htt
    have hmem : t ∈ s.timers.queue := List.mem_of_mem_head? ht
    rw [h.timers.rtTick]
    exact Lockstep.ite (due_shifted (h.timers.deadline t hmem)).symm (fun _ => .none)
      fun _ => .some h
  | cons c script ih =>
    intro s s' hI h
    unfold Abs.timerCheck
    refine Lockstep.ite (by rw [h.timers.timerList]) (fun _ => .some h) fun _ => ?_
    rw [h.timers.queue]
    refine Lockstep.bind (Lockstep.refl _) fun t t' ht _ htt => ?_
    subst htt
    have hmem : t ∈ s.timers.queue := List.mem_of_mem_head? ht
    rw [h.timers.rtTick]
    refine Lockstep.ite (due_shifted (h.timers.deadline t hmem)).symm (fun _ => ?_)
      fun _ => .some h
    exact Lockstep.bind (hfire hI h ht) fun s₁ _ hs₁ _ h₁ => ih (hkeep hI ht hs₁) h₁

end Origin

end SampleRtos
