import SampleRtos.Timer.Guarded
import SampleRtos.Timer.Timely

/-!
# Stopped timers

`rt_timer_stop` goes by the flag `ACTIVATED` and not by the list, so a timer that is
linked has to be flagged. `rt_timer_check` clears the flag of a one-shot timer when its
callback returns; if the callback has started that same timer again it is linked, and
from then on it cannot be stopped. No other combination of callbacks, one-shot and
periodic timers parts the flag from the list.
-/

namespace SampleRtos

open Intrusive

section Stopped
variable {ι γ : Type} [DecidableEq ι]

/-! ## The property and its exception -/

/-- Since `rt_timer_stop` was last called for `t` there was no call of `rt_timer_start`. -/
def stopped : TimerLog ι → ι → Bool
  | [], _ => false
  | .start u _ :: log, t => if t = u then false else stopped log t
  | .stop u :: log, t => if t = u then true else stopped log t
  | _ :: log, t => stopped log t

/-- The callback of `t` has returned with `t` linked and one-shot. -/
def RestartsItself (v : TimerView ι γ) (t : ι) : Prop :=
  t ∈ v.timerList ∧ ¬ (v.timer t).periodic

instance (v : TimerView ι γ) (t : ι) : Decidable (RestartsItself v t) :=
  inferInstanceAs (Decidable (_ ∧ _))

/-- Any calls, by callbacks that return in a state that meets `spare`. -/
def returning (spare : TimerView ι γ → ι → Bool) : TimerGuard ι γ where
  call _ _ := true
  returned := spare

/-! ## The invariant -/

/-- What is linked is flagged, what has been stopped is not, and no timer has fired
while stopped. -/
structure Obedient (b : Sys ι γ (TimerRings ι) (TimerLog ι)) : Prop where
  valid : b.timers.timerList.Valid
  linked : ∀ t ∈ b.timers.queue, (b.timers.timer t).activated
  silent : ∀ t, stopped b.env t = true → ¬ (b.timers.timer t).activated
  fired : ∀ t log, .fire t :: log <:+ b.env → stopped log t = false

variable {b : Sys ι γ (TimerRings ι) (TimerLog ι)} {t : ι} {m : TimerSys ι γ (TimerRings ι)}

namespace Obedient

theorem fired_cons (h : Obedient b) {e : TimerEvent ι}
    (he : ∀ t, e = .fire t → stopped b.env t = false) :
    ∀ t log, .fire t :: log <:+ e :: b.env → stopped log t = false := by
  intro t log hsuf
  rcases List.suffix_cons_iff.mp hsuf with heq | hsuf
  · cases heq
    exact he t rfl
  · exact h.fired t log hsuf

/-- Records change in fields other than the flag, or lose it while not linked. -/
theorem touch (h : Obedient b) (hvalid : m.timerList.Valid)
    (hsub : ∀ u ∈ m.queue, u ∈ b.timers.queue ∧ (m.timer u).activated)
    (hflag : ∀ u, (m.timer u).activated → (b.timers.timer u).activated) :
    Obedient { b with timers := m } :=
  ⟨hvalid, fun u hu => (hsub u hu).2, fun u hu hact => h.silent u hu (hflag u hact), h.fired⟩

/-- A start flags what it links, whatever the flag was. -/
theorem start (h : Obedient b) {k : TimerSys ι γ (TimerRings ι)} {log : TimerLog ι}
    (hlist : k.timerList = b.timers.timerList)
    (hsame : ∀ u, u ≠ t → k.timer u = b.timers.timer u) (hstart : Abs.timerStart k t = some m)
    (hstopped : ∀ u, stopped log u = true → u ≠ t ∧ stopped b.env u = true)
    (hfired : ∀ u rest, .fire u :: rest <:+ log → stopped rest u = false) :
    Obedient { timers := m, env := log } := by
  have hvalid : k.timerList.Valid := hlist ▸ h.valid
  obtain ⟨xs, ys, hm⟩ := Abs.timerStart_started hvalid hstart
  have hother : ∀ u, u ≠ t → m.timer u = b.timers.timer u := fun u hu =>
    (hm.other u hu).trans (hsame u hu)
  refine ⟨hm.valid_after, fun u hu => ?_, fun u hu => ?_, hfired⟩
  · by_cases hut : u = t
    · subst hut
      rw [hm.self]
      exact RtTimer.started_activated _ _
    · rw [hother u hut]
      refine h.linked u ?_
      rw [TimerSys.queue, ← hlist]
      exact (hm.mem_queue.mp hu).resolve_left hut
  · obtain ⟨hut, hu⟩ := hstopped u hu
    rw [hother u hut]
    exact h.silent u hu

/-- A call keeps flag, list and history together. -/
theorem call (h : Obedient b) {c : TimerCall ι γ} (hallowed : Abs.TimerCallAllowed b.timers c)
    (hexec : Abs.execTimerCall b.timers c = some m) :
    Obedient { timers := m, env := c.note b.timers b.env } := by
  unfold Abs.execTimerCall at hexec
  cases c with
  | init t timeout time flag =>
    cases hexec
    have hcleared : ¬ ((Abs.timerInit b.timers t timeout time flag).timer t).activated := by
      simpa [Abs.timerInit, RtTimer.activated] using (flag_bits flag).2.2.1
    refine h.touch (h.valid.mark _) (fun u hu => ⟨hu, ?_⟩) fun u hact => ?_
    · have hut : u ≠ t := fun hut => hallowed (hut ▸ hu)
      simpa [Abs.timerInit, hut] using h.linked u hu
    · by_cases hut : u = t
      · subst hut; exact absurd hact hcleared
      · simpa [Abs.timerInit, hut] using hact
  | start t =>
    refine h.start rfl (fun _ _ => rfl) hexec (fun u hu => ?_)
      (h.fired_cons fun _ heq => by cases heq)
    simp only [TimerCall.note, stopped] at hu
    split at hu
    · cases hu
    · rename_i hut
      exact ⟨hut, hu⟩
  | stop t =>
    obtain ⟨e, hstop⟩ := returned_of_map hexec
    have hfired := h.fired_cons (e := .stop t) fun _ heq => by cases heq
    have hstopped : ∀ u, stopped (.stop t :: b.env) u = true → u = t ∨ stopped b.env u = true := by
      intro u hu
      simp only [stopped] at hu
      split at hu
      · rename_i hut
        exact .inl hut
      · exact .inr hu
    rcases Abs.timerStop_spec hstop with ⟨hact, rfl⟩ | ⟨-, -, rfl⟩
    · -- refused, because the timer is silent as it is
      refine ⟨h.valid, h.linked, fun u hu => ?_, hfired⟩
      rcases hstopped u hu with rfl | hu
      · exact hact
      · exact h.silent u hu
    · refine ⟨h.valid.erase t, fun u hu => ?_, fun u hu => ?_, hfired⟩
      · obtain ⟨hu, hut⟩ := (TimerSys.mem_others h.valid).mp hu
        simpa [TimerSys.stopped, hut] using h.linked u hu
      · by_cases hut : u = t
        · subst hut; simp [TimerSys.stopped]
        · simpa [TimerSys.stopped, hut] using h.silent u ((hstopped u hu).resolve_left hut)
  | control t cmd =>
    cases hexec
    have hflag : ∀ u, ((b.timers.rtTimerControl t cmd).timer u).activated ↔
        (b.timers.timer u).activated := by
      intro u
      by_cases hut : u = t
      · subst hut; simpa using (control_flags (b.timers.timer u) cmd).2
      · simp [hut]
    exact h.touch h.valid (fun u hu => ⟨hu, (hflag u).mpr (h.linked u hu)⟩) fun u => (hflag u).mp
  | detach t =>
    -- unlinked but still flagged, which the history does not count as stopped
    obtain ⟨-, rfl⟩ := Abs.timerRemove_eq_some hexec
    refine ⟨h.valid.erase t, fun u hu => ?_, h.silent, h.fired_cons fun _ heq => by cases heq⟩
    exact h.linked u ((TimerSys.mem_others h.valid).mp hu).1

end Obedient

/-- **A check** whose callbacks do not restart their own one-shot timers keeps flag, list
and history together. -/
theorem checkKeeps_obedient :
    CheckKeeps (returning fun v t => !decide (RestartsItself v t))
      fun b : Sys ι γ (TimerRings ι) (TimerLog ι) => Obedient b where
  call h hallowed _ hexec := h.call hallowed hexec
  unlink {b t} h ht _ := by
    have hact := h.linked t (List.mem_of_mem_head? ht)
    refine ⟨h.valid.erase t, fun u hu => ?_, h.silent, h.fired_cons fun u heq => ?_⟩
    · exact h.linked u ((TimerSys.mem_others h.valid).mp hu).1
    · cases heq
      by_contra hstopped
      exact h.silent t (by simpa using hstopped) hact
  restart {b t a} h _ _ hact hstart := by
    refine h.start (k := b.timers.deactivate t) rfl (fun u hut => by simp [hut]) hstart
      (fun u hu => ⟨?_, hu⟩) h.fired
    rintro rfl
    exact h.silent u hu hact
  finish {b t} h hreturns hend := by
    have hspare : ¬ RestartsItself (Abs.view b.timers) t := by
      simpa [returning] using hreturns.1
    have hout : ∀ u ∈ b.timers.queue, u ≠ t := by
      rintro u hu rfl
      exact hend ⟨not_not.mp fun hper => hspare ⟨hu, hper⟩, h.linked u hu⟩
    refine h.touch h.valid (fun u hu => ⟨hu, ?_⟩) fun u hact => ?_
    · simpa [hout u hu] using h.linked u hu
    · by_cases hut : u = t
      · subst hut; simp at hact
      · simpa [hut] using hact

/-! ## The theorem -/

/-- **A stopped timer does not fire**, and outside `rt_timer_check` what is linked can be
stopped, in every run in which no callback restarts its own timer and returns with it
one-shot. -/
theorem stopped_stays_silent [Fintype ι] {init : Tick} {s : Sys ι γ (TimerLinks ι) (TimerLog ι)}
    (hs : GuardedReachable (returning fun v t => !decide (RestartsItself v t)) init s) :
    (∀ t log, .fire t :: log <:+ s.env → stopped log t = false) ∧
      ∀ t ∈ s.timers.view.timerList, ∃ k, rtTimerStop s.timers t = some (RT_EOK, k) ∧
        t ∉ k.view.timerList := by
  obtain ⟨b, h, hb⟩ := hs.invariant (I := Obedient)
    (fun random timer => ⟨(null_rep (H := TimerHead) (α := ι)).valid.mark _,
      fun t ht => by simp [Abs.timersFrom, TimerSys.queue] at ht,
      fun t ht => by simp [Abs.timersFrom, stopped] at ht,
      fun t log hsuf => by simp [Abs.timersFrom] at hsuf⟩)
    fun b op b' hI hrun => by
      cases op with
      | call c => exact checkKeeps_obedient.runCall hI hrun
      | check script => exact (checkKeeps_obedient.check hI hrun).1
      | tick script =>
        have h₀ : Obedient
            { timers := { b.timers with rtTick := b.timers.rtTick + 1 }, env := .tick :: b.env } :=
          ⟨hI.valid, hI.linked, hI.silent, hI.fired_cons fun _ heq => by cases heq⟩
        exact (checkKeeps_obedient.check h₀ hrun).1
  refine ⟨by rw [h.env]; exact hb.fired, fun t ht => ?_⟩
  rw [view_rel h.timers, Abs.view_timerList] at ht
  have hstop : Abs.timerStop b.timers t = some (RT_EOK, b.timers.stopped t) := by
    rw [Abs.timerStop, if_neg (not_not.mpr (hb.linked t ht)),
      Abs.timerRemove_of_live (hb.valid.item_live ht)]
    rfl
  obtain ⟨⟨e, k⟩, hk, rfl, hrel⟩ := Lockstep.exists_of_right (rtTimerStop_rel h.timers t) hstop
  refine ⟨k, hk, ?_⟩
  rw [view_rel hrel]
  exact fun hmem => ((TimerSys.mem_others hb.valid).mp hmem).2 rfl

/-- A one-shot timer 0 and a periodic timer 1 are started and fire together; `calls` is
what the callback of timer 0 does. -/
def fireBoth (calls : List (TimerCall (Fin 2) Unit)) : List (CheckOp (Fin 2) Unit) :=
  [.call (.init 0 (some ()) 1 RT_TIMER_FLAG_ONE_SHOT),
    .call (.init 1 (some ()) 1 RT_TIMER_FLAG_PERIODIC), .call (.start 0), .call (.start 1),
    .tick [calls, [.stop 1, .start 1]]]

/-- The callback of timer 0 stops and starts the other timer, the callback of timer 1
its own. -/
theorem callbacks_obeyed :
    ∃ s, Run.exec (CheckOp.exec (returning fun v t => !decide (RestartsItself v t)))
        (fun _ _ => True) (fireBoth [.stop 1, .start 1]) rawTimers = some s ∧
      s.timers.view.timerList = [1] ∧
      (∀ t log, .fire t :: log <:+ s.env → stopped log t = false) ∧
      ∃ k, rtTimerStop s.timers 1 = some (RT_EOK, k) ∧ 1 ∉ k.view.timerList := by
  obtain ⟨s, hs, hreach, hp⟩ := Run.reach_of_exec
    (CheckOp.exec (returning fun v t => !decide (RestartsItself v t))) (fun _ _ => True)
    (fireBoth [.stop 1, .start 1]) rawTimers
    (fun s => decide (s.timers.view.timerList = [1])) (by decide +kernel)
  have hlist := of_decide_eq_true hp
  obtain ⟨hsilent, hstop⟩ := stopped_stays_silent (s := s) ⟨0, _, hreach⟩
  exact ⟨s, hs, hlist, hsilent, hstop 1 (by rw [hlist]; exact List.mem_cons_self ..)⟩

/-- A one-shot timer restarted by its own callback cannot be stopped, and fires. -/
theorem fires_when_stopped :
    ¬ ∀ (init : Tick) (s : Sys (Fin 2) Unit (TimerLinks (Fin 2)) (TimerLog (Fin 2))),
      GuardedReachable (returning fun _ _ => true) init s →
      (∀ t log, .fire t :: log <:+ s.env → stopped log t = false) ∧
        ∀ t ∈ s.timers.view.timerList, ∃ k, rtTimerStop s.timers t = some (RT_EOK, k) ∧
          t ∉ k.view.timerList := by
  intro hclaim
  obtain ⟨s, hs, hreach, hp⟩ := Run.reach_of_exec
    (CheckOp.exec (returning fun _ _ => true)) (fun _ _ => True)
    (fireBoth [.start 0] ++ [.call (.stop 0), .tick [[], []]]) rawTimers
    (fun s => decide (∃ t, ∃ log ∈ s.env.tails, log.head? = some (.fire t) ∧
      stopped log.tail t = true)) (by decide +kernel)
  obtain ⟨t, log, hmem, hhead, hstopped⟩ := of_decide_eq_true hp
  obtain ⟨rest, rfl⟩ := List.head?_eq_some_iff.mp hhead
  have hsilent := (hclaim 0 s ⟨0, _, hreach⟩).1 t rest ((List.mem_tails _ _).mp hmem)
  rw [List.tail_cons, hsilent] at hstopped
  cases hstopped

end Stopped

end SampleRtos
