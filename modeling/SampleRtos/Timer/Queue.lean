import SampleRtos.Timer.Defs

/-!
# The timer list as a sequence

The timer operations again, on the sequence of linked timers instead of the
links: what `rt_timer_start` searches for is an ordered insertion, what
`rt_timer_check` consumes is a queue. `TimerRel` ties a linked state to its
sequence, and each operation of timer.c is shown to run in lockstep with its
counterpart here.
-/

namespace SampleRtos

open Intrusive

abbrev TimerRings (ι : Type) := Rings TimerHead ι

namespace TimerSys
variable {ι γ L L' : Type}

/-- The same timers with another store for the list. -/
def withList (k : TimerSys ι γ L) (l : L') : TimerSys ι γ L' :=
  { rtTick := k.rtTick, randomNr := k.randomNr, timer := k.timer, timerList := l }

@[simp] theorem withList_rtTick (k : TimerSys ι γ L) (l : L') :
    (k.withList l).rtTick = k.rtTick := rfl
@[simp] theorem withList_randomNr (k : TimerSys ι γ L) (l : L') :
    (k.withList l).randomNr = k.randomNr := rfl
@[simp] theorem withList_timer (k : TimerSys ι γ L) (l : L') :
    (k.withList l).timer = k.timer := rfl
@[simp] theorem withList_timerList (k : TimerSys ι γ L) (l : L') :
    (k.withList l).timerList = l := rfl

/-- The linked timers in list order. -/
def queue (k : TimerSys ι γ (TimerRings ι)) : List ι := k.timerList.seq .rtTimerList

end TimerSys

section Queue
variable {ι γ E E' : Type} [DecidableEq ι]

/-- The links of `k` are the sequence of `a`; everything else is the same. -/
inductive TimerRel : TimerSys ι γ (TimerLinks ι) → TimerSys ι γ (TimerRings ι) → Prop where
  | mk (a : TimerSys ι γ (TimerRings ι)) (l : TimerLinks ι) (h : Rep l a.timerList) :
      TimerRel (a.withList l) a

theorem TimerRel.rep {k : TimerSys ι γ (TimerLinks ι)} {a : TimerSys ι γ (TimerRings ι)}
    (h : TimerRel k a) : Rep k.timerList a.timerList := by
  cases h with
  | mk _ _ h => exact h

theorem TimerRel.timer {k : TimerSys ι γ (TimerLinks ι)} {a : TimerSys ι γ (TimerRings ι)}
    (h : TimerRel k a) : k.timer = a.timer := by
  cases h with
  | mk => rfl

theorem TimerRel.rtTick {k : TimerSys ι γ (TimerLinks ι)} {a : TimerSys ι γ (TimerRings ι)}
    (h : TimerRel k a) : k.rtTick = a.rtTick := by
  cases h with
  | mk => rfl

theorem TimerRel.setTimer {k : TimerSys ι γ (TimerLinks ι)} {a : TimerSys ι γ (TimerRings ι)}
    (h : TimerRel k a) (t : ι) (r : RtTimer γ) : TimerRel (k.setTimer t r) (a.setTimer t r) := by
  cases h with
  | mk _ l h => exact .mk (a.setTimer t r) l h

theorem TimerRel.setTick {k : TimerSys ι γ (TimerLinks ι)} {a : TimerSys ι γ (TimerRings ι)}
    (h : TimerRel k a) (n : Tick) : TimerRel { k with rtTick := n } { a with rtTick := n } := by
  cases h with
  | mk _ l h => exact .mk { a with rtTick := n } l h

theorem TimerRel.deactivate {k : TimerSys ι γ (TimerLinks ι)}
    {a : TimerSys ι γ (TimerRings ι)} (h : TimerRel k a) (t : ι) :
    TimerRel (k.deactivate t) (a.deactivate t) := by
  rw [TimerSys.deactivate, TimerSys.deactivate, h.timer]
  exact h.setTimer t _

theorem TimerRel.arm {k : TimerSys ι γ (TimerLinks ι)}
    {a : TimerSys ι γ (TimerRings ι)} (h : TimerRel k a) (t : ι) :
    TimerRel (rtTimerStartArm k t) (rtTimerStartArm a t) := by
  rw [rtTimerStartArm, rtTimerStartArm, h.timer, h.rtTick]
  exact h.setTimer t _

/-! ## The operations -/

namespace Abs

def timerRemove (a : TimerSys ι γ (TimerRings ι)) (t : ι) :
    Option (TimerSys ι γ (TimerRings ι)) := do
  let l ← remove a.timerList t
  return { a with timerList := l }

def timerInit (a : TimerSys ι γ (TimerRings ι)) (t : ι) (timeout : Option γ) (time : Tick)
    (flag : BitVec 8) : TimerSys ι γ (TimerRings ι) :=
  let a := a.setTimer t
    { flag := flag &&& ~~~RT_TIMER_FLAG_ACTIVATED, timeoutFunc := timeout, initTick := time,
      timeoutTick := 0 }
  { a with timerList := a.timerList.mark (.item t) }

def timerStop (a : TimerSys ι γ (TimerRings ι)) (t : ι) :
    Option (Int × TimerSys ι γ (TimerRings ι)) := do
  if ¬ (a.timer t).activated then return (-RT_ERROR, a)
  let a ← timerRemove a t
  return (RT_EOK, a.deactivate t)

def timerStart (a : TimerSys ι γ (TimerRings ι)) (t : ι) :
    Option (TimerSys ι γ (TimerRings ι)) := do
  let a ← timerRemove a t
  let a := rtTimerStartArm (a.deactivate t) t
  let l ← insertOrdered (fun x y => (a.timer x).precedes (a.timer y)) a.timerList
    .rtTimerList t
  let a := { a with randomNr := a.randomNr + 1, timerList := l }
  return a.setTimer t (a.timer t).activate

def timerFire {κ : Type}
    (call : ι → γ → κ → Sys ι γ (TimerRings ι) E → Option (Sys ι γ (TimerRings ι) E))
    (c : κ) (t : ι) (s : Sys ι γ (TimerRings ι) E) : Option (Sys ι γ (TimerRings ι) E) := do
  let k ← timerRemove s.timers t
  let f ← (k.timer t).timeoutFunc
  let s ← call t f c { s with timers := k }
  if (s.timers.timer t).periodic ∧ (s.timers.timer t).activated then
    let k ← timerStart (s.timers.deactivate t) t
    return { s with timers := k }
  else
    return { s with timers := s.timers.deactivate t }

def timerCheck {κ : Type}
    (call : ι → γ → κ → Sys ι γ (TimerRings ι) E → Option (Sys ι γ (TimerRings ι) E)) :
    List κ → Sys ι γ (TimerRings ι) E → Option (Sys ι γ (TimerRings ι) E)
  | script, s =>
      if isEmpty s.timers.timerList .rtTimerList then some s
      else do
        let t ← s.timers.queue.head?
        if (s.timers.timer t).due s.timers.rtTick then
          match script with
          | [] => none
          | c :: script => do
              let s ← timerFire call c t s
              timerCheck call script s
        else return s

end Abs

/-! ## Lockstep -/

variable {k : TimerSys ι γ (TimerLinks ι)} {a : TimerSys ι γ (TimerRings ι)}

theorem rtTimerRemove_rel (h : TimerRel k a) (t : ι) :
    Option.Rel TimerRel (rtTimerRemove k t) (Abs.timerRemove a t) := by
  cases h with
  | mk _ l h =>
    exact Lockstep.bind (rtListRemove_rep h t) fun l' r' _ _ h' =>
      .some (.mk { a with timerList := r' } l' h')

theorem rtTimerInit_rel (h : TimerRel k a) {t : ι} (hf : a.timerList.Free t)
    (timeout : Option γ) (time : Tick) (flag : BitVec 8) :
    TimerRel (rtTimerInit k t timeout time flag) (Abs.timerInit a t timeout time flag) := by
  cases h with
  | mk _ l h => exact .mk (Abs.timerInit a t timeout time flag) _ (h.selfLink (.inr ⟨t, rfl, hf⟩))

theorem rtTimerStop_rel (h : TimerRel k a) (t : ι) :
    Option.Rel (fun x y => x.1 = y.1 ∧ TimerRel x.2 y.2) (rtTimerStop k t)
      (Abs.timerStop a t) := by
  unfold rtTimerStop Abs.timerStop
  simp only [h.timer]
  split
  · exact .some ⟨rfl, h⟩
  · exact Lockstep.bind (rtTimerRemove_rel h t) fun k' a' _ _ h' =>
      .some ⟨rfl, h'.deactivate t⟩

theorem rtTimerControl_rel (h : TimerRel k a) (t : ι) (cmd : TimerCtrl) :
    TimerRel (k.rtTimerControl t cmd) (a.rtTimerControl t cmd) := by
  rw [TimerSys.rtTimerControl, TimerSys.rtTimerControl, h.timer]
  exact h.setTimer t _

/-- The search walks from the last node of the part it has passed to the last
node before the first timer to come after `t`. -/
theorem rtTimerSearch_eq {l : TimerLinks ι} {r : TimerRings ι} (hr : Rep l r)
    (hh : r.live timerHead = true) (hk : k.timerList = l) (t : ι) :
    ∀ (fuel : Nat) (xs ys : List ι), r.seq .rtTimerList = xs ++ ys → ys.length < fuel →
      rtTimerSearch k t fuel (lastNode .rtTimerList xs) =
        some (lastNode .rtTimerList
          (xs ++ ys.takeWhile fun u => ¬ (k.timer t).precedes (k.timer u))) := by
  intro fuel
  induction fuel with
  | zero => intro xs ys _ hlen; omega
  | succ fuel ih =>
    intro xs ys hs hlen
    have hprev : k.timerList.prev timerHead = some (lastNode .rtTimerList (xs ++ ys)) := by
      rw [hk, ← hs]; exact hr.prev_head hh
    cases ys with
    | nil => simp [rtTimerSearch, hprev]
    | cons u ys =>
      have hnd := hr.valid.nodup .rtTimerList
      rw [hs] at hnd
      -- the node reached is not the last of the list, so the loop looks at `u`
      have hne : lastNode TimerHead.rtTimerList xs ≠
          lastNode TimerHead.rtTimerList (xs ++ u :: ys) :=
        Rep.lastNode_ne_append hnd (List.cons_ne_nil u ys)
      have hnext : k.timerList.next (lastNode .rtTimerList xs) = some (.item u) := by
        rw [hk]; exact (hr.linked_cut hs hh).1
      have hstep := ih (xs ++ [u]) ys (by simp [hs]) (by simpa using hlen)
      rw [lastNode_append] at hstep
      simp only [rtTimerSearch, hprev, Option.some.injEq, hne, if_false, hnext, rtTimerEntry,
        Option.bind_eq_bind, Option.bind_some, Option.pure_def, List.takeWhile_cons]
      split
      · rename_i hpre; simp [hpre]
      · rename_i hpre; simp [hpre, hstep]

theorem Abs.timerRemove_of_live {t : ι} (hlive : a.timerList.live (.item t) = true) :
    Abs.timerRemove a t = some { a with timerList := a.timerList.erase t } := by
  rw [Abs.timerRemove, remove, if_pos hlive]
  rfl

theorem Abs.timerRemove_eq_some {a' : TimerSys ι γ (TimerRings ι)} {t : ι}
    (h : Abs.timerRemove a t = some a') :
    a.timerList.live (.item t) = true ∧ a' = { a with timerList := a.timerList.erase t } := by
  unfold Abs.timerRemove remove at h
  split at h
  · rename_i hlive
    cases h
    exact ⟨hlive, rfl⟩
  · cases h

theorem rtTimerStartLink_rel [Fintype ι] (h : TimerRel k a) {t : ι}
    (hf : a.timerList.Free t) :
    Option.Rel TimerRel (rtTimerStartLink k t) (do
      let l ← insertOrdered (fun x y => (a.timer x).precedes (a.timer y)) a.timerList
        .rtTimerList t
      let a := { a with randomNr := a.randomNr + 1, timerList := l }
      return a.setTimer t (a.timer t).activate) := by
  cases h with
  | mk _ l h =>
    by_cases hh : a.timerList.live timerHead = true
    · have hlen : (a.timerList.seq .rtTimerList).length < Fintype.card ι + 1 :=
        Nat.lt_succ_of_le (h.valid.nodup _).length_le_card
      have hsearch := rtTimerSearch_eq (k := a.withList l) h hh rfl t _ [] _ rfl hlen
      simp only [lastNode_nil, List.nil_append, TimerSys.withList_timer] at hsearch
      simp only [rtTimerStartLink, hsearch, Option.bind_eq_bind, Option.bind_some]
      have hcut : a.timerList.seq .rtTimerList =
          (a.timerList.seq .rtTimerList).takeWhile
              (fun u => ¬ (a.timer t).precedes (a.timer u)) ++
            (a.timerList.seq .rtTimerList).dropWhile
              (fun u => ¬ (a.timer t).precedes (a.timer u)) :=
        List.takeWhile_append_dropWhile.symm
      exact Lockstep.bind (rtListInsertAfter_rep h hcut hf hh) fun l' r' _ _ h' =>
        .some (TimerRel.setTimer (.mk { a with randomNr := a.randomNr + 1, timerList := r' } l' h')
          t _)
    · have hnull := h.null timerHead (by simpa using hh)
      have hsearch : rtTimerSearch (a.withList l) t (Fintype.card ι + 1) timerHead = none := by
        simp [rtTimerSearch, hnull.1, hnull.2]
      simp only [rtTimerStartLink, hsearch, insertOrdered, insertAt, hh]
      exact .none

theorem rtTimerStart_rel [Fintype ι] (h : TimerRel k a) (t : ι) :
    Option.Rel TimerRel (rtTimerStart k t) (Abs.timerStart a t) := by
  unfold rtTimerStart rtTimerStartUnlink Abs.timerStart
  rw [bind_assoc]
  refine Lockstep.bind (rtTimerRemove_rel h t) fun k' a' _ ha' h' => ?_
  obtain ⟨-, rfl⟩ := Abs.timerRemove_eq_some ha'
  exact rtTimerStartLink_rel ((h'.deactivate t).arm t) (h.rep.valid.erase_free t)

/-! ## Firing in lockstep -/

/-- Related timers, and environments related by `R`. -/
structure SysRel (R : E → E' → Prop) (s : Sys ι γ (TimerLinks ι) E)
    (a : Sys ι γ (TimerRings ι) E') : Prop where
  timers : TimerRel s.timers a.timers
  env : R s.env a.env

variable {κ : Type} {R : E → E' → Prop}
  {call : ι → γ → κ → Sys ι γ (TimerLinks ι) E → Option (Sys ι γ (TimerLinks ι) E)}
  {call' : ι → γ → κ → Sys ι γ (TimerRings ι) E' → Option (Sys ι γ (TimerRings ι) E')}

theorem rtTimerFire_rel [Fintype ι] {s : Sys ι γ (TimerLinks ι) E} {a : Sys ι γ (TimerRings ι) E'}
    (h : SysRel R s a) (c : κ) (t : ι)
    (hcall : ∀ f s₁ a₁, Abs.timerRemove a.timers t = some a₁ →
      SysRel R s₁ { a with timers := a₁ } →
      Option.Rel (SysRel R) (call t f c s₁) (call' t f c { a with timers := a₁ })) :
    Option.Rel (SysRel R) (rtTimerFire call c t s) (Abs.timerFire call' c t a) := by
  unfold rtTimerFire Abs.timerFire
  refine Lockstep.bind (rtTimerRemove_rel h.timers t) fun k₁ a₁ _ ha₁ h₁ => ?_
  rw [h₁.timer]
  refine Lockstep.bind (R := Eq) (by cases (a₁.timer t).timeoutFunc <;> constructor; rfl) ?_
  rintro f _ - - rfl
  refine Lockstep.bind (hcall f _ _ ha₁ ⟨h₁, h.env⟩) fun s₂ a₂ _ _ h₂ => ?_
  rw [h₂.timers.timer]
  split
  · exact Lockstep.bind (rtTimerStart_rel (h₂.timers.deactivate t) t) fun _ _ _ _ h₃ =>
      .some ⟨h₃, h₂.env⟩
  · exact .some ⟨h₂.timers.deactivate t, h₂.env⟩

/-- The first timer found through the links is the first of the sequence. -/
theorem rtTimerCheck_first {s : Sys ι γ (TimerLinks ι) E} {a : Sys ι γ (TimerRings ι) E'}
    (h : SysRel R s a) {x : ι → Option (Sys ι γ (TimerLinks ι) E)}
    {y : ι → Option (Sys ι γ (TimerRings ι) E')}
    (hxy : ∀ t, a.timers.queue.head? = some t → Option.Rel (SysRel R) (x t) (y t)) :
    Option.Rel (SysRel R)
      (if rtListIsempty s.timers.timerList timerHead then some s
        else do
          let n ← s.timers.timerList.next timerHead
          let t ← rtTimerEntry n
          if (s.timers.timer t).due s.timers.rtTick then x t else return s)
      (if isEmpty a.timers.timerList .rtTimerList then some a
        else do
          let t ← a.timers.queue.head?
          if (a.timers.timer t).due a.timers.rtTick then y t else return a) := by
  refine Lockstep.ite (by rw [rtListIsempty_rep h.timers.rep]) (fun _ => .some h) fun hne => ?_
  by_cases hlive : a.timers.timerList.live timerHead = true
  · have hnext := h.timers.rep.next_head hlive
    cases hq : a.timers.queue with
    | nil => simp [isEmpty, hlive, show a.timers.timerList.seq .rtTimerList = [] from hq] at hne
    | cons t ts =>
      rw [show a.timers.timerList.seq .rtTimerList = t :: ts from hq] at hnext
      simp only [hnext, firstNode_cons, rtTimerEntry, List.head?_cons, Option.bind_eq_bind,
        Option.bind_some, Option.pure_def, h.timers.timer, h.timers.rtTick]
      exact Lockstep.ite Iff.rfl (fun _ => hxy t (by rw [hq]; rfl)) fun _ => .some h
  · have hnull := h.timers.rep.null timerHead (by simpa using hlive)
    have hempty : a.timers.queue = [] := by
      by_contra hq
      exact hlive (h.timers.rep.valid.head_live hq)
    simp only [hnull.1, hempty, List.head?_nil, Option.bind_eq_bind, Option.bind_none]
    exact .none

/-- `rt_timer_check` consumes the sequence, as long as an invariant `I` under
which callbacks correspond survives each firing. -/
theorem rtTimerCheck_rel [Fintype ι] (I : Sys ι γ (TimerRings ι) E' → Prop)
    (hcall : ∀ a t f c s₁ a₁, I a → a.timers.queue.head? = some t →
      Abs.timerRemove a.timers t = some a₁ → SysRel R s₁ { a with timers := a₁ } →
      Option.Rel (SysRel R) (call t f c s₁) (call' t f c { a with timers := a₁ }))
    (hfire : ∀ a t c a', I a → a.timers.queue.head? = some t →
      Abs.timerFire call' c t a = some a' → I a') :
    ∀ (script : List κ) (s : Sys ι γ (TimerLinks ι) E) (a : Sys ι γ (TimerRings ι) E'),
      I a → SysRel R s a →
      Option.Rel (SysRel R) (rtTimerCheck call script s) (Abs.timerCheck call' script a) := by
  intro script
  induction script with
  | nil =>
    intro s a _ h
    rw [rtTimerCheck, Abs.timerCheck]
    exact rtTimerCheck_first h fun _ _ => .none
  | cons c script ih =>
    intro s a hI h
    rw [rtTimerCheck, Abs.timerCheck]
    refine rtTimerCheck_first h fun t ht => ?_
    exact Lockstep.bind
      (rtTimerFire_rel h c t fun f s₁ a₁ ha₁ h₁ => hcall a t f c s₁ a₁ hI ht ha₁ h₁)
      fun s' a' _ ha' h' => ih s' a' (hfire a t c a' hI ht ha') h'

end Queue

end SampleRtos
