import SampleRtos.Kernel.Bypass
import SampleRtos.Kernel.Guarded
import SampleRtos.Kernel.ResumeTick
import SampleRtos.Kernel.LockNest

/-!
# Runs that pass a node by

The calls, the callbacks and the tick, on a kernel in which some node of the
thread lists is passed by (`Bypassed`), and on a thread that is on no list. What
the timer list may be relied on for meanwhile is a parameter.
-/

namespace SampleRtos

open Intrusive

/-! ## The timer list -/

section TimerLinks
variable {ι γ : Type} [DecidableEq ι]

/-- A property of the timer links that no timer operation can break, provided only
nodes that are `ok` are initialised and inserted. Insertions go behind the head and
what follows from it, and each such node is a `place`. -/
structure LinksRule (J : TimerLinks ι → Prop) (place ok : Node TimerHead ι → Prop) : Prop where
  head : place timerHead
  init : ∀ {m n}, J m → ok n → J (rtListInit m n)
  remove : ∀ {m m' n}, J m → rtListRemove m n = some m' → J m'
  insertAfter : ∀ {m m' l n}, J m → place l → ok n → rtListInsertAfter m l n = some m' → J m'
  next : ∀ {m n s}, J m → place n → m.next n = some s → place s

theorem linksRule_true : LinksRule (fun _ : TimerLinks ι => True) (fun _ => True) fun _ => True :=
  ⟨trivial, fun _ _ => trivial, fun _ _ => trivial, fun _ _ _ _ => trivial, fun _ _ _ => trivial⟩

/-- A timer that no other node leads to stays so unless it is started. -/
theorem linksRule_apart (x : ι) :
    LinksRule (Apart · (.item x) (some (.item x))) (fun n => n ≠ .item x)
      fun n => n ≠ .item x where
  head := by simp
  init h hn := h.init hn
  remove {m m' n} h hrun := by
    by_cases hn : n = .item x
    · subst hn
      obtain rfl : m = m' := Option.some.inj (h.remove_own.symm.trans hrun)
      exact h
    · exact h.remove hn hrun
  insertAfter h hl hn hrun := h.insertAfter hl hn hrun
  next h hn hs := h.ne_next hn hs

/-- A timer that is led back to stays so unless it is started or initialised. -/
theorem linksRule_answered (x : ι) :
    LinksRule (Answered · (.item x)) (fun _ => True) fun n => n ≠ .item x where
  head := trivial
  init h hn := h.init hn
  remove {m m' n} h hrun := by
    by_cases hn : n = .item x
    · subst hn
      exact .of_apart (h.remove_own hrun)
    · exact h.remove hn hrun
  insertAfter h _ hn hrun := h.insertAfter hn hrun
  next _ _ _ := trivial

/-- Once both links of a node are set, no operation makes one null. -/
def LinksSet {ν : Type} (m : Links ν) (n : ν) : Prop :=
  m.next n ≠ none ∧ m.prev n ≠ none

theorem LinksSet.setNext {ν : Type} [DecidableEq ν] {m : Links ν} {n : ν} (h : LinksSet m n)
    (p q : ν) : LinksSet (m.setNext p q) n := by
  refine ⟨?_, h.2⟩
  show Function.update m.next p (some q) n ≠ none
  rw [Function.update_apply]
  split
  · exact Option.some_ne_none q
  · exact h.1

theorem LinksSet.setPrev {ν : Type} [DecidableEq ν] {m : Links ν} {n : ν} (h : LinksSet m n)
    (p q : ν) : LinksSet (m.setPrev p q) n := by
  refine ⟨h.1, ?_⟩
  show Function.update m.prev p (some q) n ≠ none
  rw [Function.update_apply]
  split
  · exact Option.some_ne_none q
  · exact h.2

theorem LinksSet.remove {ν : Type} [DecidableEq ν] {m m' : Links ν} {n p : ν} (h : LinksSet m n)
    (hrun : rtListRemove m p = some m') : LinksSet m' n := by
  obtain ⟨s, -, hrun⟩ := Option.bind_eq_some_iff.mp hrun
  obtain ⟨q, -, hrun⟩ := Option.bind_eq_some_iff.mp hrun
  obtain ⟨q', -, hrun⟩ := Option.bind_eq_some_iff.mp hrun
  obtain ⟨s', -, hret⟩ := Option.bind_eq_some_iff.mp hrun
  cases hret
  exact (((h.setPrev _ _).setNext _ _).setPrev _ _).setNext _ _

theorem LinksSet.insertAfter {ν : Type} [DecidableEq ν] {m m' : Links ν} {n l p : ν}
    (h : LinksSet m n) (hrun : rtListInsertAfter m l p = some m') : LinksSet m' n := by
  obtain ⟨s, -, hrun⟩ := Option.bind_eq_some_iff.mp hrun
  obtain ⟨s', -, hret⟩ := Option.bind_eq_some_iff.mp hrun
  cases hret
  exact (((h.setPrev _ _).setNext _ _).setNext _ _).setPrev _ _

/-- A node with both links set can be removed. -/
theorem LinksSet.removable {ν : Type} [DecidableEq ν] {m : Links ν} {n : ν} (h : LinksSet m n) :
    ∃ m', rtListRemove m n = some m' := by
  obtain ⟨s, hs⟩ := Option.ne_none_iff_exists'.mp h.1
  obtain ⟨p, hp⟩ := Option.ne_none_iff_exists'.mp h.2
  obtain ⟨p', hp'⟩ := Option.ne_none_iff_exists'.mp (h.setPrev s p).2
  have hs' : (m.setPrev s p).next n = some s := hs
  exact ⟨_, by
    simp only [rtListRemove, hs, hp, hp', hs', Option.bind_eq_bind, Option.bind_some]
    rfl⟩

/-- An insertion sets both links of the node inserted. -/
theorem LinksSet.inserted {ν : Type} [DecidableEq ν] {m m' : Links ν} {l n : ν}
    (hrun : rtListInsertAfter m l n = some m') : LinksSet m' n := by
  obtain ⟨s, -, hrun⟩ := Option.bind_eq_some_iff.mp hrun
  obtain ⟨s', -, hret⟩ := Option.bind_eq_some_iff.mp hrun
  cases hret
  refine ⟨?_, by simp [Links.setPrev]⟩
  by_cases hnl : n = l <;> simp [Links.setPrev, Links.setNext, hnl]

/-- `J` holds of the links and every timer has the callback it had. -/
structure TimersKeep (J : TimerLinks ι → Prop) (k k' : TimerSys ι γ (TimerLinks ι)) : Prop where
  links : J k'.timerList
  callback : ∀ x, (k'.timer x).timeoutFunc = (k.timer x).timeoutFunc

variable {J : TimerLinks ι → Prop} {place ok : Node TimerHead ι → Prop}
  {k k' : TimerSys ι γ (TimerLinks ι)} {x : ι}

theorem update_callback (f : ι → RtTimer γ) (x : ι) {r : RtTimer γ}
    (hr : r.timeoutFunc = (f x).timeoutFunc) (y : ι) :
    (Function.update f x r y).timeoutFunc = (f y).timeoutFunc := by
  by_cases hy : y = x
  · subst hy
    rw [Function.update_self, hr]
  · rw [Function.update_of_ne hy]

theorem deactivate_callback (y : ι) :
    ((k.deactivate x).timer y).timeoutFunc = (k.timer y).timeoutFunc :=
  update_callback k.timer x (r := (k.timer x).deactivate) rfl y

theorem rtTimerRemove_keeps (hJ : LinksRule J place ok) (h : J k.timerList)
    (hrun : rtTimerRemove k x = some k') : TimersKeep J k k' := by
  obtain ⟨l, hl, hret⟩ := Option.bind_eq_some_iff.mp hrun
  cases hret
  exact ⟨hJ.remove h hl, fun _ => rfl⟩

theorem rtTimerStop_keeps (hJ : LinksRule J place ok) (h : J k.timerList) {c : Int}
    (hrun : rtTimerStop k x = some (c, k')) : TimersKeep J k k' := by
  unfold rtTimerStop at hrun
  split at hrun
  · cases hrun
    exact ⟨h, fun _ => rfl⟩
  · obtain ⟨k₁, hrem, hret⟩ := Option.bind_eq_some_iff.mp hrun
    cases hret
    obtain ⟨h₁, hcall⟩ := rtTimerRemove_keeps hJ h hrem
    exact ⟨h₁, fun y => (deactivate_callback y).trans (hcall y)⟩

theorem rtTimerControl_keeps (h : J k.timerList) (cmd : TimerCtrl) :
    TimersKeep J k (k.rtTimerControl x cmd) :=
  ⟨h, update_callback k.timer x (r := (k.timer x).control cmd) (by cases cmd <;> rfl)⟩

section
omit [DecidableEq ι]

theorem TimersKeep.trans {k'' : TimerSys ι γ (TimerLinks ι)} (h : TimersKeep J k k')
    (h' : TimersKeep J k' k'') : TimersKeep J k k'' :=
  ⟨h'.links, fun x => (h'.callback x).trans (h.callback x)⟩

end

/-- The search for the place of a timer ends at a place. -/
theorem rtTimerSearch_place (hJ : LinksRule J place ok) (h : J k.timerList) (fuel : Nat) :
    ∀ {n n' : Node TimerHead ι}, place n → rtTimerSearch k x fuel n = some n' → place n' := by
  induction fuel with
  | zero => intro n n' _ hrun; cases hrun
  | succ fuel ih =>
    intro n n' hn hrun
    rw [rtTimerSearch] at hrun
    split at hrun
    · cases hrun
      exact hn
    · obtain ⟨p, hp, hrun⟩ := Option.bind_eq_some_iff.mp hrun
      obtain ⟨u, -, hrun⟩ := Option.bind_eq_some_iff.mp hrun
      split at hrun
      · cases hrun
        exact hn
      · exact ih (hJ.next h hn hp) hrun

theorem rtTimerStart_keeps [Fintype ι] (hJ : LinksRule J place ok) (h : J k.timerList)
    (hx : ok (.item x)) (hrun : rtTimerStart k x = some k') : TimersKeep J k k' := by
  obtain ⟨k₁, hunlink, hlink⟩ := Option.bind_eq_some_iff.mp hrun
  obtain ⟨k₀, hrem, hret⟩ := Option.bind_eq_some_iff.mp hunlink
  cases hret
  obtain ⟨row, hsearch, hlink⟩ := Option.bind_eq_some_iff.mp hlink
  obtain ⟨l, hins, hret⟩ := Option.bind_eq_some_iff.mp hlink
  cases hret
  obtain ⟨h₀, hcall⟩ := rtTimerRemove_keeps hJ h hrem
  have hrow : place row :=
    rtTimerSearch_place (k := rtTimerStartArm (k₀.deactivate x) x) hJ h₀ _ hJ.head hsearch
  have harm : ∀ y, ((rtTimerStartArm (k₀.deactivate x) x).timer y).timeoutFunc =
      (k.timer y).timeoutFunc := by
    intro y
    rw [← hcall y, ← deactivate_callback (k := k₀) (x := x) y]
    exact update_callback (k₀.deactivate x).timer x
      (r := { (k₀.deactivate x).timer x with
        timeoutTick := k₀.rtTick + ((k₀.deactivate x).timer x).initTick }) rfl y
  refine ⟨hJ.insertAfter h₀ hrow hx hins, fun y => ?_⟩
  rw [← harm y]
  exact update_callback (rtTimerStartArm (k₀.deactivate x) x).timer x
    (r := ((rtTimerStartArm (k₀.deactivate x) x).timer x).activate) rfl y

end TimerLinks

/-! ## Calls -/

section Unlisted
variable {τ σ υ : Type} [DecidableEq τ] [DecidableEq σ] [DecidableEq υ]

/-- The end of `rt_thread_detach`, after its change of `stat`. -/
def rtThreadDetachFinish (k : RtKernel τ σ υ) (t : τ) : Option (RtKernel τ σ υ) :=
  if (k.env.thread t).static ∧ ¬ (k.env.thread t).cleanup then some k
  else do
    let l ← rtListInsertAfter k.env.list (.head .defunct) (.item t)
    return { k with env := { k.env with list := l } }

/-- A call that is not about the thread of the node `z`. -/
def Call.Misses (z : ThreadNode τ σ) : Call τ σ υ → Prop
  | .threadInit t _ _ => z ≠ .item t
  | .threadStartup t => z ≠ .item t
  | .threadResume t => z ≠ .item t
  | .threadSuspend t => z ≠ .item t
  | .threadDetach t => z ≠ .item t
  | _ => True

section
omit [DecidableEq τ] [DecidableEq σ] [DecidableEq υ]

theorem Call.misses_head (hd : ThreadHead σ) (c : Call τ σ υ) : c.Misses (.head hd) := by
  cases c <;> simp [Call.Misses]

theorem Call.Avoids.misses {t : τ} {c : Call τ σ υ} (h : c.Avoids t) : c.Misses (.item t) := by
  cases c <;> first | exact fun heq => h (Node.item.inj heq).symm | trivial

end

/-- `rt_thread_timeout` is the callback of no timer but the thread's own. -/
def OwnCallbacks {L : Type} (m : TimerSys (τ ⊕ υ) (TimerCallback τ) L) : Prop :=
  ∀ x t, (m.timer x).timeoutFunc = some (.rtThreadTimeout t) → x = .inl t

/-- What may be relied on of the timer links while `z` is passed by. -/
structure TimerWatch (z : ThreadNode τ σ) (J : TimerLinks (τ ⊕ υ) → Prop)
    (place ok : Node TimerHead (τ ⊕ υ) → Prop) : Prop where
  rule : LinksRule J place ok
  user : ∀ u, ok (.item (.inr u))
  thread : ∀ t, z ≠ .item t → ok (.item (.inl t))

/-- The node `z` is passed by, and `J` holds of the timer links. -/
structure PassedBy (z : ThreadNode τ σ) (own : Option (ThreadNode τ σ))
    (J : TimerLinks (τ ⊕ υ) → Prop) (k : RtKernel τ σ υ) : Prop where
  env : Bypassed z own k.env
  callbacks : OwnCallbacks k.timers
  links : J k.timers.timerList

/-- Performing `f` has led from `k` to `k'` past `z`. -/
structure RunsPast (z : ThreadNode τ σ) (own : Option (ThreadNode τ σ))
    (J : TimerLinks (τ ⊕ υ) → Prop) (f : RtKernel τ σ υ → Option (RtKernel τ σ υ))
    (k k' : RtKernel τ σ υ) : Prop where
  passed : PassedBy z own J k'
  same : ∀ r, f (k.withRecord z r) = some (k'.withRecord z r)

section
variable {z : ThreadNode τ σ} {own : Option (ThreadNode τ σ)} {J : TimerLinks (τ ⊕ υ) → Prop}
  {place ok : Node TimerHead (τ ⊕ υ) → Prop} {k k' : RtKernel τ σ υ} {t : τ} {s : σ}

section
omit [DecidableEq τ] [DecidableEq υ]

theorem TimersKeep.callbacks {m m' : TimerSys (τ ⊕ υ) (TimerCallback τ) (TimerLinks (τ ⊕ υ))}
    (h : TimersKeep J m m') (hown : OwnCallbacks m) : OwnCallbacks m' := by
  intro x t hx
  rw [h.callback] at hx
  exact hown x t hx

end

section
omit [DecidableEq τ] [DecidableEq σ] [DecidableEq υ]

theorem PassedBy.timers (h : PassedBy z own J k)
    {m : TimerSys (τ ⊕ υ) (TimerCallback τ) (TimerLinks (τ ⊕ υ))} (hm : TimersKeep J k.timers m) :
    PassedBy z own J { k with timers := m } :=
  ⟨h.env, hm.callbacks h.callbacks, hm.links⟩

end

namespace RunsPast

section
omit [DecidableEq σ] [DecidableEq υ]

/-- The record of a thread that is passed by stays as it was. -/
theorem record {f : RtKernel τ σ υ → Option (RtKernel τ σ υ)} (h : RunsPast (.item t) own J f k k')
    (hrun : f k = some k') : k'.env.thread t = k.env.thread t := by
  have hself : k.withRecord (.item t) (k.env.thread t) = k := by
    show ({ k with env := k.env.setThread t (k.env.thread t) } : RtKernel τ σ υ) = k
    rw [SchedSys.setThread, Function.update_eq_self]
  have hsame := h.same (k.env.thread t)
  rw [hself, hrun] at hsame
  have hfix : k' = k'.withRecord (.item t) (k.env.thread t) := Option.some.inj hsame
  rw [hfix]
  exact Function.update_self ..

theorem onSched {f : SchedSys τ σ (ThreadLinks τ σ) → Option (SchedSys τ σ (ThreadLinks τ σ))}
    (h : PassedBy z own J k) (hrun : k.onSched f = some k')
    (hf : ∀ e, f k.env = some e → PassesBy z own f k.env e) :
    RunsPast z own J (fun k => k.onSched f) k k' := by
  obtain ⟨e, he, hret⟩ := Option.bind_eq_some_iff.mp hrun
  cases hret
  obtain ⟨hby, hsame⟩ := hf e he
  refine ⟨⟨hby, h.callbacks, h.links⟩, fun r => ?_⟩
  show (f (k.env.withRecord z r)).bind _ = _
  rw [hsame]
  rfl

theorem onTimers {f : TimerSys (τ ⊕ υ) (TimerCallback τ) (TimerLinks (τ ⊕ υ)) →
      Option (TimerSys (τ ⊕ υ) (TimerCallback τ) (TimerLinks (τ ⊕ υ)))}
    (h : PassedBy z own J k) (hrun : k.onTimers f = some k')
    (hf : ∀ m, f k.timers = some m → TimersKeep J k.timers m) :
    RunsPast z own J (fun k => k.onTimers f) k k' := by
  obtain ⟨m, hm, hret⟩ := Option.bind_eq_some_iff.mp hrun
  cases hret
  refine ⟨h.timers (hf m hm), fun r => ?_⟩
  show (f k.timers).bind _ = _
  rw [hm]
  rfl

end

theorem threadSuspend (hJ : TimerWatch z J place ok) (h : PassedBy z own J k) (ht : z ≠ .item t)
    {c : Int} (hrun : rtThreadSuspend k t = some (c, k')) : PassedBy z own J k' ∧
      ∀ r, rtThreadSuspend (k.withRecord z r) t = some (c, k'.withRecord z r) := by
  unfold rtThreadSuspend at hrun
  split at hrun
  · rename_i hst
    cases hrun
    refine ⟨h, fun r => ?_⟩
    rw [rtThreadSuspend, Sys.withRecord, withRecord_thread ht, if_pos hst]
    rfl
  · rename_i hst
    obtain ⟨k₁, hrem, hrun⟩ := Option.bind_eq_some_iff.mp hrun
    obtain ⟨⟨c', m⟩, hstop, hret⟩ := Option.bind_eq_some_iff.mp hrun
    cases hret
    obtain ⟨e, he, hret⟩ := Option.bind_eq_some_iff.mp hrem
    cases hret
    have hstat : Bypassed z own (k.env.setStat t .suspend) := ⟨h.env.apart, h.env.current⟩
    obtain ⟨hby, hsame⟩ := PassesBy.removeThread hstat ht he
    have h₁ : PassedBy z own J { k with env := e } := ⟨hby, h.callbacks, h.links⟩
    refine ⟨h₁.timers (rtTimerStop_keeps hJ.rule h.links hstop), fun r => ?_⟩
    have hst' : ¬ ((k.withRecord z r).env.thread t).stat ≠ .ready := by
      show ¬ ((k.env.withRecord z r).thread t).stat ≠ .ready
      rw [withRecord_thread ht]
      exact hst
    have hrem' : (k.withRecord z r).onSched
        (fun e => rtScheduleRemoveThread (e.setStat t .suspend) t) =
          some { k with env := e.withRecord z r } := by
      show (rtScheduleRemoveThread ((k.env.withRecord z r).setStat t .suspend) t).bind _ = _
      rw [withRecord_setStat ht, hsame]
      rfl
    rw [rtThreadSuspend, if_neg hst', hrem', Option.bind_eq_bind, Option.bind_some]
    show (rtTimerStop k.timers (threadTimer t)).bind _ = _
    rw [hstop]
    rfl

section
omit [DecidableEq σ]

theorem threadTimerStart [Fintype τ] [Fintype υ] (hJ : TimerWatch z J place ok)
    (h : PassedBy z own J k) (ht : z ≠ .item t) {tick : Tick}
    (hrun : rtThreadTimerStart k t tick = some k') :
    RunsPast z own J (rtThreadTimerStart · t tick) k k' := by
  refine onTimers h hrun fun m hm => ?_
  have hset := rtTimerControl_keeps (x := (threadTimer t : τ ⊕ υ)) h.links (.setTime tick)
  exact hset.trans (rtTimerStart_keeps hJ.rule hset.links (hJ.thread t ht) hm)

end

section
omit [DecidableEq σ] [DecidableEq υ]

theorem schedule (h : PassedBy z own J k) (hz : Outside z) (hrun : k.onSched rtSchedule = some k') :
    RunsPast z own J (Sys.onSched · rtSchedule) k k' :=
  onSched h hrun fun _ he => PassesBy.schedule h.env hz he

end

theorem threadSleep [Fintype τ] [Fintype υ] (hJ : TimerWatch z J place ok) (h : PassedBy z own J k)
    (hz : Outside z) {tick : Tick} (hrun : rtThreadSleep k tick = some k') :
    RunsPast z own J (rtThreadSleep · tick) k k' := by
  obtain ⟨t, hcur, hrun⟩ := Option.bind_eq_some_iff.mp hrun
  obtain ⟨⟨c, k₁⟩, hsusp, hrun⟩ := Option.bind_eq_some_iff.mp hrun
  obtain ⟨k₂, htimer, hsched⟩ := Option.bind_eq_some_iff.mp hrun
  have ht : z ≠ .item t := h.env.current t hcur
  obtain ⟨h₁, hsame₁⟩ := threadSuspend hJ h ht hsusp
  obtain ⟨h₂, hsame₂⟩ := threadTimerStart hJ h₁ ht htimer
  obtain ⟨h₃, hsame₃⟩ := schedule h₂ hz hsched
  refine ⟨h₃, fun r => ?_⟩
  have hcur' : (k.withRecord z r).env.rtCurrentThread = some t := withRecord_current.trans hcur
  rw [rtThreadSleep, hcur', Option.bind_eq_bind, Option.bind_some, hsame₁, Option.bind_eq_bind,
    Option.bind_some]
  show (rtThreadTimerStart (k₁.withRecord z r) t tick).bind _ = _
  rw [hsame₂]
  exact hsame₃ r

theorem ipcListSuspend [Fintype τ] [Fintype υ] (hJ : TimerWatch z J place ok)
    (h : PassedBy z own J k) (hz : Outside z) (ht : z ≠ .item t)
    (hrun : rtIpcListSuspend k s t = some k') :
    RunsPast z own J (rtIpcListSuspend · s t) k k' := by
  obtain ⟨⟨c, k₁⟩, hsusp, hins⟩ := Option.bind_eq_some_iff.mp hrun
  obtain ⟨h₁, hsame₁⟩ := threadSuspend hJ h ht hsusp
  have hins : k₁.onSched (fun e => rtIpcListInsert e s t) = some k' := hins
  obtain ⟨h₂, hsame₂⟩ := onSched h₁ hins fun _ he => PassesBy.ipcInsert h₁.env hz ht he
  refine ⟨h₂, fun r => ?_⟩
  rw [rtIpcListSuspend, hsame₁]
  exact hsame₂ r

theorem semTake [Fintype τ] [Fintype υ] (hJ : TimerWatch z J place ok) (h : PassedBy z own J k)
    (hz : Outside z) {time : BitVec 32} {o : TakeOutcome τ}
    (hrun : rtSemTake k s time = some (o, k')) :
    RunsPast z own J (fun k => (rtSemTake k s time).map Prod.snd) k k' := by
  have hsem : ∀ r, (k.withRecord z r).env.sem = k.env.sem := fun r => withRecord_sem
  unfold rtSemTake at hrun
  split at hrun
  · rename_i hpos
    cases hrun
    refine ⟨⟨⟨h.env.apart, h.env.current⟩, h.callbacks, h.links⟩, fun r => ?_⟩
    rw [rtSemTake, hsem, if_pos hpos]
    show some ({ k with env := (k.env.withRecord z r).setSem s _ } : RtKernel τ σ υ) = _
    rw [withRecord_setSem]
    rfl
  · rename_i hpos
    split at hrun
    · rename_i htime
      cases hrun
      exact ⟨h, fun r => by rw [rtSemTake, hsem, if_neg hpos, if_pos htime]; rfl⟩
    · rename_i htime
      obtain ⟨t, hcur, hrun⟩ := Option.bind_eq_some_iff.mp hrun
      obtain ⟨k₁, hlist, hrun⟩ := Option.bind_eq_some_iff.mp hrun
      obtain ⟨k₂, htimer, hrun⟩ := Option.bind_eq_some_iff.mp hrun
      obtain ⟨k₃, hsched, hret⟩ := Option.bind_eq_some_iff.mp hrun
      cases hret
      have ht : z ≠ .item t := h.env.current t hcur
      have h₀ : PassedBy z own J { k with env := k.env.setError t RT_EOK } :=
        ⟨⟨h.env.apart, h.env.current⟩, h.callbacks, h.links⟩
      obtain ⟨h₁, hsame₁⟩ := ipcListSuspend hJ h₀ hz ht hlist
      have h₂ : RunsPast z own J
          (fun k => if 0 < time.toInt then rtThreadTimerStart k t time else some k) k₁ k₂ := by
        split at htimer
        · rename_i hwaits
          obtain ⟨h₂, hsame₂⟩ := threadTimerStart hJ h₁ ht htimer
          exact ⟨h₂, fun r => by rw [if_pos hwaits]; exact hsame₂ r⟩
        · rename_i hwaits
          cases htimer
          exact ⟨h₁, fun r => by rw [if_neg hwaits]⟩
      obtain ⟨h₃, hsame₃⟩ := schedule h₂.passed hz hsched
      refine ⟨h₃, fun r => ?_⟩
      -- the same four steps with the other record at `z`
      have hcur' : (k.withRecord z r).env.rtCurrentThread = some t := withRecord_current.trans hcur
      have herr : ({ k.withRecord z r with env := (k.withRecord z r).env.setError t RT_EOK } :
          RtKernel τ σ υ) = Sys.withRecord { k with env := k.env.setError t RT_EOK } z r := by
        show ({ k with env := (k.env.withRecord z r).setError t RT_EOK } : RtKernel τ σ υ) = _
        rw [withRecord_setError ht]
        rfl
      have hsame₂ : (if 0 < time.toInt then rtThreadTimerStart (k₁.withRecord z r) t time
          else some (k₁.withRecord z r)) = some (k₂.withRecord z r) := h₂.same r
      rw [rtSemTake, hsem, if_neg hpos, if_neg htime, hcur', Option.bind_eq_bind, Option.bind_some,
        herr]
      dsimp only
      simp only [hsame₁, hsame₂, hsame₃, Option.bind_eq_bind, Option.bind_some, Option.pure_def,
        Option.map_some]

section
omit [DecidableEq υ]

theorem detachFinish (hown : z = .head .defunct → own = none) (h : PassedBy z own J k)
    (ht : z ≠ .item t) (hrun : rtThreadDetachFinish k t = some k') :
    RunsPast z own J (rtThreadDetachFinish · t) k k' := by
  have hthread : ∀ r, (k.withRecord z r).env.thread t = k.env.thread t := fun r =>
    withRecord_thread ht
  unfold rtThreadDetachFinish at hrun
  split at hrun
  · rename_i hplain
    cases hrun
    refine ⟨h, fun r => ?_⟩
    rw [rtThreadDetachFinish, hthread, if_pos hplain]
  · rename_i hplain
    obtain ⟨l, hins, hret⟩ := Option.bind_eq_some_iff.mp hrun
    cases hret
    have hz : (.head .defunct : ThreadNode τ σ) ≠ z := by
      intro hz
      have hnull : Apart k.env.list (.head .defunct) none := by
        rw [hz, ← hown hz.symm]
        exact h.env.apart
      cases hnull.insertAfter_null.symm.trans hins
    have hl : Apart l z own := h.env.apart.insertAfter hz ht.symm hins
    refine ⟨⟨⟨hl, h.env.current⟩, h.callbacks, h.links⟩, fun r => ?_⟩
    rw [rtThreadDetachFinish, hthread, if_neg hplain]
    show (rtListInsertAfter (k.env.withRecord z r).list _ _).bind _ = _
    rw [withRecord_list, hins, Option.bind_some]
    show some ({ k with env := { k.env.withRecord z r with list := l } } : RtKernel τ σ υ) = _
    rw [withRecord_setList]
    rfl

end

theorem threadDetach (hJ : TimerWatch z J place ok) (hown : z = .head .defunct → own = none)
    (h : PassedBy z own J k) (ht : z ≠ .item t) (hrun : rtThreadDetach k t = some k') :
    RunsPast z own J (rtThreadDetach · t) k k' := by
  obtain ⟨k₁, hrem, hrun⟩ := Option.bind_eq_some_iff.mp hrun
  obtain ⟨k₂, htimer, hrun⟩ := Option.bind_eq_some_iff.mp hrun
  have h₁ : RunsPast z own J (fun k => if (k.env.thread t).stat ≠ .init then
      k.onSched fun e => rtScheduleRemoveThread e t else some k) k k₁ := by
    split at hrem
    · rename_i hst
      obtain ⟨h₁, hsame₁⟩ := onSched h hrem fun _ he => PassesBy.removeThread h.env ht he
      refine ⟨h₁, fun r => ?_⟩
      have hst' : ((k.withRecord z r).env.thread t).stat ≠ .init := by
        show ((k.env.withRecord z r).thread t).stat ≠ .init
        rw [withRecord_thread ht]
        exact hst
      rw [if_pos hst']
      exact hsame₁ r
    · rename_i hst
      cases hrem
      refine ⟨h, fun r => if_neg ?_⟩
      show ¬ ((k.env.withRecord z r).thread t).stat ≠ .init
      rw [withRecord_thread ht]
      exact hst
  obtain ⟨h₂, hsame₂⟩ := onTimers h₁.passed htimer fun m hm =>
    rtTimerRemove_keeps hJ.rule h₁.passed.links hm
  have hclose : PassedBy z own J { k₂ with env := k₂.env.setStat t .close } :=
    ⟨⟨h₂.env.apart, h₂.env.current⟩, h₂.callbacks, h₂.links⟩
  obtain ⟨h₃, hsame₃⟩ := detachFinish hown hclose ht hrun
  refine ⟨h₃, fun r => ?_⟩
  have hfirst := h₁.same r
  rw [rtThreadDetach, hfirst, Option.bind_eq_bind, Option.bind_some, hsame₂, Option.bind_some]
  show rtThreadDetachFinish { k₂ with env := (k₂.env.withRecord z r).setStat t .close } t = _
  rw [withRecord_setStat ht]
  exact hsame₃ r

theorem threadInit (hJ : TimerWatch z J place ok) (h : PassedBy z own J k) (ht : z ≠ .item t)
    (priority : Nat) (tick : BitVec 32) :
    RunsPast z own J (fun k => some (rtThreadInit k t priority tick)) k
      (rtThreadInit k t priority tick) := by
  refine ⟨⟨⟨h.env.apart.init ht.symm, h.env.current⟩, ?_,
    hJ.rule.init h.links (hJ.thread t ht)⟩, fun r => ?_⟩
  · intro x u hx
    by_cases hxt : x = threadTimer t
    · subst hxt
      have heq : (rtThreadInit k t priority tick).timers.timer (threadTimer t) =
          { flag := RT_TIMER_FLAG_ONE_SHOT &&& ~~~RT_TIMER_FLAG_ACTIVATED,
            timeoutFunc := some (.rtThreadTimeout t), initTick := 0, timeoutTick := 0 } :=
        Function.update_self ..
      rw [heq] at hx
      cases hx
      rfl
    · refine h.callbacks x u ?_
      have hother : (rtThreadInit k t priority tick).timers.timer x = k.timers.timer x :=
        Function.update_of_ne hxt ..
      rwa [hother] at hx
  · show some ({ timers := _, env := SchedSys.setThread { k.env.withRecord z r with
      list := rtListInit (k.env.withRecord z r).list (.item t) } t _ } : RtKernel τ σ υ) = _
    have hrecord : (k.withRecord z r).env.thread t = k.env.thread t := withRecord_thread ht
    rw [withRecord_setList, withRecord_setThread ht, withRecord_list, hrecord]
    rfl

section
omit [DecidableEq σ] [DecidableEq υ]

/-- A call that misses `z` is allowed whatever the record at `z` is. -/
theorem allowed_iff {c : Call τ σ υ} (hc : c.Misses z) (r : RtThread) :
    c.Allowed (k.withRecord z r) ↔ c.Allowed k := by
  cases c with
  | threadInit t priority tick =>
    have hrecord : (k.withRecord z r).env.thread t = k.env.thread t := withRecord_thread hc
    simp only [Call.Allowed, hrecord]
  | semInit s value flag =>
    have hlist : (k.withRecord z r).env.list = k.env.list := withRecord_list
    simp only [Call.Allowed, hlist]
  | _ => rfl

end

theorem call [Fintype τ] [Fintype υ] (hJ : TimerWatch z J place ok)
    (hown : z = .head .defunct → own = none) (h : PassedBy z own J k) (hz : Outside z)
    {c : Call τ σ υ} (hc : c.Misses z) (hrun : c.exec k = some k') :
    RunsPast z own J (Call.exec · c) k k' := by
  cases c with
  | threadInit t priority tick => cases hrun; exact threadInit hJ h hc priority tick
  | threadStartup t =>
    exact onSched (f := fun e => rtThreadStartup e t) h hrun
      fun _ he => PassesBy.startup h.env hz hc he
  | threadResume t =>
    refine onSched (f := fun e => (rtThreadResume e t).map Prod.snd) h hrun fun e he => ?_
    obtain ⟨_, hr⟩ := returned_of_map he
    obtain ⟨hby, hsame⟩ := PassesBy.resume h.env hz hc hr
    exact ⟨hby, fun r => by rw [hsame]; rfl⟩
  | threadSuspend t =>
    obtain ⟨_, hr⟩ := returned_of_map hrun
    obtain ⟨h', hsame⟩ := threadSuspend hJ h hc hr
    refine ⟨h', fun r => ?_⟩
    show (rtThreadSuspend (k.withRecord z r) t).map Prod.snd = _
    rw [hsame]
    rfl
  | threadYield => exact onSched h hrun fun _ he => PassesBy.yield h.env hz he
  | threadDetach t => exact threadDetach hJ hown h hc hrun
  | semInit s value flag =>
    cases hrun
    refine ⟨⟨⟨h.env.apart.init (hz.suspend s), h.env.current⟩, h.callbacks, h.links⟩, fun r => ?_⟩
    show some ({ k with env := SchedSys.setSem { k.env.withRecord z r with
      list := rtListInit (k.env.withRecord z r).list (.head (.suspend s)) } s _ } :
        RtKernel τ σ υ) = _
    rw [withRecord_setList, withRecord_setSem, withRecord_list]
    rfl
  | semTrytake s =>
    obtain ⟨_, hr⟩ := returned_of_map hrun
    exact semTake hJ h hz hr
  | semRelease s =>
    exact onSched (f := fun e => rtSemRelease e s) h hrun
      fun _ he => PassesBy.semRelease h.env hz he
  | semControl s cmd arg =>
    refine onSched (f := fun e => (rtSemControl e s cmd arg).map Prod.snd) h hrun fun e he => ?_
    obtain ⟨_, hr⟩ := returned_of_map he
    exact PassesBy.semControl h.env hz hr
  | semDetach s => exact onSched h hrun fun _ he => PassesBy.ipcResumeAll hz s _ h.env he
  | enterCritical =>
    cases hrun
    have hstay : Bypassed z own k.env.rtEnterCritical := by
      unfold SchedSys.rtEnterCritical
      split
      · exact ⟨h.env.apart, h.env.current⟩
      · exact h.env
    refine ⟨⟨hstay, h.callbacks, h.links⟩, fun r => ?_⟩
    show some ({ k with env := (k.env.withRecord z r).rtEnterCritical } : RtKernel τ σ υ) = _
    rw [withRecord_enterCritical]
    rfl
  | exitCritical => exact onSched h hrun fun _ he => PassesBy.exitCritical h.env hz he
  | schedule => exact schedule h hz hrun
  | timerInit u time flag =>
    cases hrun
    refine ⟨⟨h.env, fun x t hx => ?_, hJ.rule.init h.links (hJ.user u)⟩, fun r => rfl⟩
    by_cases hxu : x = .inr u
    · subst hxu
      have heq : ((rtTimerInit k.timers (.inr u) (some .user) time flag).timer
          (.inr u)).timeoutFunc = some .user := by
        show (Function.update k.timers.timer (.inr u) _ (.inr u)).timeoutFunc = _
        rw [Function.update_self]
      cases heq.symm.trans hx
    · refine h.callbacks x t ?_
      have hother : (rtTimerInit k.timers (.inr u) (some .user) time flag).timer x =
          k.timers.timer x := Function.update_of_ne hxu ..
      rw [← hother]
      exact hx
  | timerStart u =>
    exact onTimers (f := fun tm => rtTimerStart tm (.inr u)) h hrun fun m hm =>
      rtTimerStart_keeps hJ.rule h.links (hJ.user u) hm
  | timerStop u =>
    refine onTimers (f := fun tm => (rtTimerStop tm (.inr u)).map Prod.snd) h hrun fun m hm => ?_
    obtain ⟨_, hr⟩ := returned_of_map hm
    exact rtTimerStop_keeps hJ.rule h.links hr
  | timerControl u cmd =>
    cases hrun
    exact ⟨h.timers (rtTimerControl_keeps h.links cmd), fun r => rfl⟩
  | timerDetach u =>
    exact onTimers (f := fun tm => rtTimerDetach tm (.inr u)) h hrun fun m hm =>
      rtTimerRemove_keeps hJ.rule h.links hm

theorem runCalls [Fintype τ] [Fintype υ] (hJ : TimerWatch z J place ok)
    (hown : z = .head .defunct → own = none) (hz : Outside z) (cs : List (Call τ σ υ)) :
    ∀ {k k' : RtKernel τ σ υ}, PassedBy z own J k → (∀ c ∈ cs, c.Misses z) →
      SampleRtos.runCalls cs k = some k' → RunsPast z own J (SampleRtos.runCalls cs) k k' := by
  induction cs with
  | nil => intro k k' h _ hrun; cases hrun; exact ⟨h, fun _ => rfl⟩
  | cons c cs ih =>
    intro k k' h hcs hrun
    obtain ⟨k₁, hc, hrest⟩ := Option.bind_eq_some_iff.mp hrun
    have hmiss := hcs c (List.mem_cons_self ..)
    split at hc
    · rename_i hok
      obtain ⟨h₁, hsame₁⟩ := call hJ hown h hz hmiss hc
      obtain ⟨h₂, hsame₂⟩ := ih h₁ (fun d hd => hcs d (List.mem_cons_of_mem _ hd)) hrest
      refine ⟨h₂, fun r => ?_⟩
      rw [SampleRtos.runCalls, if_pos ((allowed_iff hmiss r).mpr hok), hsame₁]
      exact hsame₂ r
    · cases hc

/-- The firing of a timer whose callback is not about `z`. -/
theorem fire [Fintype τ] [Fintype υ] (hJ : TimerWatch z J place ok)
    (hown : z = .head .defunct → own = none) (h : PassedBy z own J k) (hz : Outside z)
    {x : τ ⊕ υ} {cs : List (Call τ σ υ)} (hx : ∀ t, z = .item t → x ≠ threadTimer t)
    (hcs : ∀ c ∈ cs, c.Misses z) (hrun : rtTimerFire kernelCallback cs x k = some k') :
    RunsPast z own J (rtTimerFire kernelCallback cs x) k k' := by
  obtain ⟨m, hrem, hrun⟩ := Option.bind_eq_some_iff.mp hrun
  obtain ⟨f, hf, hrun⟩ := Option.bind_eq_some_iff.mp hrun
  obtain ⟨k₁, hcall, hend⟩ := Option.bind_eq_some_iff.mp hrun
  have hokx : ok (.item x) := by
    cases x with
    | inl t => exact hJ.thread t fun hzt => hx t hzt rfl
    | inr u => exact hJ.user u
  have hkeep := rtTimerRemove_keeps hJ.rule h.links hrem
  have h₀ : PassedBy z own J { k with timers := m } := h.timers hkeep
  have h₁ : RunsPast z own J (kernelCallback x f cs) { k with timers := m } k₁ := by
    cases f with
    | rtThreadTimeout t =>
      have hxt : x = .inl t := h₀.callbacks x t hf
      have ht : z ≠ .item t := fun hzt => hx t hzt hxt
      exact onSched (f := fun e => rtThreadTimeout e t) h₀ hcall fun _ he =>
        PassesBy.timeout h₀.env hz ht he
    | user => exact runCalls hJ hown hz cs h₀ hcs hcall
  have hquiet : PassedBy z own J { k₁ with timers := k₁.timers.deactivate x } :=
    h₁.passed.timers ⟨h₁.passed.links, deactivate_callback⟩
  -- up to the end of the callback the record at `z` plays no part
  have hstep : ∀ r, rtTimerFire kernelCallback cs x (k.withRecord z r) =
      if (k₁.timers.timer x).periodic ∧ (k₁.timers.timer x).activated then do
        let m ← rtTimerStart (k₁.timers.deactivate x) x
        return { k₁.withRecord z r with timers := m }
      else some { k₁.withRecord z r with timers := k₁.timers.deactivate x } := by
    intro r
    have hcall := h₁.same r
    show ((rtTimerRemove k.timers x).bind _) = _
    rw [hrem, Option.bind_some]
    show ((m.timer x).timeoutFunc.bind _) = _
    rw [hf, Option.bind_some]
    show ((kernelCallback x f cs (Sys.withRecord { k with timers := m } z r)).bind _) = _
    rw [hcall]
    rfl
  split at hend
  · rename_i hagain
    obtain ⟨m', hstart, hret⟩ := Option.bind_eq_some_iff.mp hend
    cases hret
    refine ⟨hquiet.timers (rtTimerStart_keeps hJ.rule hquiet.links hokx hstart), fun r => ?_⟩
    rw [hstep, if_pos hagain, hstart]
    rfl
  · rename_i hagain
    cases hend
    refine ⟨hquiet, fun r => ?_⟩
    rw [hstep, if_neg hagain]
    rfl

/-- A check that fires no timer of the thread at `z`. -/
theorem check [Fintype τ] [Fintype υ] (hJ : TimerWatch z J place ok)
    (hown : z = .head .defunct → own = none) (hz : Outside z)
    (script : List (List (Call τ σ υ))) : ∀ {k k' : RtKernel τ σ υ}, PassedBy z own J k →
      (∀ cs ∈ script, ∀ c ∈ cs, c.Misses z) →
      (∀ t, z = .item t → threadTimer t ∉ timerCheckFires script k) →
      rtTimerCheck kernelCallback script k = some k' →
      RunsPast z own J (rtTimerCheck kernelCallback script) k k' := by
  induction script with
  | nil =>
    intro k k' h _ _ hrun
    rcases rtTimerCheck_cases hrun with ⟨rfl, hdue⟩ | ⟨c, rest, x, k₁, hnil, -⟩
    · exact ⟨h, fun r => rtTimerCheck_stops (s := k') rfl hdue hrun⟩
    · cases hnil
  | cons c script ih =>
    intro k k' h hcs hfires hrun
    rcases rtTimerCheck_cases hrun with ⟨rfl, hdue⟩ | ⟨c', rest, x, k₁, hcons, hx, hdue, hf, hrest⟩
    · exact ⟨h, fun r => rtTimerCheck_stops (s := k') rfl hdue hrun⟩
    · cases hcons
      rw [timerCheckFires_cons (queue_head.mpr hx) hdue hf] at hfires
      have hother : ∀ t, z = .item t → x ≠ threadTimer t := fun t hzt hxt =>
        hfires t hzt (List.mem_cons.mpr (.inl hxt.symm))
      obtain ⟨h₁, hsame₁⟩ := fire hJ hown h hz hother (hcs c (List.mem_cons_self ..)) hf
      obtain ⟨h₂, hsame₂⟩ := ih h₁ (fun cs hmem => hcs cs (List.mem_cons_of_mem _ hmem))
        (fun t hzt hmem => hfires t hzt (List.mem_cons_of_mem _ hmem)) hrest
      refine ⟨h₂, fun r => ?_⟩
      rw [rtTimerCheck_fires (s := k.withRecord z r) hx hdue (hsame₁ r)]
      exact hsame₂ r

/-- A tick that fires no timer of the thread at `z`. -/
theorem tick [Fintype τ] [Fintype υ] (hJ : TimerWatch z J place ok)
    (hown : z = .head .defunct → own = none) (h : PassedBy z own J k) (hz : Outside z)
    {script : List (List (Call τ σ υ))} (hcs : ∀ cs ∈ script, ∀ c ∈ cs, c.Misses z)
    (hfires : ∀ t, z = .item t → threadTimer t ∉ tickFires script k)
    (hrun : kernelTick script k = some k') :
    RunsPast z own J (kernelTick script) k k' := by
  obtain ⟨k₁, hstart, hcheck⟩ := Option.bind_eq_some_iff.mp hrun
  have h₀ : PassedBy z own J { k with timers := { k.timers with rtTick := k.timers.rtTick + 1 } } :=
    ⟨h.env, h.callbacks, h.links⟩
  have hstart : Sys.onSched { k with timers := { k.timers with rtTick := k.timers.rtTick + 1 } }
    rtTickSlice = some k₁ := hstart
  obtain ⟨h₁, hsame₁⟩ := onSched h₀ hstart fun _ he => PassesBy.tickSlice h₀.env hz he
  have hlist : tickFires script k = timerCheckFires script k₁ := by
    rw [tickFires, hstart, Option.elim_some]
  rw [hlist] at hfires
  obtain ⟨h₂, hsame₂⟩ := check hJ hown hz script h₁ hcs hfires hcheck
  refine ⟨h₂, fun r => ?_⟩
  have hslice := hsame₁ r
  show (Sys.onSched (Sys.withRecord { k with timers :=
    { k.timers with rtTick := k.timers.rtTick + 1 } } z r) rtTickSlice).bind _ = _
  rw [hslice]
  exact hsame₂ r

end RunsPast

/-- An operation none of whose calls is about the thread at `z`. -/
def Op.Misses (z : ThreadNode τ σ) : Op τ σ υ → Prop
  | .call c => c.Misses z
  | .tickIncrease script => ∀ cs ∈ script, ∀ c ∈ cs, c.Misses z
  | _ => True

/-- Every operation passes by a node it is not about. -/
theorem RunsPast.exec [Fintype τ] [Fintype υ] (hJ : TimerWatch z J place ok)
    (hown : z = .head .defunct → own = none) (h : PassedBy z own J k) (hz : Outside z)
    {op : Op τ σ υ} (hop : op.Misses z)
    (hfires : ∀ t, z = .item t → ∀ script, op = .tickIncrease script →
      threadTimer t ∉ tickFires script k)
    (hrun : op.exec k = some k') : RunsPast z own J (Op.exec · op) k k' := by
  cases op with
  | call c => exact RunsPast.call hJ hown h hz hop hrun
  | threadSleep tick => exact RunsPast.threadSleep hJ h hz hrun
  | semTake s time =>
    obtain ⟨_, hr⟩ := returned_of_map hrun
    exact RunsPast.semTake hJ h hz hr
  | tickIncrease script =>
    exact RunsPast.tick hJ hown h hz hop (fun t hzt => hfires t hzt script rfl) hrun
  | schedulerStart =>
    exact RunsPast.onSched (f := rtSystemSchedulerStart) h hrun fun _ he =>
      PassesBy.schedulerStart h.env hz he

end

end Unlisted

end SampleRtos
