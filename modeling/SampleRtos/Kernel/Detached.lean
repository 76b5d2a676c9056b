import SampleRtos.Kernel.Defunct

/-!
# A thread on no list

What `rt_thread_detach` leaves behind, and what it has in hand before that, once
`rt_schedule_remove_thread` has taken the thread off its list. No link leads to the
thread's node, so no operation comes upon it; only a call about the thread itself,
or its own timer, can bring it back.
-/

namespace SampleRtos

open Intrusive

section Detached
variable {τ σ υ : Type} [DecidableEq τ] [DecidableEq σ] [DecidableEq υ]
  {J : TimerLinks (τ ⊕ υ) → Prop} {place ok : Node TimerHead (τ ⊕ υ) → Prop}
  {k k' : RtKernel τ σ υ} {t : τ}

/-! ## Off every list -/

/-- The timer of `t` is on no list. -/
abbrev Disarmed (t : τ) (m : TimerLinks (τ ⊕ υ)) : Prop :=
  Apart m (.item (threadTimer t)) (some (.item (threadTimer t)))

/-- The node of `t` is on no list, `J` holds of the timer links, and there is still no
list of defunct threads. -/
structure Loose (J : TimerLinks (τ ⊕ υ) → Prop) (t : τ) (k : RtKernel τ σ υ) : Prop where
  passed : PassedBy (.item t) (some (.item t)) J k
  defunct : NoDefunct k

/-- `t` is closed, or initialised again, and neither its node nor its timer is on a list. -/
structure Detached (t : τ) (k : RtKernel τ σ υ) : Prop where
  loose : Loose (Disarmed t) t k
  stat : (k.env.thread t).stat = .init ∨ (k.env.thread t).stat = .close

/-- `t` is on no list, and `rt_thread_detach` has or has not reached its change of
`stat` yet. -/
def Adrift (J : TimerLinks (τ ⊕ υ) → Prop) (t : τ) (k : RtKernel τ σ υ) : Prop :=
  Loose J t k ∧ (k.env.thread t).Active ∨ Detached t k

/-- What the timer links are to satisfy while `t` is adrift: other timers may be started,
and `rt_timer_detach` takes the timer of `t` off its list. -/
structure Detachable (t : τ) (J : TimerLinks (τ ⊕ υ) → Prop)
    (place ok : Node TimerHead (τ ⊕ υ) → Prop) : Prop where
  watch : TimerWatch (σ := σ) (.item t) J place ok
  disarms : ∀ {m m'}, J m → rtListRemove m (.item (threadTimer t)) = some m' → Disarmed t m'

section
omit [DecidableEq σ]

theorem detachable_disarmed (t : τ) : Detachable (σ := σ) (υ := υ) t (Disarmed t)
    (fun n => n ≠ .item (threadTimer t)) fun n => n ≠ .item (threadTimer t) where
  watch := ⟨linksRule_apart (threadTimer t), by simp, fun u hu => by simpa using Ne.symm hu⟩
  disarms h hrun := by
    obtain rfl := Option.some.inj (h.remove_own.symm.trans hrun)
    exact h

theorem detachable_answered (t : τ) : Detachable (σ := σ) (υ := υ) t
    (Answered · (.item (threadTimer t))) (fun _ => True) fun n => n ≠ .item (threadTimer t) where
  watch := ⟨linksRule_answered (threadTimer t), by simp, fun u hu => by simpa using Ne.symm hu⟩
  disarms h hrun := h.remove_own hrun

theorem watch_true (t : τ) : TimerWatch (σ := σ) (υ := υ) (.item t) (fun _ => True)
    (fun _ => True) fun _ => True :=
  ⟨linksRule_true, fun _ => trivial, fun _ _ => trivial⟩

end

namespace Loose

section
omit [DecidableEq τ] [DecidableEq σ] [DecidableEq υ]

theorem timers (h : Loose J t k)
    {m : TimerSys (τ ⊕ υ) (TimerCallback τ) (TimerLinks (τ ⊕ υ))} (hm : TimersKeep J k.timers m) :
    Loose J t { k with timers := m } :=
  ⟨h.passed.timers hm, h.defunct.timers ⟨trivial, hm.callback⟩⟩

end

section
omit [DecidableEq σ] [DecidableEq υ]

/-- The record of `t` may change in any way. -/
theorem setThread (h : Loose J t k) (r : RtThread) :
    Loose J t { k with env := k.env.setThread t r } :=
  ⟨⟨⟨h.passed.env.apart, h.passed.env.current⟩, h.passed.callbacks, h.passed.links⟩,
    ⟨h.defunct.env.apart, h.defunct.env.current⟩, h.defunct.callbacks, trivial⟩

end

section
omit [DecidableEq υ]

/-- `rt_schedule_remove_thread` finds the node of `t` on no list. -/
theorem removeSelf (h : Loose J t k)
    (hrun : (k.onSched fun e => rtScheduleRemoveThread e t) = some k') :
    Loose J t k' ∧ k'.env.thread = k.env.thread := by
  obtain ⟨e, he, hret⟩ := Option.bind_eq_some_iff.mp hrun
  cases hret
  obtain ⟨l, hl, he⟩ := Option.bind_eq_some_iff.mp he
  obtain rfl : k.env.list = l := Option.some.inj (h.passed.env.apart.remove_own.symm.trans hl)
  dsimp only at he
  split at he <;> cases he <;>
    exact ⟨⟨⟨⟨h.passed.env.apart, h.passed.env.current⟩, h.passed.callbacks, h.passed.links⟩,
      ⟨h.defunct.env.apart, h.defunct.env.current⟩, h.defunct.callbacks, trivial⟩, rfl⟩

end

/-- A call about other threads only. -/
theorem call [Fintype τ] [Fintype υ] (hJ : TimerWatch (σ := σ) (.item t) J place ok)
    (h : Loose J t k)
    {c : Call τ σ υ} (hc : c.Misses (.item t)) (hrun : c.exec k = some k') :
    Loose J t k' ∧ k'.env.thread t = k.env.thread t := by
  have hpast := RunsPast.call hJ (by simp) h.passed (outside_item t) hc hrun
  have hdefunct := (RunsPast.call watch_defunct (fun _ => rfl) h.defunct outside_defunct
    (c.misses_head _) hrun).passed
  exact ⟨⟨hpast.passed, hdefunct⟩, hpast.record hrun⟩

section
omit [DecidableEq υ]

/-- There is no list of defunct threads to put `t` on. -/
theorem finish (h : Loose J t k) (hrun : rtThreadDetachFinish k t = some k') : k' = k := by
  unfold rtThreadDetachFinish at hrun
  split at hrun
  · exact (Option.some.inj hrun).symm
  · obtain ⟨l, hins, -⟩ := Option.bind_eq_some_iff.mp hrun
    cases h.defunct.env.apart.insertAfter_null.symm.trans hins

end

section
omit [DecidableEq σ] [DecidableEq υ]

/-- The change of `stat`. -/
theorem close (h : Loose (Disarmed t) t k) :
    Detached t { k with env := k.env.setStat t .close } :=
  ⟨h.setThread _, .inr (by simp [SchedSys.setStat, SchedSys.setThread])⟩

end

section
omit [DecidableEq σ]

/-- `rt_timer_detach`. -/
theorem disarm (hJ : Detachable (σ := σ) t J place ok) (h : Loose J t k) {k₁ : RtKernel τ σ υ}
    (htimer : (k.onTimers fun tm => rtTimerDetach tm (threadTimer t)) = some k₁) :
    Loose (Disarmed t) t k₁ ∧ k₁.env = k.env := by
  obtain ⟨m, hm, hret⟩ := Option.bind_eq_some_iff.mp htimer
  cases hret
  obtain ⟨l, hl, hret⟩ := Option.bind_eq_some_iff.mp hm
  cases hret
  exact ⟨⟨⟨h.passed.env, h.passed.callbacks, hJ.disarms h.passed.links hl⟩,
    h.defunct.env, h.defunct.callbacks, trivial⟩, rfl⟩

end

/-- `rt_thread_detach` on a thread whose node is on no list. -/
theorem threadDetach (hJ : Detachable (σ := σ) t J place ok) (h : Loose J t k)
    (hrun : rtThreadDetach k t = some k') : Detached t k' := by
  obtain ⟨k₁, hrem, hrun⟩ := Option.bind_eq_some_iff.mp hrun
  obtain ⟨k₂, htimer, hrun⟩ := Option.bind_eq_some_iff.mp hrun
  have h₁ : Loose J t k₁ := by
    split at hrem
    · exact (h.removeSelf hrem).1
    · cases hrem
      exact h
  have h₃ := (disarm hJ h₁ htimer).1.close
  rw [h₃.loose.finish hrun]
  exact h₃

/-- `rt_thread_suspend` on a thread whose node is on no list. -/
theorem threadSuspend (hJ : Detachable (σ := σ) t J place ok) (h : Loose J t k)
    (hst : (k.env.thread t).stat = .ready) (hrun : (rtThreadSuspend k t).map Prod.snd = some k') :
    Loose J t k' ∧ (k'.env.thread t).stat = .suspend := by
  obtain ⟨c, hrun⟩ := returned_of_map hrun
  rw [rtThreadSuspend, if_neg (not_not.mpr hst)] at hrun
  obtain ⟨k₁, hrem, hrun⟩ := Option.bind_eq_some_iff.mp hrun
  obtain ⟨⟨c', m⟩, hstop, hret⟩ := Option.bind_eq_some_iff.mp hrun
  cases hret
  have h₀ : Loose J t { k with env := k.env.setStat t .suspend } := h.setThread _
  obtain ⟨h₁, hthread⟩ := h₀.removeSelf hrem
  refine ⟨h₁.timers (rtTimerStop_keeps hJ.watch.rule h₁.passed.links hstop), ?_⟩
  show (k₁.env.thread t).stat = .suspend
  rw [hthread]
  simp [SchedSys.setStat, SchedSys.setThread]

end Loose

/-! ## A detached thread -/

namespace Detached

theorem threadInit (h : Detached t k) (priority : Nat) (tick : BitVec 32) :
    Detached t (rtThreadInit k t priority tick) := by
  have hdefunct : NoDefunct (rtThreadInit k t priority tick) :=
    (RunsPast.threadInit watch_defunct h.loose.defunct (by simp) priority tick).passed
  have hpassed := h.loose.passed
  exact ⟨⟨⟨⟨hpassed.env.apart.init_own, hpassed.env.current⟩, hdefunct.callbacks,
    hpassed.links.init_own⟩, hdefunct⟩, .inl (by simp [rtThreadInit, SchedSys.setThread])⟩

/-- No call but `rt_thread_startup` does anything with a detached thread. -/
theorem call [Fintype τ] [Fintype υ] (h : Detached t k) {c : Call τ σ υ}
    (hc : c ≠ .threadStartup t) (hrun : c.exec k = some k') : Detached t k' := by
  by_cases hmiss : c.Misses (.item t)
  · obtain ⟨h', hrecord⟩ := h.loose.call (detachable_disarmed t).watch hmiss hrun
    exact ⟨h', by rw [hrecord]; exact h.stat⟩
  · cases c with
    | threadInit u priority tick =>
      obtain rfl : u = t := by simpa [Call.Misses, eq_comm] using hmiss
      cases hrun
      exact h.threadInit priority tick
    | threadStartup u =>
      obtain rfl : u = t := by simpa [Call.Misses, eq_comm] using hmiss
      exact absurd rfl hc
    | threadResume u =>
      obtain rfl : u = t := by simpa [Call.Misses, eq_comm] using hmiss
      have hst : (k.env.thread u).stat ≠ .suspend := by rcases h.stat with hst | hst <;> simp [hst]
      simp only [Call.exec, Sys.onSched, rtThreadResume, if_pos hst] at hrun
      cases hrun
      exact h
    | threadSuspend u =>
      obtain rfl : u = t := by simpa [Call.Misses, eq_comm] using hmiss
      have hst : (k.env.thread u).stat ≠ .ready := by rcases h.stat with hst | hst <;> simp [hst]
      simp only [Call.exec, rtThreadSuspend, if_pos hst] at hrun
      cases hrun
      exact h
    | threadDetach u =>
      obtain rfl : u = t := by simpa [Call.Misses, eq_comm] using hmiss
      exact h.loose.threadDetach (detachable_disarmed u) hrun
    | _ => exact absurd trivial hmiss

end Detached

/-! ## A thread adrift -/

/-- The call puts `t` on a ready list although its node is on no list. -/
def Call.Brings (t : τ) (k : RtKernel τ σ υ) : Call τ σ υ → Prop
  | .threadStartup u => u = t
  | .threadResume u => u = t ∧ (k.env.thread t).stat = .suspend
  | _ => False

namespace Adrift

theorem call [Fintype τ] [Fintype υ] (hJ : Detachable (σ := σ) t J place ok) (h : Adrift J t k)
    {c : Call τ σ υ} (hc : ¬ c.Brings t k) (hallowed : c.Allowed k) (hrun : c.exec k = some k') :
    Adrift J t k' := by
  rcases h with ⟨hloose, hact⟩ | hdet
  · by_cases hmiss : c.Misses (.item t)
    · obtain ⟨h', hrecord⟩ := hloose.call hJ.watch hmiss hrun
      exact .inl ⟨h', by rw [hrecord]; exact hact⟩
    · cases c with
      | threadInit u priority tick =>
        -- initialisation asks for a thread that is not started
        obtain rfl : u = t := by simpa [Call.Misses, eq_comm] using hmiss
        rcases hact with hst | hst <;> rcases hallowed.1 with hfree | hfree <;> simp [hst] at hfree
      | threadStartup u =>
        exact (hc (show u = t by simpa [Call.Misses, eq_comm] using hmiss)).elim
      | threadResume u =>
        obtain rfl : u = t := by simpa [Call.Misses, eq_comm] using hmiss
        have hst : (k.env.thread u).stat ≠ .suspend := fun hst => hc ⟨rfl, hst⟩
        simp only [Call.exec, Sys.onSched, rtThreadResume, if_pos hst] at hrun
        cases hrun
        exact .inl ⟨hloose, hact⟩
      | threadSuspend u =>
        obtain rfl : u = t := by simpa [Call.Misses, eq_comm] using hmiss
        rcases hact with hst | hst
        · obtain ⟨h', hst'⟩ := hloose.threadSuspend hJ hst hrun
          exact .inl ⟨h', .inr hst'⟩
        · simp only [Call.exec, rtThreadSuspend, hst, ne_eq, reduceCtorEq, not_false_eq_true,
            if_true] at hrun
          cases hrun
          exact .inl ⟨hloose, .inr hst⟩
      | threadDetach u =>
        obtain rfl : u = t := by simpa [Call.Misses, eq_comm] using hmiss
        exact .inr (hloose.threadDetach hJ hrun)
      | _ => exact absurd trivial hmiss
  · exact .inr (hdet.call (fun heq => hc (by rw [heq]; exact rfl)) hrun)

section
omit [DecidableEq τ] [DecidableEq σ] [DecidableEq υ]

/-- What all timer operations that leave the timer of `t` alone have in common. -/
theorem timers (h : Adrift J t k)
    {m : TimerSys (τ ⊕ υ) (TimerCallback τ) (TimerLinks (τ ⊕ υ))}
    (hm : J k.timers.timerList → TimersKeep J k.timers m)
    (hm' : Disarmed t k.timers.timerList → TimersKeep (Disarmed t) k.timers m) :
    Adrift J t { k with timers := m } := by
  rcases h with ⟨hloose, hact⟩ | hdet
  · exact .inl ⟨hloose.timers (hm hloose.passed.links), hact⟩
  · exact .inr ⟨hdet.loose.timers (hm' hdet.loose.passed.links), hdet.stat⟩

end

section
omit [DecidableEq σ] [DecidableEq υ]

/-- An operation on the lists that passes by every node it is not about. -/
theorem onSched {f : SchedSys τ σ (ThreadLinks τ σ) → Option (SchedSys τ σ (ThreadLinks τ σ))}
    (h : Adrift J t k) (hrun : k.onSched f = some k')
    (hf : ∀ z own e, Outside z → (z = .item t ∨ z = .head .defunct) → Bypassed z own k.env →
      f k.env = some e → PassesBy z own f k.env e) : Adrift J t k' := by
  have hloose : ∀ {J}, Loose J t k → Loose J t k' ∧ k'.env.thread t = k.env.thread t := by
    intro J h
    have hpast := RunsPast.onSched h.passed hrun fun e he =>
      hf _ _ e (outside_item t) (.inl rfl) h.passed.env he
    exact ⟨⟨hpast.passed, (RunsPast.onSched h.defunct hrun fun e he =>
      hf _ _ e outside_defunct (.inr rfl) h.defunct.env he).passed⟩, hpast.record hrun⟩
  rcases h with ⟨h, hact⟩ | h
  · obtain ⟨h', hrecord⟩ := hloose h
    exact .inl ⟨h', by rw [hrecord]; exact hact⟩
  · obtain ⟨h', hrecord⟩ := hloose h.loose
    exact .inr ⟨h', by rw [hrecord]; exact h.stat⟩

end

section Ticks
variable [Fintype τ] [Fintype υ] {P : RtKernel τ σ υ → Call τ σ υ → Prop}

theorem runCalls
    (hcall : ∀ {k k' : RtKernel τ σ υ} {c}, Adrift J t k → P k c → c.Allowed k →
      c.exec k = some k' → Adrift J t k') (cs : List (Call τ σ υ)) :
    ∀ {k k' : RtKernel τ σ υ}, Adrift J t k → callsMeet P cs k →
      SampleRtos.runCalls cs k = some k' → Adrift J t k' := by
  induction cs with
  | nil => intro k k' h _ hrun; cases hrun; exact h
  | cons c cs ih =>
    intro k k' h hP hrun
    obtain ⟨k₁, hc, hrest⟩ := Option.bind_eq_some_iff.mp hrun
    split at hc
    · rename_i hallowed
      exact ih (hcall h hP.1 hallowed hc) (hP.2 k₁ hc) hrest
    · cases hc

/-- The firing of another timer. -/
theorem fire (hJ : Detachable (σ := σ) t J place ok)
    (hcall : ∀ {k k' : RtKernel τ σ υ} {c}, Adrift J t k → P k c → c.Allowed k →
      c.exec k = some k' → Adrift J t k')
    (h : Adrift J t k) {x : τ ⊕ υ} (hx : x ≠ threadTimer t) {cs : List (Call τ σ υ)}
    (hP : fireMeets P cs x k) (hrun : rtTimerFire kernelCallback cs x k = some k') :
    Adrift J t k' := by
  have hother : ok (.item x) ∧ (.item x : Node TimerHead (τ ⊕ υ)) ≠ .item (threadTimer t) := by
    refine ⟨?_, fun heq => hx (Node.item.inj heq)⟩
    cases x with
    | inl u => exact hJ.watch.thread u fun heq => hx (by rw [Node.item.inj heq])
    | inr u => exact hJ.watch.user u
  have hrule := linksRule_apart (threadTimer t : τ ⊕ υ)
  obtain ⟨m, hrem, hrun⟩ := Option.bind_eq_some_iff.mp hrun
  obtain ⟨f, hf, hrun⟩ := Option.bind_eq_some_iff.mp hrun
  obtain ⟨k₁, hcallback, hend⟩ := Option.bind_eq_some_iff.mp hrun
  have h₀ : Adrift J t { k with timers := m } :=
    h.timers (fun hl => rtTimerRemove_keeps hJ.watch.rule hl hrem)
      fun hl => rtTimerRemove_keeps hrule hl hrem
  have h₁ : Adrift J t k₁ := by
    cases f with
    | rtThreadTimeout u =>
      have hown : OwnCallbacks m := by
        rcases h₀ with ⟨h₀, -⟩ | h₀
        · exact h₀.passed.callbacks
        · exact h₀.loose.passed.callbacks
      -- the callback of a thread's timer is about that thread, and `x` is not the timer of `t`
      have hxu : x = .inl u := hown x u hf
      refine onSched (f := fun e => rtThreadTimeout e u) h₀ hcallback ?_
      intro z own e hz hzt hby he
      refine PassesBy.timeout hby hz ?_ he
      rintro rfl
      rcases hzt with heq | heq
      · exact hx (by rw [hxu, Node.item.inj heq])
      · cases heq
    | user =>
      obtain ⟨l, hl, hret⟩ := Option.bind_eq_some_iff.mp hrem
      cases hret
      exact runCalls hcall cs h₀ (hP hf _ (by simp [rtTimerRemove, hl])) hcallback
  have hquiet : Adrift J t { k₁ with timers := k₁.timers.deactivate x } :=
    h₁.timers (fun hl => ⟨hl, deactivate_callback⟩) fun hl => ⟨hl, deactivate_callback⟩
  split at hend
  · obtain ⟨m', hstart, hret⟩ := Option.bind_eq_some_iff.mp hend
    cases hret
    exact hquiet.timers (fun hl => rtTimerStart_keeps hJ.watch.rule hl hother.1 hstart)
      fun hl => rtTimerStart_keeps hrule hl hother.2 hstart
  · cases hend
    exact hquiet

/-- A check during which the timer of `t` is not on the list, or is not fired. -/
theorem check (hJ : Detachable (σ := σ) t J place ok)
    (hcall : ∀ {k k' : RtKernel τ σ υ} {c}, Adrift J t k → P k c → c.Allowed k →
      c.exec k = some k' → Adrift J t k') (script : List (List (Call τ σ υ))) :
    ∀ {k k' : RtKernel τ σ υ}, Adrift J t k → timerCheckMeets P script k →
      ((∀ m, J m → Disarmed t m) ∨ threadTimer t ∉ timerCheckFires script k) →
      rtTimerCheck kernelCallback script k = some k' → Adrift J t k' := by
  induction script with
  | nil =>
    intro k k' h _ _ hrun
    rcases rtTimerCheck_cases hrun with ⟨rfl, -⟩ | ⟨c, rest, x, k₁, hnil, -⟩
    · exact h
    · cases hnil
  | cons c script ih =>
    intro k k' h hP hown hrun
    rcases rtTimerCheck_cases hrun with ⟨rfl, -⟩ | ⟨c', rest, x, k₁, hcons, hx, hdue, hf, hrest⟩
    · exact h
    · cases hcons
      have hxt : x ≠ threadTimer t := by
        rintro rfl
        rcases hown with hdis | hnot
        · have hapart : Disarmed t k.timers.timerList := by
            rcases h with ⟨h, -⟩ | h
            · exact hdis _ h.passed.links
            · exact h.loose.passed.links
          exact hapart.ne_next (by simp) hx rfl
        · rw [timerCheckFires_cons (queue_head.mpr hx) hdue hf] at hnot
          exact hnot (List.mem_cons_self ..)
      obtain ⟨hfire, hscript⟩ := hP x (queue_head.mpr hx) hdue
      refine ih (fire hJ hcall h hxt hfire hf) (hscript k₁ hf) (hown.imp_right fun hnot => ?_) hrest
      rw [timerCheckFires_cons (queue_head.mpr hx) hdue hf] at hnot
      exact fun hmem => hnot (List.mem_cons_of_mem _ hmem)

/-- A tick whose callbacks meet `P`. -/
theorem tick (hJ : Detachable (σ := σ) t J place ok)
    (hcall : ∀ {k k' : RtKernel τ σ υ} {c}, Adrift J t k → P k c → c.Allowed k →
      c.exec k = some k' → Adrift J t k')
    (h : Adrift J t k) {script : List (List (Call τ σ υ))} (hP : tickMeets P script k)
    (hown : (∀ m, J m → Disarmed t m) ∨ threadTimer t ∉ tickFires script k)
    (hrun : kernelTick script k = some k') : Adrift J t k' := by
  obtain ⟨k₁, hstart, hcheck⟩ := Option.bind_eq_some_iff.mp hrun
  have h₀ : Adrift J t { k with timers := { k.timers with rtTick := k.timers.rtTick + 1 } } :=
    h.timers (fun hl => ⟨hl, fun _ => rfl⟩) fun hl => ⟨hl, fun _ => rfl⟩
  have hstart : Sys.onSched { k with timers := { k.timers with rtTick := k.timers.rtTick + 1 } }
    rtTickSlice = some k₁ := hstart
  have h₁ : Adrift J t k₁ := onSched h₀ hstart fun z own e hz _ hby he =>
    PassesBy.tickSlice hby hz he
  rw [tickFires, hstart, Option.elim_some] at hown
  exact check hJ hcall script h₁ (hP k₁ hstart) hown hcheck

end Ticks

end Adrift

/-! ## Later runs -/

section
omit [DecidableEq σ]

/-- No timer list at all: only the detached threads are adrift on one. -/
theorem detachable_false (t : τ) : Detachable (σ := σ) (υ := υ) t (fun _ => False)
    (fun _ => True) fun _ => True :=
  ⟨⟨⟨trivial, fun h _ => h, fun h _ => h, fun h _ _ _ => h, fun _ _ _ => trivial⟩,
    fun _ => trivial, fun _ _ => trivial⟩, fun h _ => h.elim⟩

end

section
omit [DecidableEq τ] [DecidableEq σ] [DecidableEq υ]

theorem adrift_false : Adrift (fun _ => False) t k ↔ Detached t k :=
  ⟨fun h => h.resolve_left fun hloose => hloose.1.passed.links, .inr⟩

end

/-- No operation does anything with a detached thread, unless it starts it again. -/
theorem Detached.exec [Fintype τ] [Fintype υ] (h : Detached t k) {op : Op τ σ υ}
    (hop : op.Meets (fun _ c => c ≠ .threadStartup t) k) (hrun : op.exec k = some k') :
    Detached t k' := by
  have hrest : op.Misses (.item t) → op.Misses (.head .defunct) →
      (∀ script, op ≠ .tickIncrease script) → Detached t k' := by
    intro hmiss hmiss' hop
    have hpast := RunsPast.exec (detachable_disarmed t).watch (by simp) h.loose.passed
      (outside_item t) hmiss (fun _ _ script heq => absurd heq (hop script)) hrun
    have hdefunct := (RunsPast.exec watch_defunct (fun _ => rfl) h.loose.defunct outside_defunct
      hmiss' (by simp) hrun).passed
    have hrecord := hpast.record hrun
    exact ⟨⟨hpast.passed, hdefunct⟩, by rw [hrecord]; exact h.stat⟩
  cases op with
  | call c => exact h.call hop hrun
  | threadSleep tick => exact hrest trivial trivial (by simp)
  | semTake s time => exact hrest trivial trivial (by simp)
  | schedulerStart => exact hrest trivial trivial (by simp)
  | tickIncrease script =>
    refine adrift_false.mp (Adrift.tick (detachable_false t) ?_ (adrift_false.mpr h) hop
      (.inl fun _ => False.elim) hrun)
    intro k k' c h hc _ hrun
    exact adrift_false.mpr ((adrift_false.mp h).call hc hrun)

end Detached

end SampleRtos
