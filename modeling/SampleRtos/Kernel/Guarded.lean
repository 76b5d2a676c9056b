import SampleRtos.Kernel.Observe

/-!
# Conditions on the calls of callbacks

A run may be restricted to operations whose calls meet a condition on the state
each is made in. For a call made by a thread that is the state before the
operation; for the calls of a timer's callback it is a state within the tick.
`Op.Meets` follows the tick to these states, and `tick_meets_invariant` is the
rule for what such a tick preserves.
-/

namespace SampleRtos

open Intrusive

section Guarded
variable {τ σ υ : Type} [DecidableEq τ] [DecidableEq σ] [DecidableEq υ] [Fintype τ] [Fintype υ]

/-! ## The states calls are made in -/

/-- `P` holds of every call of a callback in the state it is made in. -/
def callsMeet (P : RtKernel τ σ υ → Call τ σ υ → Prop) :
    List (Call τ σ υ) → RtKernel τ σ υ → Prop
  | [], _ => True
  | c :: cs, k => P k c ∧ ∀ k' ∈ c.exec k, callsMeet P cs k'

/-- `P` holds of every call of the callback of `x`, a timer about to fire. -/
def fireMeets (P : RtKernel τ σ υ → Call τ σ υ → Prop) (c : List (Call τ σ υ)) (x : τ ⊕ υ)
    (k : RtKernel τ σ υ) : Prop :=
  (k.timers.timer x).timeoutFunc = some .user →
    ∀ m ∈ rtTimerRemove k.timers x, callsMeet P c { k with timers := m }

def timerCheckMeets (P : RtKernel τ σ υ → Call τ σ υ → Prop) :
    List (List (Call τ σ υ)) → RtKernel τ σ υ → Prop
  | [], _ => True
  | c :: script, k =>
      ∀ x ∈ k.queue.head?, (k.timers.timer x).due k.timers.rtTick →
        fireMeets P c x k ∧
          ∀ k' ∈ rtTimerFire kernelCallback c x k, timerCheckMeets P script k'

/-- `P` holds of every call of the callbacks `rt_tick_increase` runs. -/
def tickMeets (P : RtKernel τ σ υ → Call τ σ υ → Prop) (script : List (List (Call τ σ υ)))
    (k : RtKernel τ σ υ) : Prop :=
  ∀ k' ∈ Sys.onSched { k with timers := { k.timers with rtTick := k.timers.rtTick + 1 } }
    rtTickSlice, timerCheckMeets P script k'

/-- `Q` holds of every thread whose timer a check fires, in the state it fires in. -/
def timerCheckTimeouts (Q : RtKernel τ σ υ → τ → Prop) :
    List (List (Call τ σ υ)) → RtKernel τ σ υ → Prop
  | [], _ => True
  | c :: script, k =>
      ∀ x ∈ k.queue.head?, (k.timers.timer x).due k.timers.rtTick →
        (∀ t, x = threadTimer t → Q k t) ∧
          ∀ k' ∈ rtTimerFire kernelCallback c x k, timerCheckTimeouts Q script k'

/-- `Q` holds of every thread that `rt_tick_increase` times out. -/
def tickTimeouts (Q : RtKernel τ σ υ → τ → Prop) (script : List (List (Call τ σ υ)))
    (k : RtKernel τ σ υ) : Prop :=
  ∀ k' ∈ Sys.onSched { k with timers := { k.timers with rtTick := k.timers.rtTick + 1 } }
    rtTickSlice, timerCheckTimeouts Q script k'

/-- The timers `rt_timer_check` fires, in order. -/
def timerCheckFires : List (List (Call τ σ υ)) → RtKernel τ σ υ → List (τ ⊕ υ)
  | [], _ => []
  | c :: script, k =>
      match k.queue.head? with
      | none => []
      | some x =>
          if (k.timers.timer x).due k.timers.rtTick then
            x :: (rtTimerFire kernelCallback c x k).elim [] (timerCheckFires script)
          else []

/-- The timers `rt_tick_increase` fires, in order. -/
def tickFires (script : List (List (Call τ σ υ))) (k : RtKernel τ σ υ) : List (τ ⊕ υ) :=
  (Sys.onSched { k with timers := { k.timers with rtTick := k.timers.rtTick + 1 } }
    rtTickSlice).elim [] (timerCheckFires script)

/-- `P` holds of every call of the operation in the state it is made in. -/
def Op.Meets (P : RtKernel τ σ υ → Call τ σ υ → Prop) (k : RtKernel τ σ υ) : Op τ σ υ → Prop
  | .call c => P k c
  | .tickIncrease script => tickMeets P script k
  | _ => True

section Decide
variable (P : RtKernel τ σ υ → Call τ σ υ → Prop) [∀ k c, Decidable (P k c)]

instance decidableCallsMeet : ∀ cs k, Decidable (callsMeet P cs k)
  | [], _ => .isTrue trivial
  | c :: cs, k =>
      have := decidableCallsMeet cs
      inferInstanceAs (Decidable (P k c ∧ ∀ k' ∈ c.exec k, callsMeet P cs k'))

instance (c : List (Call τ σ υ)) (x : τ ⊕ υ) (k : RtKernel τ σ υ) :
    Decidable (fireMeets P c x k) :=
  inferInstanceAs (Decidable (_ → ∀ m ∈ rtTimerRemove k.timers x, _))

instance decidableTimerCheckMeets : ∀ script k, Decidable (timerCheckMeets P script k)
  | [], _ => .isTrue trivial
  | _ :: script, k =>
      have := decidableTimerCheckMeets script
      inferInstanceAs (Decidable (∀ x ∈ k.queue.head?, _ → _ ∧ ∀ k' ∈ _, _))

instance (script : List (List (Call τ σ υ))) (k : RtKernel τ σ υ) :
    Decidable (tickMeets P script k) :=
  inferInstanceAs (Decidable (∀ k' ∈ Sys.onSched _ _, _))

instance decidableTimerCheckTimeouts (Q : RtKernel τ σ υ → τ → Prop) [∀ k t, Decidable (Q k t)] :
    ∀ script k, Decidable (timerCheckTimeouts Q script k)
  | [], _ => .isTrue trivial
  | _ :: script, k =>
      have := decidableTimerCheckTimeouts Q script
      inferInstanceAs (Decidable (∀ x ∈ k.queue.head?, _ → _ ∧ ∀ k' ∈ _, _))

instance (Q : RtKernel τ σ υ → τ → Prop) [∀ k t, Decidable (Q k t)]
    (script : List (List (Call τ σ υ))) (k : RtKernel τ σ υ) :
    Decidable (tickTimeouts Q script k) :=
  inferInstanceAs (Decidable (∀ k' ∈ Sys.onSched _ _, _))

instance (k : RtKernel τ σ υ) (op : Op τ σ υ) : Decidable (op.Meets P k) := by
  rcases op <;> dsimp only [Op.Meets] <;> infer_instance

end Decide

/-! ## Weaker conditions -/

theorem callsMeet_mono {P Q : RtKernel τ σ υ → Call τ σ υ → Prop} (hPQ : ∀ k c, P k c → Q k c)
    (cs : List (Call τ σ υ)) : ∀ {k : RtKernel τ σ υ}, callsMeet P cs k → callsMeet Q cs k := by
  induction cs with
  | nil => exact fun _ => trivial
  | cons c cs ih => exact fun h => ⟨hPQ _ c h.1, fun k' hk' => ih (h.2 k' hk')⟩

theorem timerCheckMeets_mono {P Q : RtKernel τ σ υ → Call τ σ υ → Prop}
    (hPQ : ∀ k c, P k c → Q k c) (script : List (List (Call τ σ υ))) :
    ∀ {k : RtKernel τ σ υ}, timerCheckMeets P script k → timerCheckMeets Q script k := by
  induction script with
  | nil => exact fun _ => trivial
  | cons c script ih =>
    intro k h x hx hdue
    obtain ⟨hfire, hrest⟩ := h x hx hdue
    exact ⟨fun hf m hm => callsMeet_mono hPQ c (hfire hf m hm), fun k' hk' => ih (hrest k' hk')⟩

theorem tickMeets_mono {P Q : RtKernel τ σ υ → Call τ σ υ → Prop} (hPQ : ∀ k c, P k c → Q k c)
    {script : List (List (Call τ σ υ))} {k : RtKernel τ σ υ} (h : tickMeets P script k) :
    tickMeets Q script k :=
  fun k' hk' => timerCheckMeets_mono hPQ script (h k' hk')

/-! ## Two conditions at once -/

section Both
variable {P Q : RtKernel τ σ υ → Call τ σ υ → Prop}

theorem callsMeet_and (cs : List (Call τ σ υ)) : ∀ {k : RtKernel τ σ υ}, callsMeet P cs k →
    callsMeet Q cs k → callsMeet (fun k c => P k c ∧ Q k c) cs k := by
  induction cs with
  | nil => exact fun _ _ => trivial
  | cons c cs ih => exact fun h h' => ⟨⟨h.1, h'.1⟩, fun k' hk' => ih (h.2 k' hk') (h'.2 k' hk')⟩

theorem timerCheckMeets_and (script : List (List (Call τ σ υ))) : ∀ {k : RtKernel τ σ υ},
    timerCheckMeets P script k → timerCheckMeets Q script k →
      timerCheckMeets (fun k c => P k c ∧ Q k c) script k := by
  induction script with
  | nil => exact fun _ _ => trivial
  | cons c script ih =>
    intro k h h' x hx hdue
    obtain ⟨hfire, hrest⟩ := h x hx hdue
    obtain ⟨hfire', hrest'⟩ := h' x hx hdue
    exact ⟨fun hf m hm => callsMeet_and c (hfire hf m hm) (hfire' hf m hm),
      fun k' hk' => ih (hrest k' hk') (hrest' k' hk')⟩

theorem tickMeets_and {script : List (List (Call τ σ υ))} {k : RtKernel τ σ υ}
    (h : tickMeets P script k) (h' : tickMeets Q script k) :
    tickMeets (fun k c => P k c ∧ Q k c) script k :=
  fun k' hk' => timerCheckMeets_and script (h k' hk') (h' k' hk')

end Both

/-! ## Conditions on the calls alone -/

section OfForall
variable {P : RtKernel τ σ υ → Call τ σ υ → Prop}

theorem callsMeet_of_forall (cs : List (Call τ σ υ)) : ∀ {k : RtKernel τ σ υ},
    (∀ c ∈ cs, ∀ k, P k c) → callsMeet P cs k := by
  induction cs with
  | nil => intro k _; trivial
  | cons c cs ih =>
    intro k h
    exact ⟨h c (List.mem_cons_self ..) k,
      fun k' _ => ih fun d hd => h d (List.mem_cons_of_mem _ hd)⟩

theorem timerCheckMeets_of_forall (script : List (List (Call τ σ υ))) : ∀ {k : RtKernel τ σ υ},
    (∀ cs ∈ script, ∀ c ∈ cs, ∀ k, P k c) → timerCheckMeets P script k := by
  induction script with
  | nil => intro k _; trivial
  | cons cs script ih =>
    intro k h x _ _
    exact ⟨fun _ _ _ => callsMeet_of_forall cs (h cs (List.mem_cons_self ..)),
      fun k' _ => ih fun ds hds => h ds (List.mem_cons_of_mem _ hds)⟩

theorem timerCheckTimeouts_true (script : List (List (Call τ σ υ))) : ∀ {k : RtKernel τ σ υ},
    timerCheckTimeouts (fun _ _ => True) script k := by
  induction script with
  | nil => intro k; trivial
  | cons cs script ih => exact fun x _ _ => ⟨fun _ _ => trivial, fun k' _ => ih⟩

theorem tickMeets_of_forall {script : List (List (Call τ σ υ))} {k : RtKernel τ σ υ}
    (h : ∀ cs ∈ script, ∀ c ∈ cs, ∀ k, P k c) : tickMeets P script k :=
  fun _ _ => timerCheckMeets_of_forall script h

end OfForall

/-! ## What a tick preserves -/

section Tick
variable {P : RtKernel τ σ υ → Call τ σ υ → Prop} {Q : RtKernel τ σ υ → τ → Prop}
  {I : SchedSys τ σ (ThreadRings τ σ) → Prop}

theorem runCalls_meets_invariant
    (hcall : ∀ {k a c a'}, KernelRel k a → KernelWf a → P k c → Abs.CallAllowed a c →
      I a.env → Abs.execCall a c = some a' → I a'.env) (cs : List (Call τ σ υ)) :
    ∀ {k : RtKernel τ σ υ} {a a' : SeqKernel τ σ υ}, KernelRel k a → KernelWf a →
      callsMeet P cs k → I a.env → Abs.runCalls cs a = some a' → I a'.env := by
  induction cs with
  | nil => intro k a a' _ _ _ hI hrun; cases hrun; exact hI
  | cons c cs ih =>
    intro k a a' hk hw hP hI hrun
    obtain ⟨a₁, hc, hrest⟩ := Option.bind_eq_some_iff.mp hrun
    split at hc
    · rename_i hallowed
      obtain ⟨k₁, hk₁, h₁⟩ := Lockstep.exists_of_right (execCall_rel hk hw hallowed) hc
      exact ih h₁ (hw.execCall hallowed hc) (hP.2 k₁ hk₁) (hcall hk hw hP.1 hallowed hI hc) hrest
    · cases hc

theorem fire_meets_invariant
    (htimeout : ∀ {k} {a : SeqKernel τ σ υ} {t e}, KernelRel k a → KernelWf a →
      (a.env.thread t).Active → Q k t → I a.env → Abs.timeout a.env t = some e → I e)
    (hcall : ∀ {k a c a'}, KernelRel k a → KernelWf a → P k c → Abs.CallAllowed a c →
      I a.env → Abs.execCall a c = some a' → I a'.env)
    {k : RtKernel τ σ υ} {a a' : SeqKernel τ σ υ} (hk : KernelRel k a) (hw : KernelWf a)
    {x : τ ⊕ υ} {c : List (Call τ σ υ)} (hx : a.timers.queue.head? = some x)
    (hP : fireMeets P c x k) (hQ : ∀ t, x = threadTimer t → Q k t) (hI : I a.env)
    (hrun : Abs.timerFire Abs.callback c x a = some a') : I a'.env := by
  obtain ⟨hlive, f, a₁, hf, hcallback, hend⟩ := Abs.timerFire_spec hrun
  have hmem : x ∈ a.timers.queue := List.mem_of_mem_head? hx
  have hw₀ : KernelWf (a.unlinked x) := hw.eraseTimer x
  have h₁ : I a₁.env := by
    cases f with
    | rtThreadTimeout t =>
      obtain rfl : x = .inl t := hw.timers.callback_eq hmem hf
      obtain ⟨he, -⟩ := onSched_spec (show (a.unlinked (.inl t)).onSched
        (fun e => Abs.timeout e t) = some a₁ from hcallback)
      exact htimeout hk hw (hw.linked t hmem) (hQ t rfl) hI he
    | user =>
      obtain ⟨m, hm, hrel⟩ := Lockstep.exists_of_right (rtTimerRemove_rel hk.timers x)
        (Abs.timerRemove_of_live hlive)
      have hunlinked : KernelRel { k with timers := m } (a.unlinked x) := ⟨hrel, hk.env⟩
      rw [fireMeets, hk.timers.timer] at hP
      exact runCalls_meets_invariant hcall c hunlinked hw₀ (hP hf m hm) hI hcallback
  rcases hend with ⟨-, -, -, henv⟩ | ⟨-, rfl⟩
  · rw [henv]; exact h₁
  · exact h₁

theorem timerCheck_meets_invariant
    (htimeout : ∀ {k} {a : SeqKernel τ σ υ} {t e}, KernelRel k a → KernelWf a →
      (a.env.thread t).Active → Q k t → I a.env → Abs.timeout a.env t = some e → I e)
    (hcall : ∀ {k a c a'}, KernelRel k a → KernelWf a → P k c → Abs.CallAllowed a c →
      I a.env → Abs.execCall a c = some a' → I a'.env) (script : List (List (Call τ σ υ))) :
    ∀ {k : RtKernel τ σ υ} {a a' : SeqKernel τ σ υ}, KernelRel k a → KernelWf a →
      timerCheckMeets P script k → timerCheckTimeouts Q script k → I a.env →
      Abs.timerCheck Abs.callback script a = some a' → I a'.env := by
  induction script with
  | nil =>
    intro k a a' _ _ _ _ hI hrun
    rcases Abs.timerCheck_cases hrun with ⟨rfl, -⟩ | ⟨c, rest, x, a₁, hnil, -⟩
    · exact hI
    · cases hnil
  | cons c script ih =>
    intro k a a' hk hw hP hQ hI hrun
    rcases Abs.timerCheck_cases hrun with ⟨rfl, -⟩ | ⟨c', rest, x, a₁, hcons, hx, hdue, hf, hrest⟩
    · exact hI
    · cases hcons
      obtain ⟨k₁, hk₁, h₁⟩ := Lockstep.exists_of_right (kernelFire_rel hk hw c x) hf
      obtain ⟨hxk, hduek⟩ := hk.first_due hx hdue
      obtain ⟨hfire, hscript⟩ := hP x hxk hduek
      obtain ⟨htimes, hlater⟩ := hQ x hxk hduek
      exact ih h₁ (hw.fire hx hf) (hscript k₁ hk₁) (hlater k₁ hk₁)
        (fire_meets_invariant htimeout hcall hk hw hx hfire htimes hI hf) hrest

/-- **A tick whose callbacks meet `P` preserves** what the slice, the timeouts and the
calls that meet `P` preserve. -/
theorem tick_meets_invariant
    (hslice : ∀ {e e' : SchedSys τ σ (ThreadRings τ σ)}, SchedWf e → I e →
      Abs.tickSlice e = some e' → I e')
    (htimeout : ∀ {a : SeqKernel τ σ υ} {t e}, KernelWf a → (a.env.thread t).Active → I a.env →
      Abs.timeout a.env t = some e → I e)
    (hcall : ∀ {k a c a'}, KernelRel k a → KernelWf a → P k c → Abs.CallAllowed a c →
      I a.env → Abs.execCall a c = some a' → I a'.env)
    {k : RtKernel τ σ υ} {a a' : SeqKernel τ σ υ} (hk : KernelRel k a) (hw : KernelWf a)
    {script : List (List (Call τ σ υ))} (hP : tickMeets P script k) (hI : I a.env)
    (hrun : Abs.tick script a = some a') : I a'.env := by
  obtain ⟨a₁, hstart, hcheck⟩ := Option.bind_eq_some_iff.mp hrun
  obtain ⟨k₁, hk₁, h₁⟩ := Lockstep.exists_of_right (tickStart_rel hk hw.sched) hstart
  exact timerCheck_meets_invariant (Q := fun _ _ => True)
    (fun _ hw hact _ hI he => htimeout hw hact hI he) hcall script h₁ (hw.tickStart hstart)
    (hP k₁ hk₁) (timerCheckTimeouts_true script) (hslice hw.sched hI (onSched_spec hstart).1) hcheck

end Tick

/-! ## The timer of one thread -/

/-- A timer that fires is the first of those a check fires. -/
theorem timerCheckFires_cons {k k₁ : RtKernel τ σ υ} {x : τ ⊕ υ} {c : List (Call τ σ υ)}
    {script : List (List (Call τ σ υ))} (hx : k.queue.head? = some x)
    (hdue : (k.timers.timer x).due k.timers.rtTick)
    (hf : rtTimerFire kernelCallback c x k = some k₁) :
    timerCheckFires (c :: script) k = x :: timerCheckFires script k₁ := by
  rw [timerCheckFires, hx]
  simp only [hdue, if_true, hf, Option.elim_some]

theorem timerCheckTimeouts_of_not_fires {t : τ} (script : List (List (Call τ σ υ))) :
    ∀ {k : RtKernel τ σ υ}, threadTimer t ∉ timerCheckFires script k →
      timerCheckTimeouts (fun _ u => u ≠ t) script k := by
  induction script with
  | nil => intro k _; trivial
  | cons c script ih =>
    intro k hnot x hx hdue
    rw [timerCheckFires, hx] at hnot
    simp only [hdue, if_true, List.mem_cons, not_or] at hnot
    obtain ⟨hne, hrest⟩ := hnot
    refine ⟨?_, fun k' hk' => ih ?_⟩
    · rintro u rfl rfl
      exact hne rfl
    · rwa [show rtTimerFire kernelCallback c x k = some k' from hk', Option.elim_some] at hrest

section OneTimer
variable {P : RtKernel τ σ υ → Call τ σ υ → Prop} {I : SchedSys τ σ (ThreadRings τ σ) → Prop}
  {k : RtKernel τ σ υ} {a a' : SeqKernel τ σ υ} {t : τ} {script : List (List (Call τ σ υ))}

/-- **A tick that does not fire the timer of `t` preserves** what the slice, the timeouts of
other threads and the calls that meet `P` preserve. -/
theorem tick_unfired_invariant
    (hslice : ∀ {e e' : SchedSys τ σ (ThreadRings τ σ)}, SchedWf e → I e →
      Abs.tickSlice e = some e' → I e')
    (htimeout : ∀ {a : SeqKernel τ σ υ} {u e}, KernelWf a → (a.env.thread u).Active → u ≠ t →
      I a.env → Abs.timeout a.env u = some e → I e)
    (hcall : ∀ {k a c a'}, KernelRel k a → KernelWf a → P k c → Abs.CallAllowed a c →
      I a.env → Abs.execCall a c = some a' → I a'.env)
    (hk : KernelRel k a) (hw : KernelWf a) (hP : tickMeets P script k)
    (hnot : threadTimer t ∉ tickFires script k) (hI : I a.env)
    (hrun : Abs.tick script a = some a') : I a'.env := by
  obtain ⟨a₁, hstart, hcheck⟩ := Option.bind_eq_some_iff.mp hrun
  obtain ⟨k₁, hk₁, h₁⟩ := Lockstep.exists_of_right (tickStart_rel hk hw.sched) hstart
  rw [tickFires, hk₁, Option.elim_some] at hnot
  exact timerCheck_meets_invariant (Q := fun _ u => u ≠ t)
    (fun _ hw hact hut hI he => htimeout hw hact hut hI he) hcall script h₁ (hw.tickStart hstart)
    (hP k₁ hk₁) (timerCheckTimeouts_of_not_fires script hnot)
    (hslice hw.sched hI (onSched_spec hstart).1) hcheck

section
omit [Fintype υ]

/-- The firing of the timer of a thread times the thread out. -/
theorem fire_own (hw : KernelWf a)
    (hown : ∀ {e e' : SchedSys τ σ (ThreadRings τ σ)}, Abs.timeout e t = some e' → I e')
    {cs : List (Call τ σ υ)}
    (hrun : Abs.timerFire Abs.callback cs (threadTimer t) a = some a') : I a'.env := by
  obtain ⟨hlive, f, a₁, hf, hcall, hend⟩ := Abs.timerFire_spec hrun
  obtain rfl : f = .rtThreadTimeout t := Option.some.inj (hf.symm.trans (hw.timers.ok _ hlive).1)
  obtain ⟨htimeout, -⟩ := onSched_spec (show (a.unlinked (.inl t)).onSched
    (fun e => Abs.timeout e t) = some a₁ from hcall)
  rcases hend with ⟨-, -, -, henv⟩ | ⟨-, rfl⟩
  · rw [henv]
    exact hown htimeout
  · exact hown htimeout

end

theorem timerCheck_fired
    (hown : ∀ {e e' : SchedSys τ σ (ThreadRings τ σ)}, Abs.timeout e t = some e' → I e')
    (htimeout : ∀ {a : SeqKernel τ σ υ} {u e}, KernelWf a → (a.env.thread u).Active → I a.env →
      Abs.timeout a.env u = some e → I e)
    (hcall : ∀ {k a c a'}, KernelRel k a → KernelWf a → P k c → Abs.CallAllowed a c →
      I a.env → Abs.execCall a c = some a' → I a'.env) (script : List (List (Call τ σ υ))) :
    ∀ {k : RtKernel τ σ υ} {a a' : SeqKernel τ σ υ}, KernelRel k a → KernelWf a →
      timerCheckMeets P script k → threadTimer t ∈ timerCheckFires script k →
      Abs.timerCheck Abs.callback script a = some a' → I a'.env := by
  induction script with
  | nil => intro k a a' _ _ _ hfires _; cases hfires
  | cons c script ih =>
    intro k a a' hk hw hP hfires hrun
    rcases Abs.timerCheck_cases hrun with ⟨rfl, hq⟩ | ⟨c', rest, x, a₁, hcons, hx, hdue, hf, hrest⟩
    · rw [timerCheckFires, hk.queue, hk.timers.timer, hk.timers.rtTick] at hfires
      cases hhead : a'.timers.queue.head? with
      | none => simp [hhead] at hfires
      | some x => simp [hhead, hq x hhead] at hfires
    · cases hcons
      obtain ⟨k₁, hk₁, h₁⟩ := Lockstep.exists_of_right (kernelFire_rel hk hw c x) hf
      obtain ⟨hxk, hduek⟩ := hk.first_due hx hdue
      have hscript := (hP x hxk hduek).2 k₁ hk₁
      have hw₁ := hw.fire hx hf
      by_cases hxt : x = threadTimer t
      · subst hxt
        exact timerCheck_meets_invariant (Q := fun _ _ => True)
          (fun _ hw hact _ hI he => htimeout hw hact hI he) hcall script h₁ hw₁ hscript
          (timerCheckTimeouts_true script) (fire_own hw hown hf) hrest
      · rw [timerCheckFires_cons hxk hduek hk₁] at hfires
        exact ih h₁ hw₁ hscript ((List.mem_cons.mp hfires).resolve_left (Ne.symm hxt)) hrest

/-- **A tick that fires the timer of `t` ends with** what its timeout brings about and the other
timeouts and the calls that meet `P` preserve. -/
theorem tick_fired
    (hown : ∀ {e e' : SchedSys τ σ (ThreadRings τ σ)}, Abs.timeout e t = some e' → I e')
    (htimeout : ∀ {a : SeqKernel τ σ υ} {u e}, KernelWf a → (a.env.thread u).Active → I a.env →
      Abs.timeout a.env u = some e → I e)
    (hcall : ∀ {k a c a'}, KernelRel k a → KernelWf a → P k c → Abs.CallAllowed a c →
      I a.env → Abs.execCall a c = some a' → I a'.env)
    (hk : KernelRel k a) (hw : KernelWf a) (hP : tickMeets P script k)
    (hfires : threadTimer t ∈ tickFires script k) (hrun : Abs.tick script a = some a') :
    I a'.env := by
  obtain ⟨a₁, hstart, hcheck⟩ := Option.bind_eq_some_iff.mp hrun
  obtain ⟨k₁, hk₁, h₁⟩ := Lockstep.exists_of_right (tickStart_rel hk hw.sched) hstart
  rw [tickFires, hk₁, Option.elim_some] at hfires
  exact timerCheck_fired hown htimeout hcall script h₁ (hw.tickStart hstart) (hP k₁ hk₁) hfires
    hcheck

end OneTimer

end Guarded

end SampleRtos
