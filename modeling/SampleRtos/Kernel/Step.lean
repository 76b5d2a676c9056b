import SampleRtos.Kernel.Blocking

/-!
# What every operation does to threads and semaphores

One inversion lemma for all calls (`execCall_effect`) and one rule for ticks
(`tick_invariant`): a property of the scheduling part that survives waking
survives a tick if the callbacks respect it.
-/

namespace SampleRtos

open Intrusive

section Step
variable {τ σ υ : Type} [DecidableEq τ] [DecidableEq σ] [DecidableEq υ]
  {a a' : SeqKernel τ σ υ}

/-- What a call that returns leaves behind in the scheduling part. Most calls wake
threads at most; the others are listed with the condition they act under. -/
inductive CallEffect (a : SeqKernel τ σ υ) :
    Call τ σ υ → SchedSys τ σ (ThreadRings τ σ) → Prop where
  | waking {c : Call τ σ υ} {e : SchedSys τ σ (ThreadRings τ σ)} (h : Waking a.env e) :
      CallEffect a c e
  | init (t : τ) (priority : Nat) (tick : BitVec 32)
      (h : (a.env.thread t).stat = .init ∨ (a.env.thread t).stat = .close) :
      CallEffect a (.threadInit t priority tick) (Abs.threadInit a t priority tick).env
  | suspend (t : τ) (h : (a.env.thread t).stat = .ready) :
      CallEffect a (.threadSuspend t) (a.env.unlist t (a.env.thread t).suspended)
  | discard (t : τ) (h : (a.env.thread t).stat = .init) :
      CallEffect a (.threadDetach t) (a.env.setThread t (a.env.thread t).closed)
  | detach (t : τ) (h : (a.env.thread t).stat ≠ .init) :
      CallEffect a (.threadDetach t) (a.env.unlist t (a.env.thread t).closed)
  | semInit (s : σ) (value : BitVec 32) (flag : BitVec 8) (h : a.env.waiters s = []) :
      CallEffect a (.semInit s value flag) (Abs.semInit a.env s value flag)
  | taken (s : σ) (h : 0 < (a.env.sem s).value) :
      CallEffect a (.semTrytake s)
        (a.env.setSem s { a.env.sem s with value := (a.env.sem s).value - 1 })

theorem execCall_effect [Fintype τ] (hw : KernelWf a) {c : Call τ σ υ}
    (hc : Abs.CallAllowed a c) (hrun : Abs.execCall a c = some a') : CallEffect a c a'.env := by
  unfold Abs.execCall at hrun
  cases c with
  | threadInit t priority tick => cases hrun; exact .init t priority tick hc.1
  | threadStartup t => exact .waking (Waking.startup hw.sched (onSched_spec hrun).1)
  | threadResume t =>
    obtain ⟨_, hr⟩ := returned_of_map (onSched_spec hrun).1
    exact .waking (Waking.resume hw.sched hr)
  | threadSuspend t =>
    obtain ⟨_, hr⟩ := returned_of_map hrun
    rcases threadSuspend_spec hw.sched hr with ⟨-, -, rfl⟩ | ⟨hst, -, henv, -⟩
    · exact .waking (.refl hw.sched)
    · rw [henv]; exact .suspend t hst
  | threadYield => exact .waking (Waking.yield hw.sched (onSched_spec hrun).1)
  | threadDetach t =>
    obtain ⟨-, -, ⟨hst, henv⟩ | ⟨hst, henv⟩⟩ := threadDetach_spec hw.sched hrun <;> rw [henv]
    · exact .discard t hst
    · exact .detach t hst
  | semInit s value flag => cases hrun; exact .semInit s value flag hc
  | semTrytake s =>
    obtain ⟨_, hr⟩ := returned_of_map hrun
    rcases semTake_spec hr with ⟨hpos, -, rfl⟩ | ⟨-, -, -, rfl⟩ | ⟨hb, -⟩
    · exact .taken s hpos
    · exact .waking (.refl hw.sched)
    · exact absurd rfl hb.2
  | semRelease s => exact .waking (Waking.semRelease hw.sched (onSched_spec hrun).1)
  | semControl s cmd arg =>
    obtain ⟨_, hr⟩ := returned_of_map (onSched_spec hrun).1
    exact .waking (Waking.semControl hw.sched hr)
  | semDetach s => exact .waking (Waking.semDetach hw.sched (onSched_spec hrun).1)
  | enterCritical => cases hrun; exact .waking (Waking.enterCritical hw.sched)
  | exitCritical => exact .waking (Waking.exitCritical hw.sched (onSched_spec hrun).1)
  | schedule => exact .waking (Waking.schedule hw.sched (onSched_spec hrun).1)
  | timerInit u time flag => cases hrun; exact .waking (.refl hw.sched)
  | timerStart u => rw [(onTimers_spec hrun).2]; exact .waking (.refl hw.sched)
  | timerStop u => rw [(onTimers_spec hrun).2]; exact .waking (.refl hw.sched)
  | timerControl u cmd => cases hrun; exact .waking (.refl hw.sched)
  | timerDetach u => rw [(onTimers_spec hrun).2]; exact .waking (.refl hw.sched)

/-- No call makes a thread wait. -/
theorem CallEffect.waiters {c : Call τ σ υ} {e : SchedSys τ σ (ThreadRings τ σ)}
    (h : CallEffect a c e) (s : σ) : (e.waiters s).Sublist (a.env.waiters s) := by
  cases h with
  | waking hwake => exact hwake.waiters s
  | init t priority tick => rw [threadInit_waiters]
  | suspend t => exact List.erase_sublist
  | discard t => exact .refl _
  | detach t => exact List.erase_sublist
  | semInit q value flag => exact .refl _
  | taken q => exact .refl _

/-- A started thread stays started under every call that does not detach it. -/
theorem CallEffect.active {c : Call τ σ υ} {e : SchedSys τ σ (ThreadRings τ σ)}
    (h : CallEffect a c e) {u : τ} (hu : (a.env.thread u).Active) (hc : c ≠ .threadDetach u) :
    (e.thread u).Active := by
  have hother : ∀ {t : τ} {r : RtThread}, u ≠ t →
      (Function.update a.env.thread t r u).Active := fun hut => by simpa [hut] using hu
  cases h with
  | waking hwake => exact hwake.active u hu
  | init t priority tick hst =>
    refine hother ?_
    rintro rfl
    rcases hu with hu | hu <;> rcases hst with hst | hst <;> simp [hu] at hst
  | suspend t =>
    by_cases hut : u = t
    · subst hut; exact .inr (by simp [RtThread.suspended])
    · exact hother hut
  | discard t => exact hother fun hut => hc (by rw [hut])
  | detach t => exact hother fun hut => hc (by rw [hut])
  | semInit q value flag => exact hu
  | taken q => exact hu

/-! ## Ticks -/

section Tick
variable [Fintype τ] {I : SchedSys τ σ (ThreadRings τ σ) → Prop} {C : Call τ σ υ → Prop}

/-- `I` survives the calls of a callback, each of which is one of `C`. -/
theorem runCalls_invariant
    (hcall : ∀ (a : SeqKernel τ σ υ) c e, C c → SchedWf a.env → I a.env → CallEffect a c e → I e)
    (cs : List (Call τ σ υ)) :
    ∀ {a a' : SeqKernel τ σ υ}, (∀ c ∈ cs, C c) → KernelWf a → I a.env →
      Abs.runCalls cs a = some a' → I a'.env := by
  induction cs with
  | nil => intro a a' _ _ h hrun; cases hrun; exact h
  | cons c cs ih =>
    intro a a' hC hw h hrun
    obtain ⟨a₁, hc, hrest⟩ := Option.bind_eq_some_iff.mp hrun
    split at hc
    · rename_i hallowed
      exact ih (fun c hc => hC c (by simp [hc])) (hw.execCall hallowed hc)
        (hcall a c _ (hC c (by simp)) hw.sched h (execCall_effect hw hallowed hc)) hrest
    · cases hc

theorem fire_invariant
    (hwake : ∀ (e e' : SchedSys τ σ (ThreadRings τ σ)), SchedWf e → I e → Waking e e' → I e')
    (hcall : ∀ (a : SeqKernel τ σ υ) c e, C c → SchedWf a.env → I a.env → CallEffect a c e → I e)
    (hw : KernelWf a) (h : I a.env) {x : τ ⊕ υ} {cs : List (Call τ σ υ)}
    (hx : a.timers.queue.head? = some x) (hC : ∀ c ∈ cs, C c)
    (hrun : Abs.timerFire Abs.callback cs x a = some a') : I a'.env := by
  obtain ⟨-, f, a₁, hf, hcall', hend⟩ := Abs.timerFire_spec hrun
  have hmem : x ∈ a.timers.queue := List.mem_of_mem_head? hx
  have hw₀ : KernelWf (a.unlinked x) := hw.eraseTimer x
  have h₁ : I a₁.env := by
    cases f with
    | rtThreadTimeout t =>
      obtain rfl : x = .inl t := hw.timers.callback_eq hmem hf
      obtain ⟨he, -⟩ := onSched_spec (show (a.unlinked (.inl t)).onSched
        (fun e => Abs.timeout e t) = some a₁ from hcall')
      exact hwake _ _ hw₀.sched h (Waking.timeout hw₀.sched (hw.linked t hmem) he)
    | user => exact runCalls_invariant hcall cs hC hw₀ h hcall'
  rcases hend with ⟨-, -, -, henv⟩ | ⟨-, rfl⟩
  · rw [henv]; exact h₁
  · exact h₁

/-- **What waking and the callbacks' calls preserve, a tick preserves.** -/
theorem tick_invariant
    (hwake : ∀ (e e' : SchedSys τ σ (ThreadRings τ σ)), SchedWf e → I e → Waking e e' → I e')
    (hcall : ∀ (a : SeqKernel τ σ υ) c e, C c → SchedWf a.env → I a.env → CallEffect a c e → I e)
    (hw : KernelWf a) (h : I a.env) {script : List (List (Call τ σ υ))}
    (hC : ∀ cs ∈ script, ∀ c ∈ cs, C c) (hrun : Abs.tick script a = some a') : I a'.env := by
  obtain ⟨a₁, hstart, hcheck⟩ := Option.bind_eq_some_iff.mp hrun
  have h₁ : I a₁.env :=
    hwake _ _ hw.sched h (Waking.tickSlice hw.sched (onSched_spec hstart).1)
  exact (Abs.timerCheck_invariant (fun a => KernelWf a ∧ I a.env) script
    (fun b x c b' hc hI hx _ hf => ⟨hI.1.fire hx hf,
      fire_invariant hwake hcall hI.1 hI.2 hx (hC c hc) hf⟩)
    ⟨hw.tickStart hstart, h₁⟩ hcheck).1.2

/-! What relates the states before and after the parts of a tick relates those before and after
it. -/

section Steps
variable {R : SchedSys τ σ (ThreadRings τ σ) → SchedSys τ σ (ThreadRings τ σ) → Prop}
  (hrefl : ∀ e, R e e) (htrans : ∀ {e e' e''}, R e e' → R e' e'' → R e e'')
  (hcall : ∀ {a a' : SeqKernel τ σ υ} {c}, C c → KernelWf a → Abs.CallAllowed a c →
    Abs.execCall a c = some a' → R a.env a'.env)

include hrefl htrans hcall

theorem runCalls_steps (cs : List (Call τ σ υ)) : ∀ {a a' : SeqKernel τ σ υ}, (∀ c ∈ cs, C c) →
    KernelWf a → Abs.runCalls cs a = some a' → R a.env a'.env := by
  induction cs with
  | nil => intro a a' _ _ hrun; cases hrun; exact hrefl _
  | cons c cs ih =>
    intro a a' hC hw hrun
    obtain ⟨a₁, hc, hrest⟩ := Option.bind_eq_some_iff.mp hrun
    split at hc
    · rename_i hallowed
      exact htrans (hcall (hC c (by simp)) hw hallowed hc)
        (ih (fun c hc => hC c (by simp [hc])) (hw.execCall hallowed hc) hrest)
    · cases hc

variable
  (htimeout : ∀ {e e' t}, SchedWf e → (e.thread t).Active → Abs.timeout e t = some e' → R e e')

include htimeout

theorem fire_steps (hw : KernelWf a) {x : τ ⊕ υ} {cs : List (Call τ σ υ)}
    (hx : a.timers.queue.head? = some x) (hC : ∀ c ∈ cs, C c)
    (hrun : Abs.timerFire Abs.callback cs x a = some a') : R a.env a'.env := by
  obtain ⟨-, f, a₁, hf, hcall', hend⟩ := Abs.timerFire_spec hrun
  have hmem : x ∈ a.timers.queue := List.mem_of_mem_head? hx
  have hw₀ : KernelWf (a.unlinked x) := hw.eraseTimer x
  have h₁ : R a.env a₁.env := by
    cases f with
    | rtThreadTimeout t =>
      obtain rfl : x = .inl t := hw.timers.callback_eq hmem hf
      obtain ⟨he, -⟩ := onSched_spec (show (a.unlinked (.inl t)).onSched
        (fun e => Abs.timeout e t) = some a₁ from hcall')
      exact htimeout hw₀.sched (hw.linked t hmem) he
    | user =>
      have hcalls : R (a.unlinked x).env a₁.env :=
        runCalls_steps hrefl htrans hcall cs hC hw₀ hcall'
      exact hcalls
  rcases hend with ⟨-, -, -, henv⟩ | ⟨-, rfl⟩
  · rw [henv]; exact h₁
  · exact h₁

/-- **A tick is a slice, timeouts and calls.** -/
theorem tick_steps (hslice : ∀ {e e'}, SchedWf e → Abs.tickSlice e = some e' → R e e')
    (hw : KernelWf a) {script : List (List (Call τ σ υ))} (hC : ∀ cs ∈ script, ∀ c ∈ cs, C c)
    (hrun : Abs.tick script a = some a') : R a.env a'.env := by
  obtain ⟨a₁, hstart, hcheck⟩ := Option.bind_eq_some_iff.mp hrun
  have h₁ : R a.env a₁.env := hslice hw.sched (onSched_spec hstart).1
  exact (Abs.timerCheck_invariant (fun b => KernelWf b ∧ R a.env b.env) script
    (fun b x cs b' hc hI hx _ hf => ⟨hI.1.fire hx hf,
      htrans hI.2 (fire_steps hrefl htrans hcall htimeout hI.1 hx (hC cs hc) hf)⟩)
    ⟨hw.tickStart hstart, h₁⟩ hcheck).1.2

end Steps

/-- A node that has been initialised stays so. -/
theorem tick_live {n : ThreadNode τ σ} {script : List (List (Call τ σ υ))} (hw : KernelWf a)
    (hlive : a.env.list.live n = true) (hrun : Abs.tick script a = some a') :
    a'.env.list.live n = true := by
  refine tick_invariant (I := fun e => e.list.live n = true) (C := fun _ => True)
    (fun e e' _ h hwake => by rw [hwake.live]; exact h) (fun a c e _ _ h heff => ?_) hw hlive
    (fun _ _ _ _ => trivial) hrun
  cases heff with
  | waking hwake => rw [hwake.live]; exact h
  | init u priority tick hst => exact Rings.mark_live_mono h
  | semInit s value flag hempty => exact Rings.mark_live_mono h
  | _ => exact h

end Tick

end Step

end SampleRtos
