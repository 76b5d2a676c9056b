import SampleRtos.Kernel.Refine
import SampleRtos.Kernel.Step

/-!
# Runs with a history

An observer watches a run of the linked kernel and keeps a history of it: which
events there are and what each performs, what is written down about an event in
the state it happens in, and what events a run may contain. The history is no
part of the kernel and no operation reads it.
-/

namespace SampleRtos

open Intrusive

section Observe
variable {τ σ υ ε G : Type} [DecidableEq τ] [DecidableEq σ] [DecidableEq υ]

/-! ## Reading the lists -/

/-- The threads in `rt_thread_priority_table[p]`, read along the links. -/
def RtKernel.readyList [Fintype τ] (k : RtKernel τ σ υ) (p : Nat) : List τ :=
  k.env.list.read (Fintype.card τ) (.head (.ready p))

/-- The threads in the `suspend_thread` list of `s`. -/
def RtKernel.waiters [Fintype τ] (k : RtKernel τ σ υ) (s : σ) : List τ :=
  k.env.list.read (Fintype.card τ) (.head (.suspend s))

/-- The timers in `rt_timer_list[0]`. -/
def RtKernel.queue [Fintype τ] [Fintype υ] (k : RtKernel τ σ υ) : List (τ ⊕ υ) :=
  k.timers.timerList.read (Fintype.card (τ ⊕ υ)) timerHead

/-- The timer of `t` is in `rt_timer_list[0]`. -/
def RtKernel.Armed [Fintype τ] [Fintype υ] (k : RtKernel τ σ υ) (t : τ) : Prop :=
  threadTimer t ∈ k.queue

instance [Fintype τ] [Fintype υ] (k : RtKernel τ σ υ) (t : τ) : Decidable (k.Armed t) :=
  decidable_of_iff (k.queue.any fun x => decide (x = threadTimer t)) (by simp [RtKernel.Armed])

variable {k : RtKernel τ σ υ} {a : SeqKernel τ σ υ}

theorem KernelRel.readyList [Fintype τ] (h : KernelRel k a) (p : Nat) :
    RtKernel.readyList k p = a.env.readyList p :=
  h.env.rep.read_eq _ (List.Nodup.length_le_card (h.env.rep.valid.nodup _))

theorem KernelRel.waiters [Fintype τ] (h : KernelRel k a) (s : σ) :
    RtKernel.waiters k s = a.env.waiters s :=
  h.env.rep.read_eq _ (List.Nodup.length_le_card (h.env.rep.valid.nodup _))

theorem KernelRel.queue [Fintype τ] [Fintype υ] (h : KernelRel k a) :
    RtKernel.queue k = a.timers.queue :=
  h.timers.rep.read_eq _ (List.Nodup.length_le_card (h.timers.rep.valid.nodup _))

/-- The first timer, and that it is due, read off the links. -/
theorem KernelRel.first_due [Fintype τ] [Fintype υ] (h : KernelRel k a) {x : τ ⊕ υ}
    (hx : a.timers.queue.head? = some x) (hdue : (a.timers.timer x).due a.timers.rtTick) :
    x ∈ (RtKernel.queue k).head? ∧ (k.timers.timer x).due k.timers.rtTick := by
  rw [h.queue, h.timers.timer, h.timers.rtTick]
  exact ⟨hx, hdue⟩

theorem KernelRel.armed [Fintype τ] [Fintype υ] (h : KernelRel k a) (t : τ) :
    k.Armed t ↔ .inl t ∈ a.timers.queue := by
  rw [RtKernel.Armed, h.queue]

/-! ## Observers -/

/-- What an event of type `ε` performs and notes, with a history of type `G`. -/
structure Observer (τ σ υ ε G : Type) where
  perform : ε → Option (Op τ σ υ)
  note : RtKernel τ σ υ → G → ε → G
  ok : RtKernel τ σ υ → G → ε → Prop

namespace Observer
variable (o : Observer τ σ υ ε G)

/-- One event: the operation, if the event has one, and the note. -/
def exec [Fintype τ] [Fintype υ] (x : RtKernel τ σ υ × G) (e : ε) :
    Option (RtKernel τ σ υ × G) := do
  let k ← (match o.perform e with
    | none => some x.1
    | some op => op.exec x.1)
  return (k, o.note x.1 x.2 e)

def Allowed (x : RtKernel τ σ υ × G) (e : ε) : Prop :=
  (∀ op ∈ o.perform e, op.Allowed x.1) ∧ o.ok x.1 x.2 e

instance [∀ k g e, Decidable (o.ok k g e)] (x : RtKernel τ σ υ × G) (e : ε) :
    Decidable (o.Allowed x e) :=
  inferInstanceAs (Decidable (_ ∧ _))

/-- The state and the history after a run that began with initialisation and the
history `g₀`. -/
def Reachable [Fintype τ] [Fintype υ] (idle : τ) (g₀ : G) (k : RtKernel τ σ υ) (g : G) : Prop :=
  ∃ k₀ ∈ boot idle, Run.Reach o.exec o.Allowed (k₀, g₀) (k, g)

/-- Initialisation followed by a list of events. -/
def runFrom [Fintype τ] [Fintype υ] [∀ k g e, Decidable (o.ok k g e)] (idle : τ) (g₀ : G)
    (es : List ε) : Option (RtKernel τ σ υ × G) := do
  let k ← boot idle
  Run.exec o.exec o.Allowed es (k, g₀)

theorem reachable_of_runFrom [Fintype τ] [Fintype υ] [∀ k g e, Decidable (o.ok k g e)] (idle : τ)
    (g₀ : G) (es : List ε) (p : RtKernel τ σ υ × G → Bool)
    (h : (o.runFrom idle g₀ es).map p = some true) :
    ∃ k g, o.runFrom idle g₀ es = some (k, g) ∧ o.Reachable idle g₀ k g ∧ p (k, g) = true := by
  obtain ⟨⟨k, g⟩, hk, hp⟩ := Option.map_eq_some_iff.mp h
  obtain ⟨k₀, hboot, hrun⟩ := Option.bind_eq_some_iff.mp hk
  exact ⟨k, g, hk, ⟨k₀, hboot, Run.exec_reach hrun⟩, hp⟩

/-- One allowed event keeps the two levels of the kernel together. -/
theorem event_rel [Fintype τ] [Fintype υ] {x : RtKernel τ σ υ × G} {y : RtKernel τ σ υ × G}
    {e : ε} (h : KernelRel x.1 a) (hw : KernelWf a) (hok : o.Allowed x e)
    (hs : o.exec x e = some y) :
    y.2 = o.note x.1 x.2 e ∧
      (o.perform e = none ∧ y.1 = x.1 ∨
        ∃ op a', o.perform e = some op ∧ Abs.Allowed a op ∧ op.exec x.1 = some y.1 ∧
          Abs.exec a op = some a' ∧ KernelRel y.1 a' ∧ KernelWf a') := by
  obtain ⟨k, hk, hret⟩ := Option.bind_eq_some_iff.mp hs
  cases hret
  refine ⟨rfl, ?_⟩
  split at hk
  · rename_i hnone
    exact .inl ⟨hnone, (Option.some.inj hk).symm⟩
  · rename_i op hop
    have hallowed := (allowed_iff h hw.sched op).mp (hok.1 op hop)
    obtain ⟨a', ha', h'⟩ := Lockstep.exists_of_left (SampleRtos.exec_rel h hw hallowed) hk
    exact .inr ⟨op, a', hop, hallowed, hk, ha', h', hw.exec hallowed ha'⟩

/-- What every event keeps, on sequences that satisfy the kernel invariant, holds
throughout a run from a state it holds in. -/
theorem invariant_from [Fintype τ] [Fintype υ] {o : Observer τ σ υ ε G} {k₀ : RtKernel τ σ υ}
    {a₀ : SeqKernel τ σ υ} {g₀ g : G} {I : SeqKernel τ σ υ → G → Prop}
    (hnone : ∀ k a g e, KernelRel k a → KernelWf a → I a g → o.ok k g e →
      o.perform e = none → I a (o.note k g e))
    (hstep : ∀ k a g e op a', KernelRel k a → KernelWf a → I a g → o.ok k g e →
      o.perform e = some op → Abs.Allowed a op → Abs.exec a op = some a' →
      I a' (o.note k g e))
    (h₀ : KernelRel k₀ a₀) (hw₀ : KernelWf a₀) (hI₀ : I a₀ g₀)
    (hrun : Run.Reach o.exec o.Allowed (k₀, g₀) (k, g)) :
    ∃ a, KernelRel k a ∧ KernelWf a ∧ I a g := by
  refine Run.invariant (I := fun x => ∃ a, KernelRel x.1 a ∧ KernelWf a ∧ I a x.2)
    (fun x e y hI hok hs => ?_) ⟨a₀, h₀, hw₀, hI₀⟩ hrun
  obtain ⟨a, h, hw, hI⟩ := hI
  obtain ⟨hnote, ⟨hperf, hy⟩ | ⟨op, a', hperf, hop, -, ha', h', hw'⟩⟩ := o.event_rel h hw hok hs
  · rw [hnote, hy]
    exact ⟨a, h, hw, hnone _ a _ e h hw hI hok.2 hperf⟩
  · rw [hnote]
    exact ⟨a', h', hw', hstep _ a _ e op a' h hw hI hok.2 hperf hop ha'⟩

/-- What holds after initialisation besides and is kept by every event holds
throughout a run. -/
theorem Reachable.invariant [Fintype τ] [Fintype υ] {o : Observer τ σ υ ε G} {idle : τ} {g₀ g : G}
    {I : SeqKernel τ σ υ → G → Prop}
    (hboot : ∀ a, Abs.boot idle = some a → KernelWf a → I a g₀)
    (hnone : ∀ k a g e, KernelRel k a → KernelWf a → I a g → o.ok k g e →
      o.perform e = none → I a (o.note k g e))
    (hstep : ∀ k a g e op a', KernelRel k a → KernelWf a → I a g → o.ok k g e →
      o.perform e = some op → Abs.Allowed a op → Abs.exec a op = some a' →
      I a' (o.note k g e))
    (hk : o.Reachable idle g₀ k g) : ∃ a, KernelRel k a ∧ KernelWf a ∧ I a g := by
  obtain ⟨k₀, hboot₀, hrun⟩ := hk
  obtain ⟨a₀, ha₀, h₀⟩ := Lockstep.exists_of_left (boot_rel idle) hboot₀
  exact invariant_from hnone hstep h₀ (boot_wf ha₀) (hboot a₀ ha₀ (boot_wf ha₀)) hrun

end Observer

end Observe

end SampleRtos
