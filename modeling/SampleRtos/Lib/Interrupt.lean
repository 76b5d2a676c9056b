import SampleRtos.Lib.Run

/-!
# Code and an interrupt handler

A piece of code goes from one interruptible point to the next; whenever it is at such a
point the handler may run to completion, any number of times. What is uninterruptible in
the code is one step of it.
-/

namespace Interrupt
variable {P S H : Type}

/-- What happens next: the code goes on to its next point, or the handler runs. -/
inductive Move (H : Type) where
  | code
  | handler (h : H)

def Move.isCode : Move H → Bool
  | .code => true
  | .handler _ => false

/-- A point of the code and a state of the system. -/
def exec (code : P × S → Option (P × S)) (handler : S → H → Option S) (x : P × S) :
    Move H → Option (P × S)
  | .code => code x
  | .handler h => (handler x.2 h).map (x.1, ·)

def run (code : P × S → Option (P × S)) (handler : S → H → Option S) :
    List (Move H) → P × S → Option (P × S)
  | [], x => some x
  | m :: ms, x => do
      let x ← exec code handler x m
      run code handler ms x

variable {code : P × S → Option (P × S)} {handler : S → H → Option S} {x x' : P × S}

theorem exec_handler {h : H} (hrun : exec code handler x (.handler h) = some x') :
    x'.1 = x.1 ∧ handler x.2 h = some x'.2 := by
  obtain ⟨s, hs, rfl⟩ := Option.map_eq_some_iff.mp hrun
  exact ⟨rfl, hs⟩

theorem run_replicate_succ {y : P × S} (n : Nat) (hx : code x = some y) :
    run code handler (List.replicate (n + 1) .code) x =
      run code handler (List.replicate n .code) y := by
  rw [List.replicate_succ, run, exec, hx]
  rfl

/-- What every move of a kind preserves, a run of such moves preserves. -/
theorem run_invariant {I : P × S → Prop} {C : Move H → Prop}
    (hstep : ∀ x m x', I x → C m → exec code handler x m = some x' → I x')
    (ms : List (Move H)) : ∀ {x : P × S}, I x → (∀ m ∈ ms, C m) →
      run code handler ms x = some x' → I x' := by
  induction ms with
  | nil =>
    intro x hI _ hrun
    cases hrun
    exact hI
  | cons m ms ih =>
    intro x hI hC hrun
    obtain ⟨x₁, hx₁, hrest⟩ := Option.bind_eq_some_iff.mp hrun
    obtain ⟨hm, hms⟩ := List.forall_mem_cons.mp hC
    exact ih (hstep x m x₁ hI hm hx₁) hms hrest

/-- Code each of whose steps lowers a measure that the handler does not raise makes no
more steps than the measure says. -/
theorem run_measure {I : P × S → Prop} {μ : P × S → Nat}
    (hstep : ∀ x m x', I x → exec code handler x m = some x' → I x')
    (hcode : ∀ x x', I x → code x = some x' → μ x' + 1 ≤ μ x)
    (hhandler : ∀ x h x', I x → exec code handler x (.handler h) = some x' → μ x' ≤ μ x)
    (ms : List (Move H)) : ∀ {x : P × S}, I x → run code handler ms x = some x' →
      ms.countP Move.isCode + μ x' ≤ μ x := by
  induction ms with
  | nil =>
    intro x _ hrun
    cases hrun
    simp
  | cons m ms ih =>
    intro x hI hrun
    obtain ⟨x₁, hx₁, hrest⟩ := Option.bind_eq_some_iff.mp hrun
    have hlater := ih (hstep x m x₁ hI hx₁) hrest
    cases m with
    | code =>
      have hdown := hcode x x₁ hI hx₁
      simp only [List.countP_cons, Move.isCode, if_true]
      omega
    | handler h =>
      have hdown := hhandler x h x₁ hI hx₁
      simpa [Move.isCode] using Nat.le_trans hlater hdown

end Interrupt
