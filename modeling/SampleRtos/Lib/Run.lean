import Mathlib.Algebra.GroupWithZero.Nat
import Mathlib.Logic.Relation
import Mathlib.Data.Option.Basic

/-!
# Runs of a guarded, fallible step function

A run starts in a given state and performs operations one after the other, each
allowed in the state it is performed in and each returning. `Run.invariant`
packages the induction over a run.
-/

namespace Run

/-! The small types that runs on fixed inputs are about: with an instance of its own a literal of
`Fin 2` holds no further proof. -/

instance neZero_one : NeZero 1 := ⟨by decide⟩
instance neZero_two : NeZero 2 := ⟨by decide⟩
instance neZero_three : NeZero 3 := ⟨by decide⟩
instance neZero_four : NeZero 4 := ⟨by decide⟩

variable {S T O : Type}

/-- `s'` is reached from `s` by performing allowed operations. -/
def Reach (step : S → O → Option S) (ok : S → O → Prop) : S → S → Prop :=
  Relation.ReflTransGen fun s s' => ∃ o, ok s o ∧ step s o = some s'

variable {step : S → O → Option S} {ok : S → O → Prop} {s₀ s s' : S}

theorem Reach.start (s : S) : Reach step ok s s := .refl

theorem Reach.snoc {o : O} (h : Reach step ok s₀ s) (hok : ok s o) (hs : step s o = some s') :
    Reach step ok s₀ s' :=
  h.tail ⟨o, hok, hs⟩

/-- What holds at the start and is kept by every allowed operation holds throughout. -/
theorem invariant {I : S → Prop} (hstep : ∀ s o s', I s → ok s o → step s o = some s' → I s')
    (h₀ : I s₀) (h : Reach step ok s₀ s) : I s := by
  induction h with
  | refl => exact h₀
  | tail _ hs ih =>
    obtain ⟨o, hok, hs⟩ := hs
    exact hstep _ o _ ih hok hs

/-- A run under one discipline is a run under a weaker one. -/
theorem Reach.mono {ok' : S → O → Prop} (hok : ∀ s o, ok s o → ok' s o)
    (h : Reach step ok s₀ s) : Reach step ok' s₀ s :=
  Relation.ReflTransGen.mono (fun _ _ ⟨o, ho, hs⟩ => ⟨o, hok _ _ ho, hs⟩) _ _ h

/-- Performing a list of operations, each if it is allowed. -/
def exec (step : S → O → Option S) (ok : S → O → Prop) [∀ s o, Decidable (ok s o)] :
    List O → S → Option S
  | [], s => some s
  | o :: os, s => do
      let s ← (if ok s o then step s o else none)
      exec step ok os s

variable [∀ s o, Decidable (ok s o)]

theorem exec_reach {os : List O} : ∀ {s : S}, exec step ok os s = some s' →
    Reach step ok s s' := by
  induction os with
  | nil => intro s h; cases h; exact .refl
  | cons o os ih =>
    intro s h
    obtain ⟨s₁, hs₁, hrest⟩ := Option.bind_eq_some_iff.mp h
    split at hs₁
    · rename_i hok
      exact .head ⟨o, hok, hs₁⟩ (ih hrest)
    · cases hs₁

/-- **What does not last.** If every operation gets from `P` to `Q`, or stays in `P` and lowers the
rank `r` by the operation's `n`, then a run whose `n` come to more than the rank it begins with has
got to `Q` on its way. -/
theorem leaves_within {P Q : S → Prop} {r : S → Nat} {n : O → Nat}
    (hstep : ∀ s o s', P s → ok s o → step s o = some s' →
      Q s' ∨ P s' ∧ r s' + n o ≤ r s) (os : List O) :
    ∀ {s s' : S}, P s → exec step ok os s = some s' → r s < (os.map n).sum →
      ∃ os₁ s₁, os₁ <+: os ∧ exec step ok os₁ s = some s₁ ∧ Q s₁ := by
  induction os with
  | nil => intro s s' _ _ hlt; simp at hlt
  | cons o os ih =>
    intro s s' hP h hlt
    obtain ⟨s₁, hs₁, hrest⟩ := Option.bind_eq_some_iff.mp h
    have hone : ∀ {os₁ s₂}, exec step ok os₁ s₁ = some s₂ →
        exec step ok (o :: os₁) s = some s₂ := fun h₂ => by rw [exec, hs₁]; exact h₂
    split at hs₁
    · rename_i hok
      rcases hstep s o s₁ hP hok hs₁ with hQ | ⟨hP₁, hrank⟩
      · exact ⟨[o], s₁, List.prefix_iff_eq_take.mpr rfl, hone rfl, hQ⟩
      · rw [List.map_cons, List.sum_cons] at hlt
        obtain ⟨os₁, s₂, hpre, h₂, hQ⟩ := ih hP₁ hrest (by omega)
        exact ⟨o :: os₁, s₂, List.cons_prefix_cons.mpr ⟨rfl, hpre⟩, hone h₂, hQ⟩
    · cases hs₁

/-- A list of operations that ends where a test succeeds reaches such a state. -/
theorem reach_of_exec (step : S → O → Option S) (ok : S → O → Prop) [∀ s o, Decidable (ok s o)]
    (os : List O) (s₀ : S) (p : S → Bool) (h : (exec step ok os s₀).map p = some true) :
    ∃ s, exec step ok os s₀ = some s ∧ Reach step ok s₀ s ∧ p s = true := by
  obtain ⟨s, hs, hp⟩ := Option.map_eq_some_iff.mp h
  exact ⟨s, hs, exec_reach hs, hp⟩

end Run
