import Mathlib.Data.Option.Basic

/-!
# Lockstep correspondence

Two fallible computations correspond when they fail together or return related
values. `Option.Rel` is that relation; these are the rules that carry it
through a sequence of steps.
-/

namespace Lockstep
variable {α β γ δ : Type} {R : α → β → Prop} {S : γ → δ → Prop}

theorem refl (x : Option α) : Option.Rel (· = ·) x x := by
  cases x with
  | none => exact .none
  | some a => exact .some rfl

/-- Sequencing. The continuation may use that both first halves returned. -/
theorem bind {x : Option α} {y : Option β} {f : α → Option γ} {g : β → Option δ}
    (h : Option.Rel R x y)
    (hfg : ∀ a b, x = some a → y = some b → R a b → Option.Rel S (f a) (g b)) :
    Option.Rel S (x >>= f) (y >>= g) := by
  cases h with
  | none => exact .none
  | some hab => exact hfg _ _ rfl rfl hab

theorem ite {c c' : Prop} [Decidable c] [Decidable c'] {x x' : Option α} {y y' : Option β}
    (hc : c ↔ c') (ht : c' → Option.Rel R x y) (he : ¬ c' → Option.Rel R x' y') :
    Option.Rel R (if c then x else x') (if c' then y else y') := by
  by_cases h : c'
  · simpa [h, hc.mpr h] using ht h
  · simpa [h, mt hc.mp h] using he h

/-- What a computation returns, its partner returns too. -/
theorem exists_of_left {x : Option α} {y : Option β} (h : Option.Rel R x y) {a : α}
    (hx : x = some a) : ∃ b, y = some b ∧ R a b := by
  subst hx
  cases h with
  | some hab => exact ⟨_, rfl, hab⟩

theorem exists_of_right {x : Option α} {y : Option β} (h : Option.Rel R x y) {b : β}
    (hy : y = some b) : ∃ a, x = some a ∧ R a b := by
  subst hy
  cases h with
  | some hab => exact ⟨_, rfl, hab⟩

theorem mono {R' : α → β → Prop} {x : Option α} {y : Option β} (h : Option.Rel R x y)
    (hR : ∀ a b, x = some a → y = some b → R a b → R' a b) : Option.Rel R' x y := by
  cases h with
  | none => exact .none
  | some hab => exact .some (hR _ _ rfl rfl hab)

/-- Folding the same list on both sides, as long as an invariant of the right side
under which single steps correspond survives each of them. -/
theorem foldlM {ε : Type} (I : β → Prop) {f : α → ε → Option α} {g : β → ε → Option β}
    (hfg : ∀ a b e, I b → R a b → Option.Rel R (f a e) (g b e))
    (hI : ∀ b e b', I b → g b e = some b' → I b') (es : List ε) :
    ∀ {a : α} {b : β}, I b → R a b → Option.Rel R (es.foldlM f a) (es.foldlM g b) := by
  induction es with
  | nil => exact fun _ h => .some h
  | cons e es ih =>
    intro a b hb h
    rw [List.foldlM_cons, List.foldlM_cons]
    exact bind (hfg a b e hb h) fun a' b' _ hb' h' => ih (hI b e b' hb hb') h'

/-- Dropping a first component on both sides. -/
theorem map_snd {P : α × β → α × δ → Prop} {T : β → δ → Prop} {x : Option (α × β)}
    {y : Option (α × δ)} (h : Option.Rel P x y) (hP : ∀ p q, P p q → T p.2 q.2 := by
      exact fun _ _ h => h.2) : Option.Rel T (x.map Prod.snd) (y.map Prod.snd) := by
  cases h with
  | none => exact .none
  | some hab => exact .some (hP _ _ hab)

end Lockstep
