import SampleRtos.Lib.Run
import Mathlib.Logic.Function.Basic

/-!
# Shared data in exclusive regions

Threads of some system read and write data they share, each in two steps: what it read it keeps
in a variable of its own and writes back later, changed. If they do so in regions only, and the
system lets one thread at a time be in a region, no update is lost: the data is what all the
updates make of what it was at first, one after the other, as if each had been done at once.
-/

namespace Exclusion

variable {τ V S O : Type} [DecidableEq τ]

/-! ## The data -/

/-- What threads share, what each has read of it, and the updates made, the last one first. -/
structure Shared (τ V : Type) where
  content : V
  var : τ → Option V
  updates : List (V → V)

namespace Shared

def init (v : V) : Shared τ V := ⟨v, fun _ => none, []⟩

def load (x : Shared τ V) (t : τ) : Shared τ V :=
  { x with var := Function.update x.var t (some x.content) }

/-- The thread writes back what `g` makes of the value it has read. -/
def store (x : Shared τ V) (t : τ) (g : V → V) : Option (Shared τ V) := do
  let v ← x.var t
  return ⟨g v, Function.update x.var t none, g :: x.updates⟩

/-- What has been read in a region is of no use after it. -/
def keep (x : Shared τ V) (p : τ → Prop) [DecidablePred p] : Shared τ V :=
  { x with var := fun t => if p t then x.var t else none }

/-- Threads in a region have read what the data still is, others have read nothing, and the data
is what the updates make of `v`. -/
structure Serial (v : V) (p : τ → Prop) (x : Shared τ V) : Prop where
  read : ∀ t w, x.var t = some w → p t ∧ w = x.content
  total : x.content = x.updates.foldr (fun g w => g w) v

namespace Serial
variable {v : V} {p q : τ → Prop} {x x' : Shared τ V} {t : τ} {g : V → V}

section
omit [DecidableEq τ]

theorem init (v : V) (p : τ → Prop) : Serial v p (Shared.init v) := by
  refine ⟨fun t w hw => ?_, rfl⟩
  cases hw

/-- Threads enter and leave regions. -/
theorem keep [DecidablePred q] (h : Serial v p x) : Serial v q (x.keep q) := by
  refine ⟨fun t w hw => ?_, h.total⟩
  dsimp only [Shared.keep] at hw
  split at hw
  · rename_i ht
    exact ⟨ht, (h.read t w hw).2⟩
  · cases hw

end

theorem load (h : Serial v p x) (ht : p t) : Serial v p (x.load t) := by
  refine ⟨fun u w hw => ?_, h.total⟩
  dsimp only [Shared.load] at hw
  by_cases hut : u = t
  · subst hut
    rw [Function.update_self] at hw
    exact ⟨ht, (Option.some.inj hw).symm⟩
  · rw [Function.update_of_ne hut] at hw
    exact h.read u w hw

/-- Nobody else is in a region, so nobody else has read anything. -/
theorem store (h : Serial v p x) (hone : ∀ u, p u → u = t) (hrun : x.store t g = some x') :
    Serial v p x' := by
  obtain ⟨w, hw, hret⟩ := Option.bind_eq_some_iff.mp hrun
  cases hret
  refine ⟨fun u w' hw' => ?_, ?_⟩
  · dsimp only at hw'
    by_cases hut : u = t
    · subst hut
      rw [Function.update_self] at hw'
      cases hw'
    · rw [Function.update_of_ne hut] at hw'
      exact absurd (hone u (h.read u w' hw').1) hut
  · rw [List.foldr_cons, ← h.total, (h.read t w hw).2]

end Serial

end Shared

/-! ## Systems with regions -/

/-- A system some of whose threads are in a region, and one of which may be about to run a step
of its own in it. -/
structure Regions (S O τ : Type) where
  exec : S → O → Option S
  ok : S → O → Prop
  inside : S → τ → Prop
  runs : S → Option τ

/-- What the system does, or a step of the thread that runs in its region. -/
inductive Move (O V : Type) where
  | base (o : O)
  | load
  | store (g : V → V)

namespace Regions
variable (R : Regions S O τ) [∀ s, DecidablePred (R.inside s)]

def step (x : S × Shared τ V) : Move O V → Option (S × Shared τ V)
  | .base o => do
      let s ← R.exec x.1 o
      return (s, x.2.keep (R.inside s))
  | .load => do
      let t ← R.runs x.1
      return (x.1, x.2.load t)
  | .store g => do
      let t ← R.runs x.1
      let y ← x.2.store t g
      return (x.1, y)

/-- The data is touched in regions only. -/
def Allowed (x : S × Shared τ V) : Move O V → Prop
  | .base o => R.ok x.1 o
  | _ => ∃ t ∈ R.runs x.1, R.inside x.1 t

instance [∀ s o, Decidable (R.ok s o)] (x : S × Shared τ V) (m : Move O V) :
    Decidable (R.Allowed x m) := by
  rcases m <;> dsimp only [Allowed] <;> infer_instance

/-- What the system with the data reaches, the system itself reaches. -/
theorem reach_base {x₀ x : S × Shared τ V} (h : Run.Reach R.step R.Allowed x₀ x) :
    Run.Reach R.exec R.ok x₀.1 x.1 := by
  refine Run.invariant (I := fun x => Run.Reach R.exec R.ok x₀.1 x.1) (fun x m x' hI hm hrun => ?_)
    (.start _) h
  cases m with
  | base o =>
    obtain ⟨s, hs, hret⟩ := Option.bind_eq_some_iff.mp hrun
    cases hret
    exact hI.snoc hm hs
  | load =>
    obtain ⟨t, -, hret⟩ := Option.bind_eq_some_iff.mp hrun
    cases hret
    exact hI
  | store g =>
    obtain ⟨t, -, hrun⟩ := Option.bind_eq_some_iff.mp hrun
    obtain ⟨y, -, hret⟩ := Option.bind_eq_some_iff.mp hrun
    cases hret
    exact hI

/-- **Exclusion makes updates atomic.** If no two threads are in a region in any state the system
reaches, the data is what the updates make of its first value. -/
theorem serial {s₀ : S} {v : V} {x : S × Shared τ V}
    (hone : ∀ s, Run.Reach R.exec R.ok s₀ s → ∀ t u, R.inside s t → R.inside s u → t = u)
    (h : Run.Reach R.step R.Allowed (s₀, .init v) x) : x.2.Serial v (R.inside x.1) := by
  have hboth : Run.Reach R.exec R.ok s₀ x.1 ∧ x.2.Serial v (R.inside x.1) := by
    refine Run.invariant
      (I := fun x => Run.Reach R.exec R.ok s₀ x.1 ∧ x.2.Serial v (R.inside x.1))
      (fun x m x' hI hm hrun => ?_) ⟨.start _, .init v _⟩ h
    obtain ⟨hreach, hserial⟩ := hI
    cases m with
    | base o =>
      obtain ⟨s, hs, hret⟩ := Option.bind_eq_some_iff.mp hrun
      cases hret
      exact ⟨hreach.snoc hm hs, hserial.keep⟩
    | load =>
      obtain ⟨t, ht, hret⟩ := Option.bind_eq_some_iff.mp hrun
      cases hret
      obtain ⟨t', ht', hin⟩ := hm
      obtain rfl : t = t' := Option.some.inj (ht.symm.trans ht')
      exact ⟨hreach, hserial.load hin⟩
    | store g =>
      obtain ⟨t, ht, hrun⟩ := Option.bind_eq_some_iff.mp hrun
      obtain ⟨y, hy, hret⟩ := Option.bind_eq_some_iff.mp hrun
      cases hret
      obtain ⟨t', ht', hin⟩ := hm
      obtain rfl : t = t' := Option.some.inj (ht.symm.trans ht')
      exact ⟨hreach, hserial.store (fun u hu => hone x.1 hreach u t hu hin) hy⟩
  exact hboth.2

end Regions

end Exclusion
