import Mathlib.Data.List.Basic

/-!
# Sequences ordered by key and then by arrival

The order kept by inserting each newcomer behind everything of the same or a
smaller key.
-/

namespace StableOrder
variable {α : Type} {key stamp : α → Nat} {x y a : α} {xs ys : List α}

/-- `x` has the smaller key, or the same key and came first. -/
def Before (key stamp : α → Nat) (x y : α) : Prop :=
  key x < key y ∨ key x = key y ∧ stamp x < stamp y

theorem Before.key_le (h : Before key stamp x y) : key x ≤ key y := by
  rcases h with h | h <;> omega

theorem Before.stamp_lt (h : Before key stamp x y) (hkey : key y ≤ key x) :
    stamp x < stamp y := by
  rcases h with h | h <;> omega

/-- Only the keys and stamps of the members matter. -/
theorem pairwise_congr {key' stamp' : α → Nat} (hkey : ∀ b ∈ xs, key' b = key b)
    (hstamp : ∀ b ∈ xs, stamp' b = stamp b) (h : xs.Pairwise (Before key stamp)) :
    xs.Pairwise (Before key' stamp') := by
  refine h.imp_of_mem fun {b c} hb hc hbc => ?_
  unfold Before
  rw [hkey b hb, hkey c hc, hstamp b hb, hstamp c hc]
  exact hbc

/-- Keys that all move by the same amount keep their order. -/
theorem pairwise_shift {key' : α → Nat} (hkey : ∀ b ∈ xs, key' b + 1 = key b)
    (h : xs.Pairwise (Before key stamp)) : xs.Pairwise (Before key' stamp) := by
  refine h.imp_of_mem fun {b c} hb hc hbc => ?_
  have hb' := hkey b hb
  have hc' := hkey c hc
  unfold Before at hbc ⊢
  omega

/-- **A newcomer** goes behind every key not above its own and before the first that
is. -/
theorem pairwise_insert (h : (xs ++ ys).Pairwise (Before key stamp))
    (hxs : ∀ b ∈ xs, key b ≤ key a) (hys : ∀ b ∈ ys.head?, key a < key b)
    (hnew : ∀ b ∈ xs ++ ys, stamp b < stamp a) :
    (xs ++ a :: ys).Pairwise (Before key stamp) := by
  obtain ⟨hfront, hback, hacross⟩ := List.pairwise_append.mp h
  have hafter : ∀ b ∈ ys, Before key stamp a b := by
    cases ys with
    | nil => simp
    | cons c ys =>
      have hc : key a < key c := hys c rfl
      intro b hb
      rcases List.mem_cons.mp hb with rfl | hb
      · exact .inl hc
      · exact .inl (Nat.lt_of_lt_of_le hc ((List.pairwise_cons.mp hback).1 b hb).key_le)
  refine List.pairwise_append.mpr ⟨hfront, List.pairwise_cons.mpr ⟨hafter, hback⟩, ?_⟩
  intro b hb c hc
  rcases List.mem_cons.mp hc with rfl | hc
  · have hle := hxs b hb
    have hlt := hnew b (List.mem_append_left _ hb)
    unfold Before
    omega
  · exact hacross b hb c hc

/-- The same in the order of the keys alone. -/
theorem pairwise_insert_key (h : (xs ++ ys).Pairwise fun x y => key x ≤ key y)
    (hxs : ∀ b ∈ xs, key b ≤ key a) (hys : ∀ b ∈ ys.head?, key a ≤ key b) :
    (xs ++ a :: ys).Pairwise fun x y => key x ≤ key y := by
  obtain ⟨hfront, hback, hacross⟩ := List.pairwise_append.mp h
  have hafter : ∀ b ∈ ys, key a ≤ key b := by
    cases ys with
    | nil => simp
    | cons c ys =>
      have hc : key a ≤ key c := hys c rfl
      intro b hb
      rcases List.mem_cons.mp hb with rfl | hb
      · exact hc
      · exact Nat.le_trans hc ((List.pairwise_cons.mp hback).1 b hb)
  refine List.pairwise_append.mpr ⟨hfront, List.pairwise_cons.mpr ⟨hafter, hback⟩, ?_⟩
  intro b hb c hc
  rcases List.mem_cons.mp hc with rfl | hc
  · exact hxs b hb
  · exact hacross b hb c hc

end StableOrder
