import Mathlib.Data.List.TakeWhile

/-!
# Sequences that a test cuts in two

A test that holds of everything before a member it holds of cuts a sequence in two,
and each of its subsequences at the same place. So a newcomer's place may be looked
for in a subsequence first, and from where that search ends in the whole.
-/

namespace Cut
variable {α : Type} {p : α → Bool} {a : α} {xs ys : List α}

/-- What passes the test has everything before it pass. -/
def Down (p : α → Bool) (xs : List α) : Prop :=
  xs.Pairwise fun x y => p y = true → p x = true

theorem Down.sublist (h : Down p ys) (hs : xs.Sublist ys) : Down p xs :=
  List.Pairwise.sublist hs h

theorem Down.takeWhile_eq (h : Down p xs) : xs.takeWhile p = xs.filter p := by
  induction xs with
  | nil => rfl
  | cons x xs ih =>
    obtain ⟨hx, hxs⟩ := List.pairwise_cons.mp h
    by_cases hp : p x = true
    · rw [List.takeWhile_cons_of_pos hp, List.filter_cons_of_pos hp, ih hxs]
    · have hnone : xs.filter p = [] :=
        List.filter_eq_nil_iff.mpr fun y hy hpy => hp (hx y hy hpy)
      rw [List.takeWhile_cons_of_neg hp, List.filter_cons_of_neg hp, hnone]

theorem Down.dropWhile_eq (h : Down p xs) : xs.dropWhile p = xs.filter fun x => !p x := by
  induction xs with
  | nil => rfl
  | cons x xs ih =>
    obtain ⟨hx, hxs⟩ := List.pairwise_cons.mp h
    by_cases hp : p x = true
    · rw [List.dropWhile_cons_of_pos hp, List.filter_cons_of_neg (by simp [hp]), ih hxs]
    · have hall : xs.filter (fun x => !p x) = xs := by
        refine List.filter_eq_self.mpr fun y hy => ?_
        simpa using fun hpy => hp (hx y hy hpy)
      rw [List.dropWhile_cons_of_neg hp, List.filter_cons_of_pos (by simpa using hp), hall]

/-! ## Newcomers -/

/-- `a` put where the test first fails. -/
def place (p : α → Bool) (a : α) (xs : List α) : List α :=
  xs.takeWhile p ++ a :: xs.dropWhile p

theorem sublist_place (p : α → Bool) (a : α) (xs : List α) : xs.Sublist (place p a xs) := by
  have hcut : (xs.takeWhile p ++ xs.dropWhile p).Sublist (place p a xs) :=
    (List.Sublist.refl _).append (List.sublist_cons_self ..)
  rwa [List.takeWhile_append_dropWhile] at hcut

/-- A subsequence stays one when the newcomer is put into both. -/
theorem Down.place_sublist (h : Down p ys) (hs : xs.Sublist ys) :
    (place p a xs).Sublist (place p a ys) := by
  have hx := h.sublist hs
  unfold place
  rw [h.takeWhile_eq, h.dropWhile_eq, hx.takeWhile_eq, hx.dropWhile_eq]
  exact (hs.filter _).append ((hs.filter _).cons_cons a)

/-- **The search goes on** in the whole sequence from where it ended in a part of it. -/
theorem Down.resume (h : Down p ys) (hs : xs.Sublist ys) :
    ∃ front back, ys = front ++ back ∧ front.getLast? = (xs.takeWhile p).getLast? ∧
      ys.takeWhile p = front ++ back.takeWhile p := by
  rcases (xs.takeWhile p).eq_nil_or_concat with hnil | ⟨passed, z, hz⟩
  · exact ⟨[], ys, rfl, by rw [hnil], rfl⟩
  · have hmem : z ∈ xs.takeWhile p := by simp [hz]
    have hpz : p z = true := List.mem_takeWhile_imp hmem
    obtain ⟨before, after, rfl⟩ := List.append_of_mem (hs.subset (List.takeWhile_subset p hmem))
    have hbefore : ∀ x ∈ before ++ [z], p x = true := by
      intro x hx
      rcases List.mem_append.mp hx with hx | hx
      · exact (List.pairwise_append.mp h).2.2 x hx z (List.mem_cons_self ..) hpz
      · obtain rfl := List.mem_singleton.mp hx
        exact hpz
    refine ⟨before ++ [z], after, by simp, by simp [hz], ?_⟩
    rw [List.append_cons]
    exact List.takeWhile_append_of_pos hbefore

end Cut
