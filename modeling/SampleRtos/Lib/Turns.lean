import Mathlib.Data.List.Rotate

/-!
# Taking turns

A list whose members take turns from the front, each for a number of units of its
own and then to the end: what has been handed out after so many turns, and where
the list stands.
-/

namespace Turns

variable {α : Type}

/-- One round: every member for the length of its turn. -/
def roster (slice : α → Nat) (xs : List α) : List α :=
  xs.flatMap fun x => List.replicate (slice x) x

/-- What the first `i` turns hand out. -/
def turns (slice : α → Nat) (xs : List α) : Nat → List α
  | 0 => []
  | i + 1 => turns slice xs i ++ roster slice ((xs.rotate i).take 1)

variable {slice : α → Nat} {xs rest : List α} {x : α} {i j : Nat}

theorem turns_succ (h : xs.rotate i = x :: rest) :
    turns slice xs (i + 1) = turns slice xs i ++ List.replicate (slice x) x := by
  rw [turns, h]
  simp [roster]

/-- After a turn whoever had it stands at the end. -/
theorem rotate_succ (h : xs.rotate i = x :: rest) : xs.rotate (i + 1) = rest ++ [x] := by
  rw [← List.rotate_rotate, h]
  simp

/-! ## Rounds -/

theorem turns_take (hi : i ≤ xs.length) : turns slice xs i = roster slice (xs.take i) := by
  induction i with
  | zero => simp [turns, roster]
  | succ i ih =>
    have hlt : i < xs.length := by omega
    rw [turns, ih (by omega), List.rotate_eq_drop_append_take (by omega),
      List.take_append_of_le_length (by simp; omega), List.drop_eq_getElem_cons hlt,
      ← List.take_append_getElem hlt]
    simp only [roster, List.flatMap_append, List.take_succ_cons, List.take_zero]

/-- The turns after a round are those from the beginning. -/
theorem turns_round (i : Nat) :
    turns slice xs (xs.length + i) = roster slice xs ++ turns slice xs i := by
  induction i with
  | zero => simp [turns, turns_take (le_refl _)]
  | succ i ih =>
    have hrotate : xs.rotate (xs.length + i) = xs.rotate i := by
      rw [← List.rotate_rotate, List.rotate_length]
    rw [show xs.length + (i + 1) = xs.length + i + 1 from rfl, turns, ih, hrotate, turns,
      List.append_assoc]

theorem turns_rounds (m : Nat) :
    turns slice xs (m * xs.length) = (List.replicate m (roster slice xs)).flatten := by
  induction m with
  | zero => simp [turns]
  | succ m ih =>
    rw [Nat.succ_mul, Nat.add_comm, turns_round, ih, List.replicate_succ, List.flatten_cons]

theorem turns_mono (hij : i ≤ j) : turns slice xs i <+: turns slice xs j := by
  induction hij with
  | refl => exact List.prefix_rfl
  | step _ ih => exact ih.trans (List.prefix_append _ _)

/-- Amid a turn, what has been handed out is the beginning of sufficiently many rounds. -/
theorem prefix_rounds {c : Nat} (h : xs.rotate i = x :: rest) (hc : c ≤ slice x) :
    ∃ m, turns slice xs i ++ List.replicate c x <+:
      (List.replicate m (roster slice xs)).flatten := by
  refine ⟨i + 1, ?_⟩
  have hlen : 1 ≤ xs.length := by
    rw [← List.length_rotate, h]
    simp
  have hturn : turns slice xs i ++ List.replicate c x <+: turns slice xs (i + 1) := by
    rw [turns_succ h, ← Nat.add_sub_of_le hc, List.replicate_add, ← List.append_assoc]
    exact List.prefix_append _ _
  rw [← turns_rounds]
  exact hturn.trans (turns_mono (Nat.le_mul_of_pos_right _ hlen))

/-- If no turn is empty, full rounds have been handed out only between two turns, with
the list as it was at the beginning. -/
theorem full_rounds {c m : Nat} (h : xs.rotate i = x :: rest) (hc : c < slice x)
    (hpos : ∀ y ∈ xs, 0 < slice y)
    (hlen : (turns slice xs i ++ List.replicate c x).length = m * (roster slice xs).length) :
    c = 0 ∧ xs.rotate i = xs := by
  have hmono : ∀ {i j}, i < j → (turns slice xs i).length < (turns slice xs j).length := by
    intro i j hij
    refine lt_of_lt_of_le ?_ (turns_mono (Nat.succ_le_of_lt hij)).length_le
    obtain ⟨y, ys, hy⟩ : ∃ y ys, xs.rotate i = y :: ys := by
      refine List.exists_cons_of_ne_nil fun hnil => ?_
      rw [List.rotate_eq_nil_iff] at hnil
      subst hnil
      simp at h
    have hmem : y ∈ xs := by
      rw [← List.mem_rotate (n := i), hy]
      exact List.mem_cons_self ..
    rw [Nat.succ_eq_add_one, turns_succ hy, List.length_append, List.length_replicate]
    have hy := hpos y hmem
    omega
  have hrounds : (turns slice xs (m * xs.length)).length = m * (roster slice xs).length := by
    rw [turns_rounds]
    simp
  have hsucc : (turns slice xs (i + 1)).length = (turns slice xs i).length + slice x := by
    rw [turns_succ h, List.length_append, List.length_replicate]
  rw [List.length_append, List.length_replicate] at hlen
  -- the turns given out lie between the `i`th and the next
  have hi : i = m * xs.length := by
    rcases Nat.lt_trichotomy i (m * xs.length) with hlt | heq | hgt
    · have hnext : (turns slice xs (i + 1)).length ≤ (turns slice xs (m * xs.length)).length :=
        (turns_mono (Nat.succ_le_of_lt hlt)).length_le
      omega
    · exact heq
    · have hbefore := hmono hgt
      omega
  subst hi
  exact ⟨by omega, by rw [Nat.mul_comm, List.rotate_length_mul]⟩

end Turns
