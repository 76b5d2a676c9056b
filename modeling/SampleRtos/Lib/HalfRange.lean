import Mathlib.Data.BitVec
import Mathlib.Tactic.Ring

/-!
# Instants on a wrapping counter

A counter of `w` bits wraps, so instants have no order. Those less than half the
range ahead of the present have one, that of their distances from it, and it can
be told from the difference of two instants alone.
-/

namespace HalfRange
variable {w : Nat} {now x y n : BitVec w} {half : Nat}

/-- How far `x` lies ahead of `now`, going up and round. -/
def ahead (now x : BitVec w) : Nat := (x - now).toNat

@[simp] theorem ahead_add (now n : BitVec w) : ahead now (now + n) = n.toNat := by
  rw [ahead, show now + n - now = n by ring]

@[simp] theorem ahead_self (now : BitVec w) : ahead now now = 0 := by
  rw [ahead, BitVec.sub_self, BitVec.toNat_zero]

theorem ahead_eq_zero : ahead now x = 0 ↔ now = x := by
  refine ⟨fun h => ?_, fun h => h ▸ ahead_self now⟩
  have hzero : x - now = 0#w := BitVec.eq_of_toNat_eq (h.trans BitVec.toNat_zero.symm)
  exact (sub_eq_zero.mp hzero).symm

/-- Counting up brings every instant but the present one nearer. -/
theorem ahead_succ (h : ahead now x ≠ 0) : ahead (now + 1) x + 1 = ahead now x := by
  have hpos : 0 < (x - now).toNat := Nat.pos_of_ne_zero h
  have hw : 0 < w := by
    by_contra hw
    obtain rfl : w = 0 := by omega
    simp [BitVec.of_length_zero] at hpos
  have hone : (1 : BitVec w).toNat = 1 := by
    simp [BitVec.toNat_ofNat, Nat.mod_eq_of_lt (Nat.one_lt_two_pow (by omega : w ≠ 0))]
  have hle : (1 : BitVec w) ≤ x - now := by
    rw [BitVec.le_def, hone]
    exact hpos
  rw [ahead, ahead, show x - (now + 1) = x - now - 1 by ring, BitVec.toNat_sub_of_le hle, hone]
  omega

/-- A small positive difference: `y` lies after `x`, and by less than `half`. -/
theorem sub_lt_half_iff (hx : ahead now x + half ≤ 2 ^ w) :
    y - x ≠ 0 ∧ (y - x).toNat < half ↔
      ahead now x < ahead now y ∧ ahead now y < ahead now x + half := by
  have hdiff : y - x = (y - now) - (x - now) := by ring
  rcases Nat.lt_trichotomy (ahead now x) (ahead now y) with hlt | heq | hgt
  · have hsub : (y - x).toNat = ahead now y - ahead now x := by
      rw [hdiff, BitVec.toNat_sub_of_le (BitVec.le_def.mpr (Nat.le_of_lt hlt))]
      rfl
    have hne : y - x ≠ 0 := by
      intro hzero
      rw [sub_eq_zero.mp hzero] at hlt
      exact lt_irrefl _ hlt
    rw [hsub]
    constructor
    · intro h
      omega
    · intro h
      exact ⟨hne, by omega⟩
  · have hxy : y - now = x - now := BitVec.eq_of_toNat_eq heq.symm
    exact iff_of_false (fun h => h.1 (by rw [hdiff, hxy, sub_self])) (by omega)
  · refine iff_of_false (fun h => ?_) (by omega)
    have hbig := h.2
    rw [hdiff, BitVec.toNat_sub_of_lt (BitVec.lt_def.mpr hgt)] at hbig
    unfold ahead at hx hgt
    omega

/-- Among instants less than half the range ahead it is an order. -/
theorem sub_lt_half (hhalf : 2 * half ≤ 2 ^ w) (hx : ahead now x < half)
    (hy : ahead now y < half) :
    y - x ≠ 0 ∧ (y - x).toNat < half ↔ ahead now x < ahead now y := by
  rw [sub_lt_half_iff (show ahead now x + half ≤ 2 ^ w by omega)]
  omega

/-- A small difference the other way means that the instant has come. -/
theorem past_lt_half (hhalf : 2 * half ≤ 2 ^ w) (hx : ahead now x < half) :
    (now - x).toNat < half ↔ ahead now x = 0 := by
  have hdiff : now - x = 0#w - (x - now) := by
    rw [BitVec.zero_sub]
    ring
  by_cases hzero : ahead now x = 0
  · refine iff_of_true ?_ hzero
    rw [← ahead_eq_zero.mp hzero]
    exact lt_of_le_of_lt (Nat.le_of_eq (ahead_self now)) (Nat.zero_lt_of_lt hx)
  · refine iff_of_false (fun h => ?_) hzero
    have hpos : 0#w < x - now := by
      rw [BitVec.lt_def, BitVec.toNat_zero]
      exact Nat.pos_of_ne_zero hzero
    rw [hdiff, BitVec.toNat_sub_of_lt hpos, BitVec.toNat_zero] at h
    unfold ahead at hx
    omega

/-- The same seen from the instant before the present one. -/
theorem past_succ_lt_half (hw : w ≠ 0) (hhalf : 2 ≤ half) (hx : ahead now x + half ≤ 2 ^ w + 1) :
    (now + 1 - x).toNat < half ↔ ahead now x ≤ 1 := by
  have hone : (1 : BitVec w).toNat = 1 := by
    simp [BitVec.toNat_ofNat, Nat.mod_eq_of_lt (Nat.one_lt_two_pow hw)]
  have hdiff : now + 1 - x = 1 - (x - now) := by ring
  rcases Nat.lt_or_ge 1 (ahead now x) with hgt | hle
  · have hlt : (1 : BitVec w) < x - now := by
      rw [BitVec.lt_def, hone]
      exact hgt
    rw [hdiff, BitVec.toNat_sub_of_lt hlt, hone]
    unfold ahead at hx hgt ⊢
    omega
  · have hge : x - now ≤ (1 : BitVec w) := by
      rw [BitVec.le_def, hone]
      exact hle
    rw [hdiff, BitVec.toNat_sub_of_le hge, hone]
    unfold ahead at hle ⊢
    omega

end HalfRange
