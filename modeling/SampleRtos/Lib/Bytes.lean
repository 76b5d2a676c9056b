import Mathlib.Data.List.Range
import Mathlib.Logic.Function.Basic

/-!
# Byte-addressed memory

Memory with 32-bit addresses, and words stored in it little-endian. Addresses are
compared by their distance, so nothing here asks that a range does not wrap.
-/

namespace Bytes

abbrev Addr := BitVec 32

abbrev Mem := Addr → BitVec 8

namespace Mem
variable {m : Mem} {a b p x : Addr} {v : BitVec 32}

def setByte (m : Mem) (a : Addr) (b : BitVec 8) : Mem := Function.update m a b

/-- The `k` bytes from `a` upwards set to `b`. -/
def fill (m : Mem) (a : Addr) (k : Nat) (b : BitVec 8) : Mem := fun x =>
  if (x - a).toNat < k then b else m x

@[simp] theorem fill_zero (m : Mem) (a : Addr) (b : BitVec 8) : m.fill a 0 b = m := rfl

theorem fill_of_out (m : Mem) (b : BitVec 8) {k : Nat} (h : k ≤ (x - a).toNat) :
    m.fill a k b x = m x :=
  if_neg (by omega)

theorem fill_of_lt (m : Mem) (b : BitVec 8) {k : Nat} (h : (x - a).toNat < k) :
    m.fill a k b x = b :=
  if_pos h

theorem setByte_of_ne (m : Mem) (b : BitVec 8) (h : x ≠ a) : m.setByte a b x = m x := by
  simp [setByte, h]

@[simp] theorem setByte_self (m : Mem) (a : Addr) (b : BitVec 8) : m.setByte a b a = b := by
  simp [setByte]

/-- One byte and then the rest. -/
theorem fill_setByte (m : Mem) (a : Addr) (b : BitVec 8) (k : Nat) :
    (m.setByte a b).fill (a + 1) k b = m.fill a (k + 1) b := by
  funext x
  by_cases hx : x = a
  · subst hx
    simp [fill, setByte]
  · have hdist : (x - (a + 1)).toNat + 1 = (x - a).toNat := by bv_omega
    have hiff : (x - (a + 1)).toNat < k ↔ (x - a).toNat < k + 1 := by omega
    simp only [fill, setByte_of_ne m b hx, hiff]

/-- A word stored from `a` upwards, its lowest byte first. -/
def store32 (m : Mem) (a : Addr) (v : BitVec 32) : Mem := fun x =>
  if (x - a).toNat < 4 then v.extractLsb' (8 * (x - a).toNat) 8 else m x

/-- The word at `a`. -/
def load32 (m : Mem) (a : Addr) : BitVec 32 := m (a + 3) ++ m (a + 2) ++ m (a + 1) ++ m a

theorem store32_of_out (m : Mem) (v : BitVec 32) (h : 4 ≤ (x - a).toNat) :
    m.store32 a v x = m x :=
  if_neg (by omega)

theorem store32_at (m : Mem) (a : Addr) (v : BitVec 32) {i : Addr} (hi : i.toNat < 4) :
    m.store32 a v (a + i) = v.extractLsb' (8 * i.toNat) 8 := by
  have hdist : a + i - a = i := by rw [BitVec.add_comm, BitVec.add_sub_cancel]
  rw [store32, hdist, if_pos hi]

/-- A word is read back as it was stored. -/
theorem load32_store32 (m : Mem) (a : Addr) (v : BitVec 32) : (m.store32 a v).load32 a = v := by
  have hzero : m.store32 a v a = v.extractLsb' 0 8 := by
    simpa using store32_at m a v (i := 0#32) (by decide)
  rw [load32, store32_at m a v (i := 3) (by decide), store32_at m a v (i := 2) (by decide),
    store32_at m a v (i := 1) (by decide), hzero]
  refine BitVec.eq_of_getLsbD_eq fun j hj => ?_
  simp only [BitVec.getLsbD_append, BitVec.getLsbD_extractLsb']
  grind

/-- Words that do not overlap do not interfere. -/
theorem load32_store32_of_apart (m : Mem) (v : BitVec 32) (hab : 4 ≤ (b - a).toNat)
    (hba : 4 ≤ (a - b).toNat) : (m.store32 a v).load32 b = m.load32 b := by
  have hout : ∀ i : Addr, i.toNat < 4 → m.store32 a v (b + i) = m (b + i) := by
    intro i hi
    refine store32_of_out m v ?_
    bv_omega
  have hzero : m.store32 a v b = m b := by simpa using hout 0#32 (by decide)
  rw [load32, load32, hout 3 (by decide), hout 2 (by decide), hout 1 (by decide), hzero]

/-- The same for words at fixed distances from one base. -/
theorem load32_store32_offset (m : Mem) (p : Addr) (v : BitVec 32) {i j : Addr}
    (h : 4 ≤ (j - i).toNat ∧ 4 ≤ (i - j).toNat) :
    (m.store32 (p + i) v).load32 (p + j) = m.load32 (p + j) := by
  have hij : p + j - (p + i) = j - i := by bv_omega
  have hji : p + i - (p + j) = i - j := by bv_omega
  exact load32_store32_of_apart m v (hij ▸ h.1) (hji ▸ h.2)

theorem store32_offset_of_out (m : Mem) (p : Addr) (v : BitVec 32) {i : Addr} {k : Nat}
    (hi : i.toNat + 4 ≤ k) (hx : k ≤ (x - p).toNat) : m.store32 (p + i) v x = m x := by
  refine store32_of_out m v ?_
  bv_omega

end Mem

end Bytes
