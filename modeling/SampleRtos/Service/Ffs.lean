import Mathlib.Data.List.Basic
import Mathlib.Data.Fintype.Basic
import Mathlib.Order.Bounds.Basic

/-!
# kservice.c: the ready bitmap's bit search

`__rt_ffs` looks the lowest set bit of a word up byte by byte in a table of
256 entries. The argument is an `int` in the source; only its 32 bits matter,
and the masks are applied before every shift, so no sign is shifted in.
-/

namespace SampleRtos

/-- `__lowest_bit_bitmap`: the index of the lowest set bit of a byte. -/
def lowestBitBitmap : List Nat :=
  [ 0xff, 0, 1, 0, 2, 0, 1, 0, 3, 0, 1, 0, 2, 0, 1, 0,
    4, 0, 1, 0, 2, 0, 1, 0, 3, 0, 1, 0, 2, 0, 1, 0,
    5, 0, 1, 0, 2, 0, 1, 0, 3, 0, 1, 0, 2, 0, 1, 0,
    4, 0, 1, 0, 2, 0, 1, 0, 3, 0, 1, 0, 2, 0, 1, 0,
    6, 0, 1, 0, 2, 0, 1, 0, 3, 0, 1, 0, 2, 0, 1, 0,
    4, 0, 1, 0, 2, 0, 1, 0, 3, 0, 1, 0, 2, 0, 1, 0,
    5, 0, 1, 0, 2, 0, 1, 0, 3, 0, 1, 0, 2, 0, 1, 0,
    4, 0, 1, 0, 2, 0, 1, 0, 3, 0, 1, 0, 2, 0, 1, 0,
    7, 0, 1, 0, 2, 0, 1, 0, 3, 0, 1, 0, 2, 0, 1, 0,
    4, 0, 1, 0, 2, 0, 1, 0, 3, 0, 1, 0, 2, 0, 1, 0,
    5, 0, 1, 0, 2, 0, 1, 0, 3, 0, 1, 0, 2, 0, 1, 0,
    4, 0, 1, 0, 2, 0, 1, 0, 3, 0, 1, 0, 2, 0, 1, 0,
    6, 0, 1, 0, 2, 0, 1, 0, 3, 0, 1, 0, 2, 0, 1, 0,
    4, 0, 1, 0, 2, 0, 1, 0, 3, 0, 1, 0, 2, 0, 1, 0,
    5, 0, 1, 0, 2, 0, 1, 0, 3, 0, 1, 0, 2, 0, 1, 0,
    4, 0, 1, 0, 2, 0, 1, 0, 3, 0, 1, 0, 2, 0, 1, 0 ]

/-- `__rt_ffs`: 0 for the zero word, otherwise one more than the index of the
lowest set bit. -/
def rtFfs (value : BitVec 32) : Nat :=
  if value = 0 then 0
  else if value &&& 0xff ≠ 0 then
    lowestBitBitmap.getD (value &&& 0xff).toNat 0 + 1
  else if value &&& 0xff00 ≠ 0 then
    lowestBitBitmap.getD ((value &&& 0xff00) >>> 8).toNat 0 + 9
  else if value &&& 0xff0000 ≠ 0 then
    lowestBitBitmap.getD ((value &&& 0xff0000) >>> 16).toNat 0 + 17
  else
    lowestBitBitmap.getD ((value &&& 0xff000000) >>> 24).toNat 0 + 25

/-- The middle masks are `int` in the source, and their right shifts arithmetic: with bit
31 masked out that is the same. (`0xff000000` does not fit an `int` and is unsigned.) -/
theorem masked_sshiftRight (v : BitVec 32) {m : BitVec 32} (hm : m.msb = false) (s : Nat) :
    (v &&& m).sshiftRight s = (v &&& m) >>> s := by
  have hmsb : (v &&& m).msb = false := by simp [BitVec.msb_and, hm]
  exact BitVec.sshiftRight_eq_of_msb_false hmsb

example (v : BitVec 32) : (v &&& 0xff0000).sshiftRight 16 = (v &&& 0xff0000) >>> 16 :=
  masked_sshiftRight v (by decide) 16

/-! ## The table -/

/-- Every entry but the first is the lowest set bit of its index. -/
theorem lowestBitBitmap_spec : ∀ b : Fin 256, b.val ≠ 0 →
    lowestBitBitmap.getD b.val 0 < 8 ∧ b.val.testBit (lowestBitBitmap.getD b.val 0) = true ∧
      ∀ j : Fin 8, j.val < lowestBitBitmap.getD b.val 0 → b.val.testBit j.val = false := by
  decide +kernel

/-- The byte of `v` that starts at bit `s`, as the search extracts it. -/
theorem byte_testBit (v : BitVec 32) {s : Nat} (hs : s ≤ 24) (j : Nat) :
    ((v &&& (0xff#32 <<< s)) >>> s).toNat.testBit j = (decide (j < 8) && v.getLsbD (s + j)) := by
  rw [← BitVec.getLsbD, BitVec.getLsbD_ushiftRight, BitVec.getLsbD_and,
    BitVec.getLsbD_shiftLeft]
  by_cases hj : j < 8
  · have hbit : (0xff#32).getLsbD j = true := by
      have h : ∀ j : Fin 8, (0xff#32).getLsbD j.val = true := by decide
      exact h ⟨j, hj⟩
    simp [hj, hbit]
    omega
  · have hbit : (0xff#32).getLsbD j = false := by
      rw [BitVec.getLsbD, show (0xff#32).toNat = 2 ^ 8 - 1 from rfl, Nat.testBit_two_pow_sub_one]
      simpa using hj
    simp [hj, hbit]

theorem byte_zero {v : BitVec 32} {s : Nat} (hs : s ≤ 24) (hz : v &&& (0xff#32 <<< s) = 0)
    {j : Nat} (hj : j < 8) : v.getLsbD (s + j) = false := by
  have h := byte_testBit v hs j
  simpa [hz, hj] using h.symm

theorem byte_found {v : BitVec 32} {s : Nat} (hs : s ≤ 24) (hne : v &&& (0xff#32 <<< s) ≠ 0) :
    let i := lowestBitBitmap.getD ((v &&& (0xff#32 <<< s)) >>> s).toNat 0
    i < 8 ∧ v.getLsbD (s + i) = true ∧ ∀ j < i, v.getLsbD (s + j) = false := by
  generalize hb : ((v &&& (0xff#32 <<< s)) >>> s).toNat = b
  have hbit : ∀ j, b.testBit j = (decide (j < 8) && v.getLsbD (s + j)) := fun j =>
    hb ▸ byte_testBit v hs j
  have hlt : b < 2 ^ 8 := Nat.lt_pow_two_of_testBit b fun j hj => by
    rw [hbit]; simp; omega
  have hb0 : b ≠ 0 := by
    intro hb0
    refine hne (BitVec.eq_of_getLsbD_eq fun k hk => ?_)
    have hbit := hbit (k - s)
    rw [hb0, Nat.zero_testBit] at hbit
    rw [BitVec.getLsbD_and, BitVec.getLsbD_shiftLeft]
    by_cases hks : k < s
    · simp [hks]
    · rw [show s + (k - s) = k by omega] at hbit
      by_cases hk8 : k - s < 8
      · simp only [hk8, decide_true, Bool.true_and] at hbit
        simp [← hbit]
      · have hmask : (0xff#32).getLsbD (k - s) = false := by
          rw [BitVec.getLsbD, show (0xff#32).toNat = 2 ^ 8 - 1 from rfl,
            Nat.testBit_two_pow_sub_one]
          simpa using hk8
        simp [hmask]
  obtain ⟨hi, hset, hlow⟩ := lowestBitBitmap_spec ⟨b, hlt⟩ hb0
  simp only at hi hset hlow
  refine ⟨hi, ?_, fun j hj => ?_⟩
  · rw [hbit, Bool.and_eq_true] at hset
    exact hset.2
  · have h := hlow ⟨j, by omega⟩ hj
    rw [hbit] at h
    simpa [show j < 8 by omega] using h

/-! ## The search -/

/-- The bit `i` is the lowest one set in `v`. -/
def LowestBit (v : BitVec 32) (i : Nat) : Prop :=
  v.getLsbD i = true ∧ ∀ j < i, v.getLsbD j = false

theorem lowestBit_of_byte {v : BitVec 32} {s : Nat} (hs : s ≤ 24)
    (hne : v &&& (0xff#32 <<< s) ≠ 0) (hbelow : ∀ j < s, v.getLsbD j = false) :
    LowestBit v (lowestBitBitmap.getD ((v &&& (0xff#32 <<< s)) >>> s).toNat 0 + s) := by
  obtain ⟨-, hset, hlow⟩ := byte_found hs hne
  rw [Nat.add_comm]
  refine ⟨hset, fun j hj => ?_⟩
  by_cases hjs : j < s
  · exact hbelow j hjs
  · have h := hlow (j - s) (by omega)
    rwa [show s + (j - s) = j by omega] at h

/-- `__rt_ffs` finds the lowest set bit of every non-zero word. -/
theorem rtFfs_lowestBit {v : BitVec 32} (hv : v ≠ 0) :
    ∃ i < 32, rtFfs v = i + 1 ∧ LowestBit v i := by
  suffices h : ∃ i, rtFfs v = i + 1 ∧ LowestBit v i by
    obtain ⟨i, hi, hlow⟩ := h
    have hi32 : i < 32 := by
      by_contra hge
      have hset := hlow.1
      rw [BitVec.getLsbD_of_ge v i (by omega)] at hset
      exact Bool.noConfusion hset
    exact ⟨i, hi32, hi, hlow⟩
  -- a zero byte adds eight to the bits known to be clear
  have hext : ∀ {s}, s ≤ 24 → v &&& (0xff#32 <<< s) = 0 → (∀ j < s, v.getLsbD j = false) →
      ∀ j < s + 8, v.getLsbD j = false := by
    intro s hs hz hbelow j hj
    by_cases hjs : j < s
    · exact hbelow j hjs
    · have h := byte_zero hs hz (j := j - s) (by omega)
      rwa [show s + (j - s) = j by omega] at h
  unfold rtFfs
  rw [if_neg hv]
  by_cases h0 : v &&& 0xff = 0
  · have hlow0 := hext (s := 0) (by omega) h0 (by omega)
    by_cases h1 : v &&& 0xff00 = 0
    · have hlow1 := hext (s := 8) (by omega) h1 hlow0
      by_cases h2 : v &&& 0xff0000 = 0
      · have hlow2 := hext (s := 16) (by omega) h2 hlow1
        -- the source does not test the last byte; the word is not zero
        have h3 : v &&& (0xff#32 <<< 24) ≠ 0 := by
          intro h3
          refine hv (BitVec.eq_of_getLsbD_eq fun j hj => ?_)
          simpa using hext (s := 24) (by omega) h3 hlow2 j (by omega)
        rw [if_neg (by simpa using h0), if_neg (by simpa using h1), if_neg (by simpa using h2)]
        exact ⟨_, rfl, lowestBit_of_byte (s := 24) (by omega) h3 hlow2⟩
      · rw [if_neg (by simpa using h0), if_neg (by simpa using h1), if_pos h2]
        exact ⟨_, rfl, lowestBit_of_byte (s := 16) (by omega) h2 hlow1⟩
    · rw [if_neg (by simpa using h0), if_pos h1]
      exact ⟨_, rfl, lowestBit_of_byte (s := 8) (by omega) h1 hlow0⟩
  · rw [if_pos h0]
    exact ⟨_, rfl, lowestBit_of_byte (s := 0) (by omega) h0 (by omega)⟩

theorem LowestBit.isLeast {v : BitVec 32} {i : Nat} (h : LowestBit v i) :
    IsLeast {j | v.getLsbD j = true} i := by
  refine ⟨h.1, fun j hj => ?_⟩
  by_contra hlt
  have hunset := h.2 j (by omega)
  rw [hj] at hunset
  cases hunset

/-! ## Sets of priorities -/

/-- The bits of `g` are the priorities in `s`, as `rt_thread_ready_priority_group` has them. -/
def Encodes (g : BitVec 32) (s : Set Nat) : Prop := ∀ p, p ∈ s ↔ g.getLsbD p = true

/-- The word into which every one of these priorities has put its `number_mask`. -/
def priorityGroup (ps : List (Fin 32)) : BitVec 32 :=
  ps.foldl (fun g p => g ||| 1#32 <<< p.val) 0

theorem priorityGroup_encodes (ps : List (Fin 32)) :
    Encodes (priorityGroup ps) {p | ∃ q ∈ ps, q.val = p} := by
  induction ps using List.reverseRecOn with
  | nil => intro p; simp [priorityGroup]
  | append_singleton ps q ih =>
    intro p
    have hbit : (1#32 <<< q.val).getLsbD p = true ↔ q.val = p := by
      have hq := q.isLt
      simp only [BitVec.getLsbD_shiftLeft, BitVec.getLsbD_one, Bool.and_eq_true, decide_eq_true_eq,
        Bool.not_eq_true', decide_eq_false_iff_not]
      omega
    have hp : (∃ r ∈ ps, r.val = p) ↔ (priorityGroup ps).getLsbD p = true := ih p
    rw [priorityGroup, List.foldl_append, List.foldl_cons, List.foldl_nil, ← priorityGroup,
      BitVec.getLsbD_or, Bool.or_eq_true, hbit, ← hp]
    constructor
    · rintro ⟨r, hr, hrp⟩
      rcases List.mem_append.mp hr with hr | hr
      · exact .inl ⟨r, hr, hrp⟩
      · exact .inr (by rwa [List.mem_singleton.mp hr] at hrp)
    · rintro (⟨r, hr, hrp⟩ | hqp)
      · exact ⟨r, by simp [hr], hrp⟩
      · exact ⟨q, by simp, hqp⟩

/-- **Bit search.** `__rt_ffs` is 0 on the zero word and otherwise one more than the index of
the lowest set bit, whatever bit 31 is; one less is therefore the least priority of any set of
priorities, given by its word or put together from its members' masks. -/
theorem ffs_finds_least (v : BitVec 32) :
    rtFfs 0 = 0 ∧
      (v ≠ 0 → ∃ i < 32, IsLeast {j | v.getLsbD j = true} i ∧ rtFfs v = i + 1) ∧
      (∀ s : Set Nat, s.Nonempty → Encodes v s → IsLeast s (rtFfs v - 1)) ∧
      ∀ ps : List (Fin 32), ps ≠ [] →
        IsLeast {p | ∃ q ∈ ps, q.val = p} (rtFfs (priorityGroup ps) - 1) := by
  have hleast : ∀ (g : BitVec 32) (s : Set Nat), s.Nonempty → Encodes g s →
      IsLeast s (rtFfs g - 1) := by
    intro g s ⟨p, hp⟩ henc
    have hg : g ≠ 0 := by
      rintro rfl
      simpa using (henc p).mp hp
    obtain ⟨i, -, hi, hlow⟩ := rtFfs_lowestBit hg
    have hs : s = {j | g.getLsbD j = true} := Set.ext henc
    rw [hi, Nat.add_sub_cancel, hs]
    exact hlow.isLeast
  refine ⟨rfl, fun hv => ?_, hleast v, fun ps hps => ?_⟩
  · obtain ⟨i, hi, heq, hlow⟩ := rtFfs_lowestBit hv
    exact ⟨i, hi, hlow.isLeast, heq⟩
  · obtain ⟨q, hq⟩ := List.exists_mem_of_ne_nil ps hps
    exact hleast _ _ ⟨q.val, q, hq, rfl⟩ (priorityGroup_encodes ps)

end SampleRtos
