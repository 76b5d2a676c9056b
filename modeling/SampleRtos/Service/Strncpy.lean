import SampleRtos.Lib.Bytes

/-!
# kservice.c: the bounded copy of a string

`rt_strncpy` with its two loops and the counter they share. `rt_ubase_t` has 32 bits, so
a counter decremented at 0 would come round; a loop that has not ended within its fuel
is `none`. The bytes accessed are recorded.
-/

namespace SampleRtos

open Bytes

/-- The variables of `rt_strncpy`, the memory, and the addresses read and written so far. -/
structure Strncpy where
  mem : Mem
  d : Addr
  s : Addr
  n : BitVec 32
  reads : List Addr
  writes : List Addr

namespace Strncpy

/-- `*d++ = *s++`. -/
def copyByte (c : Strncpy) : Strncpy :=
  { c with
    mem := c.mem.setByte c.d (c.mem c.s)
    d := c.d + 1
    s := c.s + 1
    reads := c.reads ++ [c.s]
    writes := c.writes ++ [c.d] }

/-- `*d++ = 0`. -/
def padByte (c : Strncpy) : Strncpy :=
  { c with mem := c.mem.setByte c.d 0, d := c.d + 1, writes := c.writes ++ [c.d] }

/-- `--n`. -/
def decrement (c : Strncpy) : Strncpy := { c with n := c.n - 1 }

/-- `while (--n != 0) *d++ = 0;` -/
def padLoop : Nat → Strncpy → Option Strncpy
  | 0, _ => none
  | fuel + 1, c =>
      let c := c.decrement
      if c.n ≠ 0 then padLoop fuel c.padByte else some c

/-- The `do` loop. -/
def copyLoop : Nat → Strncpy → Option Strncpy
  | 0, _ => none
  | fuel + 1, c =>
      let b := c.mem c.s
      let c := c.copyByte
      if b = 0 then padLoop fuel c
      else
        let c := c.decrement
        if c.n ≠ 0 then copyLoop fuel c else some c

end Strncpy

/-- `rt_strncpy`, with the address it returns. -/
def rtStrncpy (fuel : Nat) (mem : Mem) (dst src : Addr) (n : BitVec 32) :
    Option (Addr × Strncpy) := do
  let c := { mem, d := dst, s := src, n, reads := [], writes := [] }
  let c ← (if n ≠ 0 then Strncpy.copyLoop fuel c else some c)
  return (dst, c)

/-! ## Addresses -/

/-- The `n` addresses from `a` upwards. -/
def addrs (a : Addr) (n : Nat) : List Addr := (List.range n).map fun i => a + BitVec.ofNat 32 i

theorem addrs_succ (a : Addr) (n : Nat) :
    addrs a (n + 1) = addrs a n ++ [a + BitVec.ofNat 32 n] := by
  simp [addrs, List.range_succ]

theorem addrs_append (a : Addr) (n k : Nat) :
    addrs a n ++ addrs (a + BitVec.ofNat 32 n) k = addrs a (n + k) := by
  rw [addrs, addrs, addrs, List.range_add, List.map_append, List.map_map]
  congr 1
  refine List.map_congr_left fun i _ => ?_
  simp only [Function.comp_apply, BitVec.ofNat_add, BitVec.add_assoc]

/-! ## Padding -/

/-- `k` zero bytes are written and the counter ends at 0. -/
theorem padLoop_eq {k : Nat} : ∀ {fuel : Nat} {c : Strncpy}, c.n.toNat = k + 1 → k < fuel →
    Strncpy.padLoop fuel c = some
      { mem := c.mem.fill c.d k 0
        d := c.d + BitVec.ofNat 32 k
        s := c.s
        n := 0
        reads := c.reads
        writes := c.writes ++ addrs c.d k } := by
  induction k with
  | zero =>
    intro fuel c hn hfuel
    obtain ⟨fuel, rfl⟩ : ∃ f, fuel = f + 1 := ⟨fuel - 1, by omega⟩
    have hzero : c.n - 1 = 0 := by bv_omega
    rw [Strncpy.padLoop]
    simp only [Strncpy.decrement, hzero]
    simp [addrs]
  | succ k ih =>
    intro fuel c hn hfuel
    obtain ⟨fuel, rfl⟩ : ∃ f, fuel = f + 1 := ⟨fuel - 1, by omega⟩
    have hn' : (c.n - 1).toNat = k + 1 := by bv_omega
    have hne : c.n - 1 ≠ 0 := by
      intro hzero
      rw [hzero] at hn'
      simp at hn'
    have hlt := c.n.isLt
    have hd : c.d + 1 + BitVec.ofNat 32 k = c.d + BitVec.ofNat 32 (k + 1) := by
      rw [BitVec.ofNat_add, BitVec.add_assoc, BitVec.add_comm (BitVec.ofNat 32 k)]
      rfl
    have hone : addrs c.d 1 = [c.d] := by simp [addrs]
    have hlist : c.writes ++ [c.d] ++ addrs (c.d + 1) k = c.writes ++ addrs c.d (k + 1) := by
      rw [List.append_assoc, Nat.add_comm k 1, ← addrs_append, hone]
      rfl
    rw [Strncpy.padLoop]
    simp only [Strncpy.decrement, ne_eq, hne, not_false_eq_true, if_true]
    rw [ih (c := Strncpy.padByte { c with n := c.n - 1 }) hn' (by omega)]
    simp only [Strncpy.padByte, hd, hlist, Mem.fill_setByte]

/-! ## Copying -/

section Copy
variable {m : Mem} {dst src : Addr} {n : BitVec 32} {i size : Nat} {c : Strncpy}

/-- The source is `size` bytes long: they contain a NUL, or are as many as are asked for. -/
def Readable (m : Mem) (src : Addr) (n : BitVec 32) (size : Nat) : Prop :=
  (∃ j < size, m (src + BitVec.ofNat 32 j) = 0) ∨ n.toNat ≤ size

/-- The destination does not start within the source, unless at its start. -/
def Clear (dst src : Addr) (size : Nat) : Prop := dst = src ∨ size ≤ (dst - src).toNat

/-- `i` bytes have been copied from a memory `m`; from a source the destination keeps clear
of, they are the first `i` bytes of it and none was a NUL. -/
structure Copied (m : Mem) (dst src : Addr) (n : BitVec 32) (i : Nat) (c : Strncpy) : Prop where
  d : c.d = dst + BitVec.ofNat 32 i
  s : c.s = src + BitVec.ofNat 32 i
  count : c.n.toNat + i = n.toNat
  reads : c.reads = addrs src i
  writes : c.writes = addrs dst i
  frame : ∀ x, i ≤ (x - dst).toNat → c.mem x = m x
  bytes : ∀ {size}, Readable m src n size → Clear dst src size → ∀ j < i,
    c.mem (dst + BitVec.ofNat 32 j) = m (src + BitVec.ofNat 32 j) ∧
      m (src + BitVec.ofNat 32 j) ≠ 0

/-- The copy from a memory `m` is complete. -/
structure Finished (m : Mem) (dst src : Addr) (n : BitVec 32) (c : Strncpy) : Prop where
  writes : c.writes = addrs dst n.toNat
  frame : ∀ x, n.toNat ≤ (x - dst).toNat → c.mem x = m x
  reads : ∃ r ≤ n.toNat, c.reads = addrs src r ∧
    ∀ {size}, Readable m src n size → Clear dst src size →
      r ≤ size ∧ ∀ j, m (src + BitVec.ofNat 32 j) = 0 → r ≤ j + 1
  bytes : ∀ {size}, Readable m src n size → Clear dst src size → ∀ i < n.toNat,
    c.mem (dst + BitVec.ofNat 32 i) =
      if ∃ j ≤ i, m (src + BitVec.ofNat 32 j) = 0 then 0 else m (src + BitVec.ofNat 32 i)

namespace Copied

theorem start (m : Mem) (dst src : Addr) (n : BitVec 32) :
    Copied m dst src n 0 { mem := m, d := dst, s := src, n, reads := [], writes := [] } where
  d := by simp
  s := by simp
  count := rfl
  reads := rfl
  writes := rfl
  frame _ _ := rfl
  bytes _ _ j hj := absurd hj (Nat.not_lt_zero j)

/-- The next byte lies within the source. -/
theorem lt_size (h : Copied m dst src n i c) (hpos : 0 < c.n.toNat)
    (hread : Readable m src n size) (hclear : Clear dst src size) : i < size := by
  rcases hread with ⟨j, hj, hzero⟩ | hn
  · by_contra hge
    exact (h.bytes (.inl ⟨j, hj, hzero⟩) hclear j (by omega)).2 hzero
  · have hcount := h.count
    omega

/-- The next byte has not been overwritten. -/
theorem next_byte (h : Copied m dst src n i c) (hpos : 0 < c.n.toNat)
    (hread : Readable m src n size) (hclear : Clear dst src size) :
    c.mem c.s = m (src + BitVec.ofNat 32 i) := by
  have hlt := h.lt_size hpos hread hclear
  have hcount := h.count
  have hn := n.isLt
  rw [h.s]
  -- what has been written ends before `dst + i`, and the byte at `src + i` is not in it
  refine h.frame _ ?_
  rcases hclear with rfl | hsize
  · bv_omega
  · bv_omega

/-- One byte more, and whether it was a NUL. -/
theorem copyByte (h : Copied m dst src n i c) (hpos : 0 < c.n.toNat) :
    c.copyByte.d = dst + BitVec.ofNat 32 (i + 1) ∧ c.copyByte.s = src + BitVec.ofNat 32 (i + 1) ∧
      c.copyByte.reads = addrs src (i + 1) ∧ c.copyByte.writes = addrs dst (i + 1) ∧
      (∀ x, i + 1 ≤ (x - dst).toNat → c.copyByte.mem x = m x) ∧
      ∀ {size}, Readable m src n size → Clear dst src size →
        i < size ∧ c.mem c.s = m (src + BitVec.ofNat 32 i) ∧
        ∀ j < i + 1, c.copyByte.mem (dst + BitVec.ofNat 32 j) = m (src + BitVec.ofNat 32 j) := by
  have hcount := h.count
  have hn := n.isLt
  refine ⟨?_, ?_, ?_, ?_, fun x hx => ?_, fun hread hclear => ⟨h.lt_size hpos hread hclear,
    h.next_byte hpos hread hclear, fun j hj => ?_⟩⟩
  · simp only [Strncpy.copyByte, h.d, BitVec.ofNat_add, BitVec.add_assoc]
    rfl
  · simp only [Strncpy.copyByte, h.s, BitVec.ofNat_add, BitVec.add_assoc]
    rfl
  · simp only [Strncpy.copyByte, h.reads, h.s, addrs_succ]
  · simp only [Strncpy.copyByte, h.writes, h.d, addrs_succ]
  · have hne : x ≠ c.d := by
      rw [h.d]
      rintro rfl
      bv_omega
    simp only [Strncpy.copyByte]
    rw [Mem.setByte_of_ne _ _ hne]
    exact h.frame x (by omega)
  · simp only [Strncpy.copyByte]
    by_cases hji : j = i
    · subst hji
      rw [← h.d, Mem.setByte_self, h.next_byte hpos hread hclear]
    · have hne : dst + BitVec.ofNat 32 j ≠ c.d := by
        rw [h.d]
        bv_omega
      rw [Mem.setByte_of_ne _ _ hne]
      exact (h.bytes hread hclear j (by omega)).1

/-- A byte that was no NUL has been copied. -/
theorem next (h : Copied m dst src n i c) (hpos : 0 < c.n.toNat) (hb : c.mem c.s ≠ 0) :
    Copied m dst src n (i + 1) c.copyByte.decrement := by
  obtain ⟨hd, hs, hreads, hwrites, hframe, hbytes⟩ := h.copyByte hpos
  have hcount := h.count
  refine ⟨hd, hs, ?_, hreads, hwrites, hframe, fun hread hclear j hj => ?_⟩
  · show (c.n - 1).toNat + (i + 1) = n.toNat
    bv_omega
  · obtain ⟨-, hnext, hcopied⟩ := hbytes hread hclear
    refine ⟨hcopied j hj, ?_⟩
    by_cases hji : j = i
    · rw [hji, ← hnext]; exact hb
    · exact (h.bytes hread hclear j (by omega)).2

/-- Every byte asked for has been copied. -/
theorem finished (h : Copied m dst src n i c) (hi : i = n.toNat) : Finished m dst src n c where
  writes := hi ▸ h.writes
  frame := hi ▸ h.frame
  reads := by
    refine ⟨i, hi.le, h.reads, fun hread hclear => ?_⟩
    have hnul : ∀ j, m (src + BitVec.ofNat 32 j) = 0 → i ≤ j := by
      intro j hj
      by_contra hlt
      exact (h.bytes hread hclear j (by omega)).2 hj
    refine ⟨?_, fun j hj => Nat.le_succ_of_le (hnul j hj)⟩
    rcases hread with ⟨j, hj, hzero⟩ | hn
    · exact (hnul j hzero).trans hj.le
    · omega
  bytes hread hclear k hk := by
    rw [if_neg, (h.bytes hread hclear k (by omega)).1]
    rintro ⟨j, hj, hzero⟩
    exact (h.bytes hread hclear j (by omega)).2 hzero

/-- After a NUL the rest is padding. -/
theorem padded (h : Copied m dst src n i c) {k : Nat} (hk : c.n.toNat = k + 1)
    (hb : c.mem c.s = 0) :
    Finished m dst src n
      { c.copyByte with
        mem := c.copyByte.mem.fill c.copyByte.d k 0
        d := c.copyByte.d + BitVec.ofNat 32 k
        n := 0
        writes := c.copyByte.writes ++ addrs c.copyByte.d k } := by
  obtain ⟨hd, hs, hreads, hwrites, hframe, hbytes⟩ := h.copyByte (by omega)
  have hcount := h.count
  have hn := n.isLt
  refine ⟨?_, fun x hx => ?_, ⟨i + 1, by omega, hreads, fun hread hclear => ?_⟩,
    fun hread hclear j hj => ?_⟩
  · simp only [hwrites, hd, addrs_append]
    congr 1
    omega
  · simp only [hd]
    rw [Mem.fill_of_out _ _ (by bv_omega)]
    exact hframe x (by omega)
  · refine ⟨(hbytes hread hclear).1, fun j hj => ?_⟩
    by_contra hlt
    exact (h.bytes hread hclear j (by omega)).2 hj
  · obtain ⟨-, hnext, hcopied⟩ := hbytes hread hclear
    have hzero : m (src + BitVec.ofNat 32 i) = 0 := hnext ▸ hb
    simp only [hd]
    by_cases hji : j ≤ i
    · -- copied, the NUL at `i` included
      rw [Mem.fill_of_out _ _ (by bv_omega), hcopied j (by omega)]
      split
      · rename_i hnul
        obtain ⟨j', hj', hzero'⟩ := hnul
        have hij : j = i := by
          by_contra hne
          exact (h.bytes hread hclear j' (by omega)).2 hzero'
        rw [hij, hzero]
      · rfl
    · -- padded
      rw [Mem.fill_of_lt _ _ (by bv_omega), if_pos ⟨i, by omega, hzero⟩]

end Copied

/-- The round that copies a NUL hands over to the other loop, which ends. -/
theorem copyLoop_nul {k : Nat} (h : Copied m dst src n i c) (hk : c.n.toNat = k + 1)
    (hb : c.mem c.s = 0) :
    ∃ c', (∀ fuel, k + 1 < fuel → Strncpy.copyLoop fuel c = some c') ∧ Finished m dst src n c' := by
  refine ⟨_, fun fuel hfuel => ?_, h.padded hk hb⟩
  obtain ⟨fuel, rfl⟩ : ∃ f, fuel = f + 1 := ⟨fuel - 1, by omega⟩
  rw [Strncpy.copyLoop, if_pos hb]
  -- the counter is as it was: this round leaves the loop before its decrement
  exact padLoop_eq (c := c.copyByte) hk (by omega)

/-- The loop ends, with everything done. -/
theorem copyLoop_finished {k : Nat} : ∀ {i : Nat} {c : Strncpy}, Copied m dst src n i c →
    c.n.toNat = k + 1 →
      ∃ c', (∀ fuel, k + 1 < fuel → Strncpy.copyLoop fuel c = some c') ∧
        Finished m dst src n c' := by
  induction k with
  | zero =>
    intro i c h hk
    by_cases hb : c.mem c.s = 0
    · exact copyLoop_nul h hk hb
    · have hlast : c.copyByte.decrement.n = 0 := by
        show c.n - 1 = 0
        bv_omega
      have hcount := h.count
      refine ⟨_, fun fuel hfuel => ?_, (h.next (by omega) hb).finished (by omega)⟩
      obtain ⟨fuel, rfl⟩ : ∃ f, fuel = f + 1 := ⟨fuel - 1, by omega⟩
      rw [Strncpy.copyLoop, if_neg hb, if_neg (by simpa using hlast)]
  | succ k ih =>
    intro i c h hk
    by_cases hb : c.mem c.s = 0
    · exact copyLoop_nul h hk hb
    · have hmore : c.copyByte.decrement.n.toNat = k + 1 := by
        show (c.n - 1).toNat = k + 1
        bv_omega
      have hne : c.copyByte.decrement.n ≠ 0 := by
        intro hzero
        rw [hzero] at hmore
        simp at hmore
      obtain ⟨c', hrun, hdone⟩ := ih (h.next (by omega) hb) hmore
      refine ⟨c', fun fuel hfuel => ?_, hdone⟩
      obtain ⟨fuel, rfl⟩ : ∃ f, fuel = f + 1 := ⟨fuel - 1, by omega⟩
      rw [Strncpy.copyLoop, if_neg hb, if_pos hne]
      exact hrun fuel (by omega)

/-- `rt_strncpy` ends within `n` rounds, wherever source and destination lie. -/
theorem rtStrncpy_finished (m : Mem) (dst src : Addr) (n : BitVec 32) :
    ∃ c, (∀ fuel, n.toNat < fuel → rtStrncpy fuel m dst src n = some (dst, c)) ∧
      Finished m dst src n c := by
  by_cases hn : n = 0
  · subst hn
    refine ⟨_, fun fuel _ => ?_, (Copied.start m dst src 0).finished rfl⟩
    simp [rtStrncpy]
  · have hpos : 0 < n.toNat := by
      by_contra hzero
      exact hn (BitVec.eq_of_toNat_eq (by simpa using hzero))
    obtain ⟨k, hk⟩ : ∃ k, n.toNat = k + 1 := ⟨n.toNat - 1, by omega⟩
    obtain ⟨c, hrun, hdone⟩ := copyLoop_finished (Copied.start m dst src n) hk
    refine ⟨c, fun fuel hfuel => ?_, hdone⟩
    simp only [rtStrncpy, if_pos hn, hrun fuel (by omega), Option.bind_eq_bind, Option.bind_some,
      Option.pure_def]

theorem mem_addrs {a x : Addr} {k : Nat} (hx : x ∈ addrs a k) : (x - a).toNat < k := by
  obtain ⟨i, hi, rfl⟩ := List.mem_map.mp hx
  have hik := List.mem_range.mp hi
  bv_omega

end Copy

/-! ## Names -/

def RT_NAME_MAX : BitVec 32 := 8

/-- Where a field of this alignment comes to lie behind fields of these sizes and
alignments. -/
def fieldOffset (fields : List (Nat × Nat)) (align : Nat) : Nat :=
  let up (o align : Nat) := (o + align - 1) / align * align
  up (fields.foldl (fun o f => up o f.2 + f.1) 0) align

/-- `struct rt_thread` up to `thread_timer`: `name`, `type`, `flags`, `list`, `tlist`, `sp`,
`entry`, `parameter`, `stack_addr`, `stack_size`, `init_tick`, `remaining_tick`, `cleanup`,
`current_priority`, `init_priority`, `number_mask`, `error`, `stat`. -/
def rtThreadFields : List (Nat × Nat) :=
  [(RT_NAME_MAX.toNat, 1), (1, 1), (1, 1), (8, 4), (8, 4), (4, 4), (4, 4), (4, 4), (4, 4), (4, 4),
    (4, 4), (4, 4), (4, 4), (1, 1), (1, 1), (4, 4), (4, 4), (1, 1)]

/-- `&thread->thread_timer`, which begins with its object and that with its name. -/
def threadTimerAddr (thread : Addr) : Addr :=
  thread + BitVec.ofNat 32 (fieldOffset rtThreadFields 4)

example : fieldOffset rtThreadFields 4 = 76 := by decide

/-- The name of `rt_object_init`. -/
def rtObjectInitName (fuel : Nat) (mem : Mem) (object name : Addr) : Option (Addr × Strncpy) :=
  rtStrncpy fuel mem object name RT_NAME_MAX

/-- The timer's name in `rt_thread_init`: `rt_timer_init` passes `thread->name` on. -/
def rtThreadInitTimerName (fuel : Nat) (mem : Mem) (thread : Addr) : Option (Addr × Strncpy) :=
  rtObjectInitName fuel mem (threadTimerAddr thread) thread

/-- The name fields of a thread and of the timer in it do not overlap. -/
theorem threadTimer_clear (thread : Addr) :
    Clear (threadTimerAddr thread) thread RT_NAME_MAX.toNat := by
  have hdist : threadTimerAddr thread - thread = 76 := by
    rw [threadTimerAddr, BitVec.add_comm, BitVec.add_sub_cancel]
    decide
  exact .inr (by rw [hdist]; decide)

/-- **Bounded string copy.** For every memory, destination, source and `n`, `rt_strncpy` ends
and returns `dst`; it has written the first `n` bytes of the destination, each once and in
order, and nothing else, and read at most the first `n` of the source. Of a source that
contains a NUL or has `n` bytes, and that the destination keeps clear of, it has read nothing
beyond the first NUL or the end, and what it has written are the bytes before the first NUL,
up to `n`, and NULs after them. So a thread's name, with a NUL or without, is copied into the
name of the timer in it, and nothing outside the two fields is read or written. -/
theorem strncpy_bounded (m : Mem) :
    (∀ (dst src : Addr) (n : BitVec 32), ∃ c,
      (∀ fuel, n.toNat < fuel → rtStrncpy fuel m dst src n = some (dst, c)) ∧
        Finished m dst src n c) ∧
      ∀ thread : Addr, ∃ c,
        (∀ fuel, RT_NAME_MAX.toNat < fuel →
          rtThreadInitTimerName fuel m thread = some (threadTimerAddr thread, c)) ∧
        (∀ a ∈ c.reads, (a - thread).toNat < RT_NAME_MAX.toNat) ∧
        (∀ a ∈ c.writes, (a - threadTimerAddr thread).toNat < RT_NAME_MAX.toNat) ∧
        (∀ a, RT_NAME_MAX.toNat ≤ (a - threadTimerAddr thread).toNat → c.mem a = m a) ∧
        ∀ i < RT_NAME_MAX.toNat, c.mem (threadTimerAddr thread + BitVec.ofNat 32 i) =
          if ∃ j ≤ i, m (thread + BitVec.ofNat 32 j) = 0 then 0
          else m (thread + BitVec.ofNat 32 i) := by
  refine ⟨rtStrncpy_finished m, fun thread => ?_⟩
  obtain ⟨c, hrun, hdone⟩ := rtStrncpy_finished m (threadTimerAddr thread) thread RT_NAME_MAX
  have hread : Readable m thread RT_NAME_MAX RT_NAME_MAX.toNat := .inr le_rfl
  have hclear := threadTimer_clear thread
  obtain ⟨r, -, hreads, hbound⟩ := hdone.reads
  refine ⟨c, hrun, fun a ha => ?_, fun a ha => ?_, hdone.frame, hdone.bytes hread hclear⟩
  · rw [hreads] at ha
    exact (mem_addrs ha).trans_le (hbound hread hclear).1
  · rw [hdone.writes] at ha
    exact mem_addrs ha

/-- The string "a" at 0x20000000. -/
def oneLetter : Mem := fun a => if a = 0x20000000 then 97 else 0

/-- To a destination that starts one byte into the source: the letter overwrites the NUL behind
it and is copied once more. -/
theorem overlap_overwrites_nul : ¬ ∀ (m : Mem) (dst src : Addr) (n : BitVec 32) (size : Nat),
    Readable m src n size → ∀ fuel c, rtStrncpy fuel m dst src n = some (dst, c) →
      ∀ i < n.toNat, c.mem (dst + BitVec.ofNat 32 i) =
        if ∃ j ≤ i, m (src + BitVec.ofNat 32 j) = 0 then 0 else m (src + BitVec.ofNat 32 i) := by
  intro hclaim
  have hread : Readable oneLetter 0x20000000 2 2 := .inl ⟨1, by decide, by decide⟩
  have hcopied : (rtStrncpy 3 oneLetter 0x20000001 0x20000000 2).map
      (fun r => (r.1, r.2.mem 0x20000002)) = some (0x20000001, 97) := by decide
  obtain ⟨⟨d, c⟩, hrun, hresult⟩ := Option.map_eq_some_iff.mp hcopied
  obtain ⟨rfl, hbyte⟩ := Prod.mk.inj hresult
  have hclaimed := hclaim oneLetter 0x20000001 0x20000000 2 2 hread 3 c hrun 1 (by decide)
  rw [if_pos ⟨1, le_rfl, by decide⟩] at hclaimed
  have hzero : c.mem 0x20000002 = 0 := hclaimed
  rw [hbyte] at hzero
  exact absurd hzero (by decide)

end SampleRtos
