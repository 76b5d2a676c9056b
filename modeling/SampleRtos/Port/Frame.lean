import SampleRtos.Lib.Bytes
import SampleRtos.Port.Switch
import Mathlib.Order.Bounds.Basic

/-!
# The first frame, byte by byte

`rt_hw_stack_init` on byte-addressed memory with 32-bit pointers, as `rt_thread_init`
calls it, and the registers that `PendSV_Handler` and the exception return after it load
from the frame. Port/Defs has the same function on memory of words, for stacks that end
at a word; `rtHwStackInit_words` says that the two agree there.
-/

namespace SampleRtos

open Bytes

/-! ## cpuport.c -/

/-- `RT_ALIGN_DOWN(size, align)`. -/
def rtAlignDown (size align : Word) : Word := size &&& ~~~(align - 1)

/-- The loop that fills the frame at `stk`, after `count` rounds. -/
def fillFrame (m : Mem) (stk : Addr) (count : Nat) : Mem :=
  (List.range count).foldl (fun m i => m.store32 (stk + BitVec.ofNat 32 (4 * i)) 0xdeadbeef) m

/-- `rt_hw_stack_init`. The exception frame lies behind `r4` to `r11`. -/
def rtHwStackInitBytes (tentry parameter : Word) (stackAddr : Addr) (m : Mem) : Mem × Addr :=
  let stk := stackAddr + 4
  let stk := rtAlignDown stk 8
  let stk := stk - 64
  let m := fillFrame m stk (64 / 4)
  let m := m.store32 (stk + 32) parameter
  let m := m.store32 (stk + 36) 0
  let m := m.store32 (stk + 40) 0
  let m := m.store32 (stk + 44) 0
  let m := m.store32 (stk + 48) 0
  let m := m.store32 (stk + 52) 0
  let m := m.store32 (stk + 56) tentry
  let m := m.store32 (stk + 60) 0x01000000
  (m, stk)

/-- The stack of `rt_thread_init`, with the `sp` it stores. -/
def rtThreadInitStack (tentry parameter : Word) (stackStart : Addr) (stackSize : Word)
    (m : Mem) : Mem × Addr :=
  rtHwStackInitBytes tentry parameter (stackStart + stackSize - 4) m

/-! ## context_rvde.s -/

/-- The registers of a thread. -/
structure CoreRegisters where
  r0 : Word
  r1 : Word
  r2 : Word
  r3 : Word
  r4 : Word
  r5 : Word
  r6 : Word
  r7 : Word
  r8 : Word
  r9 : Word
  r10 : Word
  r11 : Word
  r12 : Word
  lr : Word
  pc : Word
  psr : Word
  psp : Addr

namespace CoreRegisters

/-- `LDMFD r1!, {r4 - r11}`. -/
def ldmfd (c : CoreRegisters) (m : Mem) : CoreRegisters :=
  { c with
    r4 := m.load32 c.r1
    r5 := m.load32 (c.r1 + 4)
    r6 := m.load32 (c.r1 + 8)
    r7 := m.load32 (c.r1 + 12)
    r8 := m.load32 (c.r1 + 16)
    r9 := m.load32 (c.r1 + 20)
    r10 := m.load32 (c.r1 + 24)
    r11 := m.load32 (c.r1 + 28)
    r1 := c.r1 + 32 }

/-- `MSR psp, r1`. -/
def msrPsp (c : CoreRegisters) : CoreRegisters := { c with psp := c.r1 }

/-- The hardware's exception return on the process stack. With `CCR.STKALIGN` set a frame
whose `psr` has bit 9 set was pushed four bytes lower than the stack pointer stood. -/
def exceptionReturn (c : CoreRegisters) (m : Mem) (stkalign : Bool) : CoreRegisters :=
  let psr := m.load32 (c.psp + 28)
  { c with
    r0 := m.load32 c.psp
    r1 := m.load32 (c.psp + 4)
    r2 := m.load32 (c.psp + 8)
    r3 := m.load32 (c.psp + 12)
    r12 := m.load32 (c.psp + 16)
    lr := m.load32 (c.psp + 20)
    pc := m.load32 (c.psp + 24)
    psr
    psp := if stkalign ∧ psr.getLsbD 9 = true then (c.psp + 32) ||| 4 else c.psp + 32 }

/-- `PendSV_Handler` from `switch_to_thread` on, the thread's `sp` being in `r1`. -/
def switchToThread (c : CoreRegisters) (m : Mem) (sp : Addr) (stkalign : Bool) : CoreRegisters :=
  ((({ c with r1 := sp }).ldmfd m).msrPsp).exceptionReturn m stkalign

end CoreRegisters

/-! ## Addresses -/

theorem rtAlignDown_eight (x : Word) : (rtAlignDown x 8).toNat = x.toNat / 8 * 8 := by
  have hshift : rtAlignDown x 8 = (x >>> 3) <<< 3 := by
    refine BitVec.eq_of_getLsbD_eq fun i hi => ?_
    have hmask : ∀ i : Fin 32, (~~~((8 : Word) - 1)).getLsbD i.val = decide (3 ≤ i.val) := by decide
    have hbit := hmask ⟨i, hi⟩
    simp only at hbit
    rw [rtAlignDown, BitVec.getLsbD_and, hbit, BitVec.getLsbD_shiftLeft, BitVec.getLsbD_ushiftRight]
    by_cases h3 : 3 ≤ i
    · simp [h3, hi, show 3 + (i - 3) = i by omega, show ¬ i < 3 by omega]
    · simp [h3, show i < 3 by omega]
  rw [hshift, BitVec.toNat_shiftLeft, BitVec.toNat_ushiftRight, Nat.shiftLeft_eq,
    Nat.shiftRight_eq_div_pow]
  have hx := x.isLt
  omega

/-- The frame of a stack that ends at `top`, which may be the end of the address space. -/
theorem frame_addr {stackAddr : Addr} {top : Nat} (hend : stackAddr + 4 = BitVec.ofNat 32 top)
    (hroom : 64 ≤ top) (htop : top ≤ 2 ^ 32) :
    (rtAlignDown (stackAddr + 4) 8 - 64).toNat + 64 = top / 8 * 8 := by
  have halign := rtAlignDown_eight (stackAddr + 4)
  have hlit : (64 : Word).toNat = 64 := rfl
  rw [BitVec.toNat_sub, halign, hend, BitVec.toNat_ofNat, hlit]
  omega

/-! ## The frame -/

section Frame
variable {m : Mem} {stk x : Addr} {count : Nat}

theorem fillFrame_succ (m : Mem) (stk : Addr) (count : Nat) : fillFrame m stk (count + 1) =
    (fillFrame m stk count).store32 (stk + BitVec.ofNat 32 (4 * count)) 0xdeadbeef := by
  simp [fillFrame, List.range_succ]

theorem fillFrame_load (hcount : count ≤ 16) {i : Nat} (hi : i < count) :
    (fillFrame m stk count).load32 (stk + BitVec.ofNat 32 (4 * i)) = 0xdeadbeef := by
  induction count with
  | zero => omega
  | succ count ih =>
    rw [fillFrame_succ]
    by_cases heq : i = count
    · rw [heq, Mem.load32_store32]
    · rw [Mem.load32_store32_offset _ _ _ (by constructor <;> bv_omega)]
      exact ih (by omega) (by omega)

theorem fillFrame_of_out (hcount : count ≤ 16) (hx : 64 ≤ (x - stk).toNat) :
    fillFrame m stk count x = m x := by
  induction count with
  | zero => rfl
  | succ count ih =>
    rw [fillFrame_succ, Mem.store32_offset_of_out (k := 64) _ _ _ (by bv_omega) hx]
    exact ih (by omega)

variable (tentry parameter : Word) (stackAddr : Addr)

/-- `rt_hw_stack_init` writes the 64 bytes from the `sp` it returns upwards only. -/
theorem stackInit_of_out {x : Addr}
    (hx : 64 ≤ (x - (rtHwStackInitBytes tentry parameter stackAddr m).2).toNat) :
    (rtHwStackInitBytes tentry parameter stackAddr m).1 x = m x := by
  simp only [rtHwStackInitBytes] at hx ⊢
  generalize rtAlignDown (stackAddr + 4) 8 - 64 = stk at hx ⊢
  have hout : ∀ (m : Mem) (i v : Word), i.toNat + 4 ≤ 64 → m.store32 (stk + i) v x = m x :=
    fun m i v hi => m.store32_offset_of_out stk v hi hx
  simp (disch := decide) only [hout]
  exact fillFrame_of_out (by decide) hx

/-- The half of the frame that `PendSV_Handler` loads. -/
theorem stackInit_high {i : Nat} (hi : i < 8) :
    (rtHwStackInitBytes tentry parameter stackAddr m).1.load32
      ((rtHwStackInitBytes tentry parameter stackAddr m).2 + BitVec.ofNat 32 (4 * i)) =
      0xdeadbeef := by
  simp only [rtHwStackInitBytes]
  generalize rtAlignDown (stackAddr + 4) 8 - 64 = stk
  have hbelow : ∀ (m : Mem) (j v : Word), 32 ≤ j.toNat ∧ j.toNat ≤ 60 →
      (m.store32 (stk + j) v).load32 (stk + BitVec.ofNat 32 (4 * i)) =
        m.load32 (stk + BitVec.ofNat 32 (4 * i)) := by
    intro m j v ⟨hlo, hhi⟩
    refine m.load32_store32_offset stk v ⟨?_, ?_⟩ <;> bv_omega
  simp (disch := decide) only [hbelow]
  exact fillFrame_load (by decide) (by omega)

/-- The half behind it, which the exception return pops. -/
theorem stackInit_low :
    let (m', stk) := rtHwStackInitBytes tentry parameter stackAddr m
    let psp := stk + 32
    m'.load32 psp = parameter ∧ m'.load32 (psp + 4) = 0 ∧ m'.load32 (psp + 8) = 0 ∧
      m'.load32 (psp + 12) = 0 ∧ m'.load32 (psp + 16) = 0 ∧ m'.load32 (psp + 20) = 0 ∧
      m'.load32 (psp + 24) = tentry ∧ m'.load32 (psp + 28) = 0x01000000 := by
  simp only [rtHwStackInitBytes]
  generalize rtAlignDown (stackAddr + 4) 8 - 64 = stk
  have happart : ∀ (m : Mem) (i j v : Word), 4 ≤ (j - i).toNat ∧ 4 ≤ (i - j).toNat →
      (m.store32 (stk + i) v).load32 (stk + j) = m.load32 (stk + j) :=
    fun m _ _ v h => m.load32_store32_offset stk v h
  have hoff : ∀ j k : Word, 32 + j = k → stk + 32 + j = stk + k := by
    rintro j k rfl
    exact BitVec.add_assoc _ _ _
  rw [hoff 4 36 rfl, hoff 8 40 rfl, hoff 12 44 rfl, hoff 16 48 rfl, hoff 20 52 rfl, hoff 24 56 rfl,
    hoff 28 60 rfl]
  simp (disch := decide) only [happart, Mem.load32_store32, and_self]

/-- What `PendSV_Handler` and the exception return load from the first frame. -/
theorem switchToThread_first (c : CoreRegisters) (stkalign : Bool) :
    let (m', stk) := rtHwStackInitBytes tentry parameter stackAddr m
    let c' := c.switchToThread m' stk stkalign
    c'.r0 = parameter ∧ c'.pc = tentry ∧ c'.psr = 0x01000000 ∧ c'.psp = stk + 64 ∧
      (∀ r ∈ [c'.r4, c'.r5, c'.r6, c'.r7, c'.r8, c'.r9, c'.r10, c'.r11], r = 0xdeadbeef) ∧
      ∀ r ∈ [c'.r1, c'.r2, c'.r3, c'.r12, c'.lr], r = 0 := by
  have hlow := stackInit_low (m := m) tentry parameter stackAddr
  have hhigh := fun {i : Nat} (hi : i < 8) =>
    stackInit_high (m := m) tentry parameter stackAddr hi
  generalize rtHwStackInitBytes tentry parameter stackAddr m = result at hlow hhigh
  obtain ⟨m', stk⟩ := result
  obtain ⟨hr0, hr1, hr2, hr3, hr12, hlr, hpc, hpsr⟩ := hlow
  have h4 : m'.load32 stk = 0xdeadbeef := by simpa using hhigh (i := 0) (by decide)
  have h5 : m'.load32 (stk + 4) = 0xdeadbeef := hhigh (i := 1) (by decide)
  have h6 : m'.load32 (stk + 8) = 0xdeadbeef := hhigh (i := 2) (by decide)
  have h7 : m'.load32 (stk + 12) = 0xdeadbeef := hhigh (i := 3) (by decide)
  have h8 : m'.load32 (stk + 16) = 0xdeadbeef := hhigh (i := 4) (by decide)
  have h9 : m'.load32 (stk + 20) = 0xdeadbeef := hhigh (i := 5) (by decide)
  have h10 : m'.load32 (stk + 24) = 0xdeadbeef := hhigh (i := 6) (by decide)
  have h11 : m'.load32 (stk + 28) = 0xdeadbeef := hhigh (i := 7) (by decide)
  have hbit : (0x01000000 : Word).getLsbD 9 = false := by decide
  have hpsp : stk + 32 + 32 = stk + 64 := BitVec.add_assoc _ _ _
  simp only [CoreRegisters.switchToThread, CoreRegisters.ldmfd, CoreRegisters.msrPsp,
    CoreRegisters.exceptionReturn, hr0, hr1, hr2, hr3, hr12, hlr, hpc, hpsr, h4, h5, h6, h7, h8, h9,
    h10, h11, hbit, Bool.false_eq_true, and_false, if_false, hpsp, true_and]
  constructor <;> simp

/-- What the exception return pops is the exception frame of Port/Defs. -/
theorem stackInit_frame (j : Fin 8) :
    let (m', stk) := rtHwStackInitBytes tentry parameter stackAddr m
    m'.load32 (stk + 32 + BitVec.ofNat 32 (4 * j.val)) = initialFrame tentry parameter j := by
  have hlow := stackInit_low (m := m) tentry parameter stackAddr
  generalize rtHwStackInitBytes tentry parameter stackAddr m = result at hlow ⊢
  obtain ⟨m', stk⟩ := result
  obtain ⟨hr0, hr1, hr2, hr3, hr12, hlr, hpc, hpsr⟩ := hlow
  match j with
  | 0 => simpa [initialFrame] using hr0
  | 1 => exact hr1
  | 2 => exact hr2
  | 3 => exact hr3
  | 4 => exact hr12
  | 5 => exact hlr
  | 6 => exact hpc
  | 7 => exact hpsr

end Frame

/-! ## The frame in words -/

/-- Memory read word by word. -/
def wordsOf (m : Mem) : Memory := fun i => m.load32 (BitVec.ofNat 32 (4 * i))

theorem wordsOf_congr {m m' : Mem} {i : Nat}
    (h : ∀ k : Word, k.toNat < 4 →
      m' (BitVec.ofNat 32 (4 * i) + k) = m (BitVec.ofNat 32 (4 * i) + k)) :
    wordsOf m' i = wordsOf m i := by
  have hzero : m' (BitVec.ofNat 32 (4 * i)) = m (BitVec.ofNat 32 (4 * i)) := by
    simpa using h 0#32 (by decide)
  rw [wordsOf, wordsOf, Mem.load32, Mem.load32, h 3 (by decide), h 2 (by decide), h 1 (by decide),
    hzero]

/-- For a stack that ends at a word, `rt_hw_stack_init` is the function of Port/Defs. -/
theorem rtHwStackInit_words (tentry parameter : Word) (m : Mem) {top : Nat} (hroom : 16 ≤ top)
    (htop : 4 * top ≤ 2 ^ 32) :
    let (m', sp) := rtHwStackInitBytes tentry parameter (BitVec.ofNat 32 (4 * top) - 4) m
    let (w', wsp) := rtHwStackInit tentry parameter top (wordsOf m)
    sp = BitVec.ofNat 32 (4 * wsp) ∧ ∀ i < 2 ^ 30, wordsOf m' i = w' i := by
  have hend : BitVec.ofNat 32 (4 * top) - 4 + 4 = BitVec.ofNat 32 (4 * top) :=
    BitVec.sub_add_cancel _ _
  have haddr := frame_addr hend (by omega) htop
  have hout := fun x =>
    stackInit_of_out (m := m) (x := x) tentry parameter (BitVec.ofNat 32 (4 * top) - 4)
  have hhigh := fun {j : Nat} (hj : j < 8) =>
    stackInit_high (m := m) tentry parameter (BitVec.ofNat 32 (4 * top) - 4) hj
  have hlow := stackInit_frame (m := m) tentry parameter (BitVec.ofNat 32 (4 * top) - 4)
  have hsp : (rtHwStackInitBytes tentry parameter (BitVec.ofNat 32 (4 * top) - 4) m).2 =
      rtAlignDown (BitVec.ofNat 32 (4 * top) - 4 + 4) 8 - 64 := rfl
  rw [← hsp] at haddr
  generalize rtHwStackInitBytes tentry parameter (BitVec.ofNat 32 (4 * top) - 4) m = result at *
  obtain ⟨m', sp⟩ := result
  simp only [rtHwStackInit] at haddr hout hhigh hlow ⊢
  have hwsp : sp.toNat = 4 * (alignDown top - 16) := by
    unfold alignDown
    omega
  have hword : sp = BitVec.ofNat 32 (4 * (alignDown top - 16)) := by
    rw [← hwsp, BitVec.ofNat_toNat, BitVec.setWidth_eq]
  refine ⟨hword, fun i hi => ?_⟩
  generalize alignDown top - 16 = wsp at hwsp hword ⊢
  have hsplit : i < wsp ∨ wsp + 16 ≤ i ∨ (wsp ≤ i ∧ i < wsp + 8) ∨ wsp + 8 ≤ i ∧ i < wsp + 16 := by
    omega
  -- outside the frame, in the half for `r4` to `r11`, in the half that exception entry stacks
  rcases hsplit with hbelow | habove | hin | hin
  · rw [Memory.store_of_out _ _ (by omega), Memory.store_of_out _ _ (by omega),
      Memory.store_of_out _ _ (by omega)]
    exact wordsOf_congr fun k hk => hout _ (by bv_omega)
  · rw [Memory.store_of_out _ _ (by omega), Memory.store_of_out _ _ (by omega),
      Memory.store_of_out _ _ (by omega)]
    exact wordsOf_congr fun k hk => hout _ (by bv_omega)
  · have hword : BitVec.ofNat 32 (4 * i) = sp + BitVec.ofNat 32 (4 * (i - wsp)) := by bv_omega
    rw [Memory.store_of_out _ _ (by omega), Memory.store_of_out _ _ (by omega), Memory.store,
      dif_pos hin, wordsOf, hword]
    exact hhigh (by omega)
  · have hword : BitVec.ofNat 32 (4 * i) = sp + 32 + BitVec.ofNat 32 (4 * (i - (wsp + 8))) := by
      bv_omega
    have hin' : wsp + 8 ≤ i ∧ i < wsp + 8 + 8 := by omega
    rw [Memory.store, dif_pos hin', wordsOf, hword]
    exact hlow ⟨i - (wsp + 8), by omega⟩

/-- **The first frame and the first dispatch agree.** For every stack of at least 72 bytes that
does not reach past the end of the address space, whatever the alignment of its ends, the
64-byte frame of `rt_thread_init` lies within it at a multiple of 8 and no byte outside the
stack is written; and `PendSV_Handler`, restoring from the `sp` stored, goes to the entry in
Thumb state, with the parameter in `r0` and the stack pointer at the largest multiple of 8 up
to the end of the stack. -/
theorem first_dispatch (tentry parameter start size : Word) (m : Mem) (hsize : 72 ≤ size.toNat)
    (hwrap : start.toNat + size.toNat ≤ 2 ^ 32) :
    let (m', sp) := rtThreadInitStack tentry parameter start size m
    start.toNat ≤ sp.toNat ∧ sp.toNat + 64 ≤ start.toNat + size.toNat ∧ 8 ∣ sp.toNat ∧
      (∀ x, x.toNat < start.toNat ∨ start.toNat + size.toNat ≤ x.toNat → m' x = m x) ∧
      ∀ (c : CoreRegisters) (stkalign : Bool),
        let c' := c.switchToThread m' sp stkalign
        c'.r0 = parameter ∧ c'.pc = tentry ∧ c'.psr.getLsbD 24 = true ∧
          ∃ top, IsGreatest {a | 8 ∣ a ∧ a ≤ start.toNat + size.toNat} top ∧
            c'.psp = BitVec.ofNat 32 top := by
  have hend : start + size - 4 + 4 = BitVec.ofNat 32 (start.toNat + size.toNat) := by
    rw [BitVec.sub_add_cancel]
    bv_omega
  have haddr := frame_addr hend (by omega) hwrap
  have hsp : (rtThreadInitStack tentry parameter start size m).2 =
      rtAlignDown (start + size - 4 + 4) 8 - 64 := rfl
  have hout := fun x => stackInit_of_out (m := m) (x := x) tentry parameter (start + size - 4)
  have hfirst := switchToThread_first (m := m) tentry parameter (start + size - 4)
  rw [← hsp] at haddr
  rw [rtThreadInitStack] at haddr ⊢
  generalize rtHwStackInitBytes tentry parameter (start + size - 4) m = result at *
  obtain ⟨m', sp⟩ := result
  simp only at haddr hout hfirst ⊢
  refine ⟨by omega, by omega, by omega, fun x hx => hout x ?_, fun c stkalign => ?_⟩
  · have hlt := x.isLt
    bv_omega
  · obtain ⟨hr0, hpc, hpsr, hpsp, -⟩ := hfirst c stkalign
    refine ⟨hr0, hpc, by rw [hpsr]; decide, sp.toNat + 64, ⟨⟨by omega, by omega⟩, ?_⟩, ?_⟩
    · rintro a ⟨hdvd, hle⟩
      omega
    · rw [hpsp]
      bv_omega

/-- A stack that begins at an odd address and has the least size. -/
theorem odd_stack_dispatched :
    let (m', sp) := rtThreadInitStack 0x08000101 7 0x20000003 72 fun _ => 0
    let c : CoreRegisters := ⟨0, 0, 0, 0, 0, 0, 0, 0, 0, 0, 0, 0, 0, 0, 0, 0, 0⟩
    let c := c.switchToThread m' sp true
    sp = 0x20000008 ∧ m' 0x20000002 = 0 ∧ c.r0 = 7 ∧ c.pc = 0x08000101 := by
  have hsp : (rtThreadInitStack 0x08000101 7 0x20000003 72 fun _ => 0).2 = 0x20000008 := by decide
  obtain ⟨-, -, -, hout, hdispatch⟩ :=
    first_dispatch 0x08000101 7 0x20000003 72 (fun _ => 0) (by decide) (by decide)
  obtain ⟨hr0, hpc, -⟩ :=
    hdispatch ⟨0, 0, 0, 0, 0, 0, 0, 0, 0, 0, 0, 0, 0, 0, 0, 0, 0⟩ true
  exact ⟨hsp, hout 0x20000002 (.inl (by decide)), hr0, hpc⟩

end SampleRtos
