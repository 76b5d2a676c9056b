import SampleRtos.Sched.Defs

/-!
# context_rvde.s and cpuport.c: the context switch

The processor running one thread, with the registers and the stack memory that
`PendSV_Handler` moves. Addresses count words. Exception entry and return are the
hardware's; they are taken as with `CCR.STKALIGN` clear, so that a frame is pushed
where the stack pointer stands. `PRIMASK` is set from the first instruction of the
handler to its last but two, and what runs then runs in one step; an interrupt may
come in before and after.
-/

namespace SampleRtos

/-! ## Words in memory -/

abbrev Word := BitVec 32

abbrev Memory := Nat → Word

/-- Eight registers: `r4`, …, `r11`, or `r0`, `r1`, `r2`, `r3`, `r12`, `lr`, `pc`, `psr`
as exception entry stacks them. -/
abbrev Regs := Fin 8 → Word

/-- Eight words stored from `a` upwards. -/
def Memory.store (m : Memory) (a : Nat) (r : Regs) : Memory := fun x =>
  if h : a ≤ x ∧ x < a + 8 then r ⟨x - a, by omega⟩ else m x

/-- Eight words loaded from `a` upwards. -/
def Memory.load (m : Memory) (a : Nat) : Regs := fun i => m (a + i)

/-! ## cpuport.c -/

/-- The stacks and entry points the threads were initialised with. The stack of `t` is
`[base t, top t)`; stacks do not overlap, and a first frame fits. -/
structure Stacks (τ : Type) where
  base : τ → Nat
  top : τ → Nat
  tentry : τ → Word
  parameter : τ → Word
  room : ∀ t, base t + 17 ≤ top t
  disjoint : ∀ {t u a}, base t ≤ a → a < top t → base u ≤ a → a < top u → t = u

/-- `RT_ALIGN_DOWN(stk, 8)`, in words. -/
def alignDown (stk : Nat) : Nat := stk - stk % 2

/-- The exception frame of a thread that has not run. -/
def initialFrame (tentry parameter : Word) : Regs
  | 0 => parameter
  | 6 => tentry
  | 7 => 0x01000000
  | _ => 0

def initialHigh : Regs := fun _ => 0xdeadbeef

/-- `rt_hw_stack_init`, as `rt_thread_init` calls it for a stack that ends at `top`, with
the stack pointer it returns. -/
def rtHwStackInit (tentry parameter : Word) (top : Nat) (m : Memory) : Memory × Nat :=
  let stk := alignDown top - 16
  let m := (m.store stk fun _ => 0xdeadbeef).store (stk + 8) fun _ => 0xdeadbeef
  (m.store (stk + 8) (initialFrame tentry parameter), stk)

/-! ## The machine -/

/-- A thread's own code, or `PendSV_Handler` before and after its masked part. -/
inductive Mode where
  | thread
  | entered
  | leaving
  deriving DecidableEq, Repr

/-- The registers `high` are `r4` to `r11` and `low` those that exception entry stacks;
`sp` are the fields of the threads, and `cpu` is the thread whose context was loaded
last, none while `main` still runs. -/
structure Machine (τ : Type) where
  high : Regs
  low : Regs
  psp : Nat
  mem : Memory
  sp : τ → Nat
  cpu : Option τ
  mode : Mode
  rtCurrentThread : Option τ
  port : Port τ

namespace Machine
variable {τ : Type} [DecidableEq τ]

/-- The stack of `t` is set up and `sp` set, as `rt_thread_init` does. -/
def initThread (st : Stacks τ) (s : Machine τ) (t : τ) : Machine τ :=
  let (m, sp) := rtHwStackInit (st.tentry t) (st.parameter t) (st.top t) s.mem
  { s with mem := m, sp := Function.update s.sp t sp }

/-- `rt_system_scheduler_start` choosing `t`. -/
def start (s : Machine τ) (t : τ) : Machine τ :=
  { s with rtCurrentThread := some t, port := .rtHwContextSwitchTo (.sp t) }

/-- `rt_schedule` changing `rt_current_thread` to `t`. -/
def schedule (s : Machine τ) (t : τ) : Machine τ :=
  { s with
    rtCurrentThread := some t
    port := s.port.rtHwContextSwitch (spOf s.rtCurrentThread) (.sp t) }

/-- The code of the thread on the processor: any registers, any memory. -/
def execute (s : Machine τ) (high low : Regs) (psp : Nat) (mem : Memory) : Machine τ :=
  { s with high, low, psp, mem }

/-- The hardware enters `PendSV_Handler`. What `main` leaves goes to another stack. -/
def pendSvEntry (s : Machine τ) : Machine τ :=
  let s := { s with mode := .entered, port := { s.port with pendSv := false } }
  if s.cpu.isSome then
    { s with mem := s.mem.store (s.psp - 8) s.low, psp := s.psp - 8 }
  else s

/-- The registers `r4` to `r11` go below the stacked frame, their address to the `sp`
that `rt_interrupt_from_thread` points to. -/
def saveTo (s : Machine τ) (t : τ) : Machine τ :=
  { s with mem := s.mem.store (s.psp - 8) s.high, sp := Function.update s.sp t (s.psp - 8) }

/-- `switch_to_thread`. -/
def switchToThread (s : Machine τ) (t : τ) : Machine τ :=
  { s with high := s.mem.load (s.sp t), psp := s.sp t + 8, cpu := some t }

/-- The masked part of `PendSV_Handler`. -/
def pendSvHandler (s : Machine τ) : Option (Machine τ) := do
  let s := { s with mode := .leaving }
  if s.port.switchInterruptFlag then
    let s := { s with port := { s.port with switchInterruptFlag := false } }
    let s ← (match s.port.fromThread with
      -- the first switch saves nothing
      | .zero => some s
      | .nullSp => none
      | .sp t => some (s.saveTo t))
    match s.port.toThread with
    | .sp t => return s.switchToThread t
    | _ => none
  else return s

/-- Exception return on the process stack. -/
def pendSvReturn (s : Machine τ) : Machine τ :=
  { s with low := s.mem.load s.psp, psp := s.psp + 8, mode := .thread }

end Machine

/-! ## Runs -/

inductive MachineOp (τ : Type) where
  | start (t : τ)
  | schedule (t : τ)
  | execute (high low : Regs) (psp : Nat) (mem : Memory)
  | pendSvEntry
  | pendSvHandler
  | pendSvReturn

namespace MachineOp
variable {τ : Type} [DecidableEq τ]

def exec (s : Machine τ) : MachineOp τ → Option (Machine τ)
  | .start t => some (s.start t)
  | .schedule t => some (s.schedule t)
  | .execute high low psp mem => some (s.execute high low psp mem)
  | .pendSvEntry => some s.pendSvEntry
  | .pendSvHandler => s.pendSvHandler
  | .pendSvReturn => some s.pendSvReturn

/-- The scheduler is started once, and then rescheduled by threads and interrupt handlers
at any time. A thread's own code leaves the stacks of the others alone and keeps room on
its own for the context that `PendSV_Handler` will put there. -/
def Allowed (st : Stacks τ) (s : Machine τ) : MachineOp τ → Prop
  | .start _ => s.rtCurrentThread = none
  | .schedule t => ∃ c, s.rtCurrentThread = some c ∧ c ≠ t
  | .execute _ _ psp mem => s.mode = .thread ∧ ∃ t, s.cpu = some t ∧
      st.base t + 16 ≤ psp ∧ psp ≤ st.top t ∧
      ∀ u, u ≠ t → ∀ a, st.base u ≤ a → a < st.top u → mem a = s.mem a
  | .pendSvEntry => s.port.pendSv = true ∧ s.mode = .thread
  | .pendSvHandler => s.mode = .entered
  | .pendSvReturn => s.mode = .leaving

instance [Fintype τ] (st : Stacks τ) (s : Machine τ) (op : MachineOp τ) :
    Decidable (op.Allowed st s) := by
  rcases op <;> unfold Allowed <;> infer_instance

end MachineOp

end SampleRtos
