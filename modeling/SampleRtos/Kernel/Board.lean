import SampleRtos.Kernel.Requests
import SampleRtos.Port.Contexts

/-!
# The kernel on the processor

The kernel, with threads interleaved section by section, and the machine that switches
between them are one system. `rt_current_thread` and the port are the kernel's, the registers,
the stacks and the `sp` fields are the machine's. A thread calls the kernel only while its own
code runs and no PendSV is pending, which would come in first; ticks and handlers run on the
other stack and may come in at any time, in the middle of `PendSV_Handler` too.
-/

namespace SampleRtos

open Intrusive

section Board
variable {τ σ υ : Type} [DecidableEq τ] [DecidableEq σ] [DecidableEq υ]

/-- What of the machine the kernel has no part in. -/
structure Hardware (τ : Type) where
  high : Regs
  low : Regs
  psp : Nat
  mem : Memory
  sp : τ → Nat
  cpu : Option τ
  mode : Mode

/-- The system, with the context that each initialised thread last left the processor with;
at first that is the one `rt_thread_init` gave it. -/
structure Board (τ σ υ : Type) where
  system : Interleaved τ σ υ
  hardware : Hardware τ
  left : τ → Option Context

namespace Board

def machine (b : Board τ σ υ) : Machine τ :=
  { high := b.hardware.high
    low := b.hardware.low
    psp := b.hardware.psp
    mem := b.hardware.mem
    sp := b.hardware.sp
    cpu := b.hardware.cpu
    mode := b.hardware.mode
    rtCurrentThread := b.system.kernel.env.rtCurrentThread
    port := b.system.kernel.env.port }

/-- The machine has moved, and left `rt_current_thread` alone. -/
def withMachine (b : Board τ σ υ) (s : Machine τ) : Board τ σ υ :=
  let e := { b.system.kernel.env with port := s.port }
  { b with
    system := { b.system with kernel := { b.system.kernel with env := e } }
    hardware :=
      { high := s.high, low := s.low, psp := s.psp, mem := s.mem, sp := s.sp, cpu := s.cpu,
        mode := s.mode } }

/-- What `rt_thread_init` does to the stack and the `sp` of the thread. -/
def initialise (st : Stacks τ) (b : Board τ σ υ) (t : τ) : Board τ σ υ :=
  { b.withMachine (b.machine.initThread st t) with
    left := Function.update b.left t (some (initialContext st b.hardware.mem t)) }

/-- Whose context `PendSV_Handler` saves, and how it is then. -/
def leave (st : Stacks τ) (b : Board τ σ υ) : τ → Option Context := fun u =>
  if b.machine.port.switchInterruptFlag = true ∧ b.machine.cpu = some u then
    some (b.machine.liveContext st u)
  else b.left u

end Board

/-- The thread a move initialises. -/
def KernelMove.initialises : KernelMove τ σ υ → Option τ
  | .masked c => c.Initialises
  | _ => none

inductive BoardMove (τ σ υ : Type) where
  | kernel (m : KernelMove τ σ υ)
  | execute (high low : Regs) (psp : Nat) (mem : Memory)
  | pendSvEntry
  | pendSvHandler
  | pendSvReturn

namespace BoardMove

def exec [Fintype τ] [Fintype υ] (st : Stacks τ) (b : Board τ σ υ) :
    BoardMove τ σ υ → Option (Board τ σ υ)
  | .kernel m => do
      let s ← m.exec b.system
      let b := { b with system := s }
      match m.initialises with
      | none => return b
      | some t => return b.initialise st t
  | .execute high low psp mem => some (b.withMachine (b.machine.execute high low psp mem))
  | .pendSvEntry => some (b.withMachine b.machine.pendSvEntry)
  | .pendSvHandler => do
      let s ← b.machine.pendSvHandler
      return { b.withMachine s with left := b.leave st }
  | .pendSvReturn => some (b.withMachine b.machine.pendSvReturn)

/-- Where a move of the kernel may come in. A callback initialises no thread, and a thread
does not initialise itself. -/
def KernelAllowed (b : Board τ σ υ) : KernelMove τ σ υ → Prop
  | .tick script => ∀ cs ∈ script, ∀ c ∈ cs, c.Initialises = none
  | .handler cs => ∀ c ∈ cs, c.Initialises = none
  | m => b.hardware.mode = .thread ∧ b.machine.port.pendSv = false ∧
      ∀ t ∈ m.initialises, b.hardware.cpu ≠ some t

def Allowed [Fintype τ] [Fintype υ] (st : Stacks τ) (b : Board τ σ υ) :
    BoardMove τ σ υ → Prop
  | .kernel m => m.Allowed b.system ∧ KernelAllowed b m
  | .execute high low psp mem => (MachineOp.execute high low psp mem).Allowed st b.machine
  | .pendSvEntry => MachineOp.pendSvEntry.Allowed st b.machine
  | .pendSvHandler => MachineOp.pendSvHandler.Allowed st b.machine
  | .pendSvReturn => MachineOp.pendSvReturn.Allowed st b.machine

instance (b : Board τ σ υ) (m : KernelMove τ σ υ) : Decidable (KernelAllowed b m) := by
  rcases m <;> dsimp only [KernelAllowed] <;> infer_instance

instance [Fintype τ] [Fintype υ] (st : Stacks τ) (b : Board τ σ υ) (m : BoardMove τ σ υ) :
    Decidable (m.Allowed st b) := by
  rcases m <;> dsimp only [Allowed] <;> infer_instance

/-- The calls made in pieces, with interrupts disabled and by handlers are as `KernelMove.Preempts`
asks. -/
def Preempts [Fintype τ] [Fintype υ] (b : Board τ σ υ) : BoardMove τ σ υ → Prop
  | .kernel m => m.Preempts b.system
  | _ => True

instance [Fintype τ] [Fintype υ] (b : Board τ σ υ) (m : BoardMove τ σ υ) :
    Decidable (m.Preempts b) := by
  rcases m <;> dsimp only [Preempts] <;> infer_instance

end BoardMove

/-- After the initialisation in `main`, which runs on no thread's stack; the idle thread has
been initialised. -/
def Board.booted (st : Stacks τ) (idle : τ) (k₀ : RtKernel τ σ υ) (high low : Regs) (psp : Nat)
    (mem : Memory) (sp : τ → Nat) : Board τ σ υ :=
  Board.initialise st
    { system := .booted k₀
      hardware := { high, low, psp, mem, sp, cpu := none, mode := .thread }
      left := fun _ => none } idle

def BoardReachable [Fintype τ] [Fintype υ] (st : Stacks τ) (idle : τ)
    (ok : Board τ σ υ → BoardMove τ σ υ → Prop) (b : Board τ σ υ) : Prop :=
  ∃ k₀ ∈ boot idle, ∃ high low psp mem sp,
    Run.Reach (BoardMove.exec st) (fun b m => m.Allowed st b ∧ ok b m)
      (Board.booted st idle k₀ high low psp mem sp) b

/-! ## The machine under the kernel -/

variable {st : Stacks τ} {b b' : Board τ σ υ} {w w' : Watched τ} {a : SeqKernel τ σ υ} {t u : τ}

/-- The machine of the board watched, with other `sp` fields. -/
def Board.shown (b : Board τ σ υ) (sp : τ → Nat) (l : τ → Context) : Watched τ :=
  ⟨{ b.machine with sp := sp }, l⟩

theorem MachineInv.initThread (h : MachineInv st w) (hcpu : w.machine.cpu ≠ some t) :
    MachineInv st ⟨w.machine.initThread st t,
      Function.update w.left t (initialContext st w.machine.mem t)⟩ := by
  obtain ⟨s, l⟩ := w
  have hself : FirstFrame st (s.initThread st t) t := initThread_self s t
  have hroom := st.room_aligned t
  have htop := alignDown_le (st.top t)
  have hother : ∀ u, u ≠ t → ∀ x, st.base u ≤ x → x < st.top u →
      (s.initThread st t).mem x = s.mem x := by
    intro u hut x hx hx'
    refine initThread_mem s t ?_
    by_contra hin
    exact hut (st.disjoint (a := x) hx hx' (by omega) (by omega))
  have hsp : ∀ u, u ≠ t → (s.initThread st t).sp u = s.sp u := fun u hut => by
    simp [Machine.initThread, hut]
  refine ⟨h.room, fun u hu => ?_, fun u hu => ?_, h.idle, fun hflag => ?_, h.pending⟩
  · by_cases hut : u = t
    · subst hut
      exact ⟨by rw [hself.1]; omega, by rw [hself.1]; omega⟩
    · rw [Machine.SavedOnStack, hsp u hut]
      exact h.saved u hu
  · by_cases hut : u = t
    · subst hut
      simp only [Function.update_self]
      refine savedContext_of_firstFrame hself fun x hx hx' => initThread_mem s u (.inr hx)
    · simp only [Function.update_of_ne hut]
      obtain ⟨hlo, hhi⟩ := h.saved u hu
      exact (savedContext_congr (hsp u hut) hlo hhi (hother u hut)).trans (h.left u hu)
  · obtain ⟨c, hreq⟩ := h.requested hflag
    exact ⟨c, hreq.current, hreq.resume, hreq.save⟩

/-- Requests keep the invariant of the machine. -/
theorem MachineInv.requests {L : τ → Prop} {p p' : Option τ × Port τ}
    (hrun : Relation.ReflTransGen (Request L) p p') {s : Machine τ} {l : τ → Context}
    (h : MachineInv st ⟨{ s with rtCurrentThread := p.1, port := p.2 }, l⟩) :
    MachineInv st ⟨{ s with rtCurrentThread := p'.1, port := p'.2 }, l⟩ := by
  induction hrun with
  | refl => exact h
  | tail _ hreq ih =>
    obtain ⟨c, t, hc, hct, -, rfl⟩ := hreq
    have hstep := (ih.schedule t ⟨c, hc, hct⟩ rfl).inv
    simpa only [Machine.schedule, hc, spOf, Watched.leftAfter] using hstep

section
omit [DecidableEq τ] [DecidableEq σ] [DecidableEq υ]

theorem withMachine_machine {s : Machine τ} (h : s.rtCurrentThread = b.machine.rtCurrentThread) :
    (b.withMachine s).machine = s := by
  simp only [Board.withMachine, Board.machine] at h ⊢
  rw [← h]

end

/-- The machine of the board is in order but for the `sp` fields of threads that are not
initialised, which nothing reads: neither the current thread nor the one on the processor is
such a thread. -/
structure BoardMachine (st : Stacks τ) (b : Board τ σ υ) (sp : τ → Nat) (l : τ → Context) :
    Prop where
  machine : MachineInv st (b.shown sp l)
  sp : ∀ u, b.left u ≠ none → sp u = b.hardware.sp u
  left : ∀ u x, b.left u = some x → l u = x
  current : ∀ t ∈ b.system.kernel.env.rtCurrentThread, b.left t ≠ none
  cpu : ∀ t ∈ b.hardware.cpu, b.left t ≠ none

structure BoardInv (st : Stacks τ) (b : Board τ σ υ) (sp : τ → Nat) (l : τ → Context) : Prop
    extends BoardMachine st b sp l where
  init : ∀ t, Initialised b.system.kernel t → b.left t ≠ none

section
omit [DecidableEq σ] [DecidableEq υ]

/-- A thread that is not on the processor gets its first frame. -/
theorem BoardMachine.initialise {sp : τ → Nat} {l : τ → Context} (h : BoardMachine st b sp l)
    (hcpu : b.hardware.cpu ≠ some t)
    (hinit : ∀ u, Initialised b.system.kernel u → u = t ∨ b.left u ≠ none) :
    ∃ sp' l', BoardInv st (b.initialise st t) sp' l' := by
  have hleft : ∀ u, Function.update b.left t (some (initialContext st b.hardware.mem t)) u ≠ none ↔
      u = t ∨ b.left u ≠ none := by
    intro u
    by_cases hut : u = t
    · subst hut; simp
    · simp [hut]
  refine ⟨Function.update sp t (rtHwStackInit (st.tentry t) (st.parameter t) (st.top t)
      b.hardware.mem).2, Function.update l t (initialContext st b.hardware.mem t),
    ⟨h.machine.initThread hcpu, fun u hu => ?_, fun u x hx => ?_,
      fun u hu => (hleft u).mpr (.inr (h.current u hu)),
      fun u hu => (hleft u).mpr (.inr (h.cpu u hu))⟩, fun u hu => (hleft u).mpr (hinit u hu)⟩
  · show Function.update sp t _ u = Function.update b.hardware.sp t _ u
    by_cases hut : u = t
    · subst hut; simp; rfl
    · simpa [hut] using h.sp u (((hleft u).mp hu).resolve_left hut)
  · have hx : Function.update b.left t (some (initialContext st b.hardware.mem t)) u = some x := hx
    by_cases hut : u = t
    · subst hut
      simpa using hx
    · rw [Function.update_of_ne hut] at hx ⊢
      exact h.left u x hx

end

namespace BoardInv
variable {sp : τ → Nat} {l : τ → Context}

section
omit [DecidableEq σ] [DecidableEq υ]

theorem execute (h : BoardInv st b sp l) {high low : Regs} {psp : Nat} {mem : Memory}
    (hok : (MachineOp.execute high low psp mem).Allowed st b.machine) :
    BoardInv st (b.withMachine (b.machine.execute high low psp mem)) sp l where
  machine := (h.machine.execute high low psp mem hok rfl).inv
  sp := h.sp
  left := h.left
  init := h.init
  current := h.current
  cpu := h.cpu

end

section
omit [DecidableEq τ] [DecidableEq σ] [DecidableEq υ]

theorem shown_entry (b : Board τ σ υ) (sp : τ → Nat) (l : τ → Context) :
    (b.withMachine b.machine.pendSvEntry).shown sp l =
      ⟨(b.shown sp l).machine.pendSvEntry, l⟩ := by
  cases hcpu : b.hardware.cpu <;>
    simp [Board.shown, Board.withMachine, Board.machine, Machine.pendSvEntry, hcpu]

end

section
omit [DecidableEq σ] [DecidableEq υ]

theorem pendSvEntry (h : BoardInv st b sp l) (hok : MachineOp.pendSvEntry.Allowed st b.machine) :
    BoardInv st (b.withMachine b.machine.pendSvEntry) sp l := by
  obtain ⟨hcpu, hsp, -⟩ := pendSvEntry_frame b.machine
  refine ⟨⟨?_, fun u hu => (h.sp u hu).trans (congrFun hsp u).symm, h.left, h.current,
    fun t ht => h.cpu t (hcpu.symm.trans ht)⟩, h.init⟩
  rw [shown_entry]
  exact (h.machine.pendSvEntry hok rfl).inv

theorem pendSvReturn (h : BoardInv st b sp l) (hok : MachineOp.pendSvReturn.Allowed st b.machine) :
    BoardInv st (b.withMachine b.machine.pendSvReturn) sp l where
  machine := (h.machine.pendSvReturn hok rfl).inv
  sp := h.sp
  left := h.left
  init := h.init
  current := h.current
  cpu := h.cpu

theorem leave_ne_none (h : BoardInv st b sp l) (u : τ) :
    b.leave st u ≠ none ↔ b.left u ≠ none := by
  unfold Board.leave
  split
  · rename_i hc
    exact iff_of_true (by simp) (h.cpu u hc.2)
  · exact Iff.rfl

/-- What the handler does with the `sp` fields of the board it does with others that agree on
initialised threads. -/
theorem handler_shown (h : BoardInv st b sp l) :
    ∃ s sp', b.machine.pendSvHandler = some s ∧
      (b.shown sp l).machine.pendSvHandler = some { s with sp := sp' } ∧
      s.rtCurrentThread = b.machine.rtCurrentThread ∧
      (s.cpu = b.hardware.cpu ∨ s.cpu = b.machine.rtCurrentThread) ∧
      ∀ u, b.left u ≠ none → sp' u = s.sp u := by
  cases hflag : b.system.kernel.env.port.switchInterruptFlag with
  | false =>
    refine ⟨{ b.machine with mode := .leaving }, sp, ?_, ?_, rfl, .inl rfl, h.sp⟩ <;>
      simp [Machine.pendSvHandler, Board.shown, Board.machine, hflag]
  | true =>
    obtain ⟨c, hcurrent, hresume, hsave⟩ := h.machine.requested hflag
    simp only [Board.shown, Board.machine] at hcurrent hresume hsave
    have hc : sp c = b.hardware.sp c := h.sp c (h.current c hcurrent)
    -- the state in which the handler has found the request
    set s₀ : Machine τ :=
      { b.machine with
        mode := .leaving
        port := { b.machine.port with switchInterruptFlag := false } } with hs₀
    rcases hsave with ⟨-, hfrom⟩ | ⟨t, -, hfrom⟩
    · refine ⟨s₀.switchToThread c, sp, ?_, ?_, rfl, .inr hcurrent.symm, h.sp⟩
      · simp [Machine.pendSvHandler, Board.machine, hflag, hfrom, hresume, hs₀]
      · simp [Machine.pendSvHandler, Machine.switchToThread, Board.shown, Board.machine, hflag,
          hfrom, hresume, hs₀, hc]
    · have hsaved : Function.update sp t (b.hardware.psp - 8) c =
          Function.update b.hardware.sp t (b.hardware.psp - 8) c := by
        by_cases hct : c = t
        · subst hct; simp
        · simp [hct, hc]
      refine ⟨(s₀.saveTo t).switchToThread c, Function.update sp t (b.hardware.psp - 8), ?_, ?_,
        rfl,
        .inr hcurrent.symm, fun u hu => ?_⟩
      · simp [Machine.pendSvHandler, Board.machine, hflag, hfrom, hresume, hs₀, Machine.saveTo]
      · simp [Machine.pendSvHandler, Machine.switchToThread, Machine.saveTo, Board.shown,
          Board.machine, hflag, hfrom, hresume, hs₀, hsaved]
      · show Function.update sp t _ u = Function.update b.hardware.sp t _ u
        by_cases hut : u = t
        · subst hut; simp; rfl
        · simp [hut, h.sp u hu]

theorem pendSvHandler (h : BoardInv st b sp l)
    (hok : MachineOp.pendSvHandler.Allowed st b.machine) {s : Machine τ}
    (hrun : b.machine.pendSvHandler = some s) :
    ∃ sp' l', BoardInv st { b.withMachine s with left := b.leave st } sp' l' := by
  obtain ⟨s', sp', hs', hshown, hcurrent, hcpu, hsp⟩ := h.handler_shown
  obtain rfl : s = s' := Option.some.inj (hrun.symm.trans hs')
  have hexec : (b.shown sp l).exec st .pendSvHandler =
      some ⟨{ s with sp := sp' }, (b.shown sp l).leftAfter st .pendSvHandler⟩ := by
    simp only [Watched.exec, MachineOp.exec, hshown, Option.bind_eq_bind, Option.bind_some,
      Option.pure_def]
  have hmachine : { b.withMachine s with left := b.leave st }.shown sp'
      ((b.shown sp l).leftAfter st .pendSvHandler) =
        ⟨{ s with sp := sp' }, (b.shown sp l).leftAfter st .pendSvHandler⟩ := by
    show (⟨{ (b.withMachine s).machine with sp := sp' }, _⟩ : Watched τ) = _
    rw [withMachine_machine hcurrent]
  refine ⟨sp', (b.shown sp l).leftAfter st .pendSvHandler, ⟨?_, fun u hu => ?_, fun u x hx => ?_,
    fun t ht => (h.leave_ne_none t).mpr (h.current t ht),
    fun t ht => (h.leave_ne_none t).mpr ?_⟩, fun t ht => (h.leave_ne_none t).mpr (h.init t ht)⟩
  · rw [hmachine]
    exact (h.machine.pendSvHandler hok hexec).inv
  · exact hsp u ((h.leave_ne_none u).mp hu)
  · simp only [Board.leave] at hx
    split at hx
    · rename_i hc
      exact (if_pos hc).trans (Option.some.inj hx)
    · rename_i hc
      exact (if_neg hc).trans (h.left u x hx)
  · rcases hcpu with heq | heq
    · exact h.cpu t (heq.symm.trans ht)
    · exact h.current t (heq.symm.trans ht)

/-- Requests of the kernel for initialised threads. -/
theorem requests (h : BoardInv st b sp l) {s : Interleaved τ σ υ}
    (hreq : KernelRequests b.system.kernel s.kernel) :
    BoardInv st { b with system := s } sp l where
  machine := MachineInv.requests (s := { b.machine with sp := sp }) hreq.run h.machine
  sp := h.sp
  left := h.left
  init t ht := h.init t ((hreq.init t).mp ht)
  current t ht := by
    rcases Relation.ReflTransGen.cases_tail hreq.run with heq | ⟨p, -, c, u, -, -, hinit, heq⟩
    · exact h.current t ((congrArg Prod.fst heq).symm.trans ht)
    · obtain rfl : u = t := Option.some.inj ((congrArg Prod.fst heq).symm.trans ht)
      exact h.init u hinit
  cpu := h.cpu

/-- `rt_system_scheduler_start` makes an initialised thread current. -/
theorem start (h : BoardInv st b sp l) (hnone : b.system.kernel.env.rtCurrentThread = none)
    (hinit : Initialised b.system.kernel t) :
    BoardInv st { b with system :=
      { b.system with kernel :=
        { b.system.kernel with env := b.system.kernel.env.startAt t } } } sp l where
  machine := (h.machine.start t hnone rfl).inv
  sp := h.sp
  left := h.left
  init := h.init
  current u hu := by
    obtain rfl : t = u := Option.some.inj hu
    exact h.init t hinit
  cpu := h.cpu

end

theorem threadInit (h : BoardInv st b sp l) (hcpu : b.hardware.cpu ≠ some t) (priority : Nat)
    (tick : BitVec 32) :
    ∃ sp' l', BoardInv st (Board.initialise st { b with system :=
      { b.system with kernel := rtThreadInit b.system.kernel t priority tick } } t) sp' l' := by
  have hmachine : BoardMachine st { b with system :=
      { b.system with kernel := rtThreadInit b.system.kernel t priority tick } } sp l :=
    ⟨h.machine, h.sp, h.left, h.current, h.cpu⟩
  refine hmachine.initialise hcpu fun u hu => ?_
  by_cases hut : u = t
  · exact .inl hut
  · refine .inr (h.init u fun hnone => hu ?_)
    show (rtListInit b.system.kernel.env.list (.item t)).next (.item u) = none
    simpa [rtListInit, Links.setNext, Links.setPrev, hut] using hnone

end BoardInv

/-! ## Moves of the board -/

theorem Interleaved.InOrder.setPort {s : Interleaved τ σ υ} (h : s.InOrder a) (p : Port τ) :
    Interleaved.InOrder
      { s with kernel := { s.kernel with env := { s.kernel.env with port := p } } }
      { a with env := { a.env with port := p } } := by
  obtain ⟨hk, hw, hpend⟩ := h
  refine ⟨⟨hk.timers, ?_⟩, hw.of_env (hw.sched.congr rfl rfl rfl) (fun _ => id) fun _ => id, hpend⟩
  obtain ⟨l, hl⟩ := hk.env.eq_withList
  have hrep := hk.env.rep
  rw [hl] at hrep ⊢
  exact .mk { a.env with port := p } l hrep

variable [Fintype τ] [Fintype υ]

/-- What a move of the kernel leaves on the board. -/
theorem BoardInv.kernel {sp : τ → Nat} {l : τ → Context} (h : BoardInv st b sp l)
    (hs : b.system.InOrder a) {m : KernelMove τ σ υ} (hm : m.Allowed b.system)
    (hok : BoardMove.KernelAllowed b m) (hrun : (BoardMove.kernel m).exec st b = some b') :
    ∃ sp' l', BoardInv st b' sp' l' := by
  obtain ⟨s, hexec, hret⟩ := Option.bind_eq_some_iff.mp hrun
  have hrequests : m.InitialisesNone → m ≠ .start → BoardInv st { b with system := s } sp l :=
    fun hnone hstart => h.requests (KernelMove.requests hs hm hnone hstart hexec)
  cases m with
  | masked c =>
    by_cases hc : c.Initialises = none
    · simp only [KernelMove.initialises, hc] at hret
      cases hret
      exact ⟨sp, l, hrequests hc (by simp)⟩
    · cases c with
      | threadInit t priority tick =>
        cases hexec
        cases hret
        exact h.threadInit (hok.2.2 t rfl) priority tick
      | _ => exact absurd rfl hc
  | start =>
    cases hret
    obtain ⟨k', hsched, hret⟩ := Option.bind_eq_some_iff.mp hexec
    cases hret
    obtain ⟨e, hstart, hret⟩ := Option.bind_eq_some_iff.mp hsched
    cases hret
    obtain ⟨t, hhead, hret⟩ := Option.bind_eq_some_iff.mp hstart
    cases hret
    -- it is the head of a ready list, so it has been initialised
    obtain ⟨hk, hw, -⟩ := hs
    obtain ⟨r, hr, hrel⟩ := Lockstep.exists_of_left (rtSystemSchedulerStart_rel hk.env) hstart
    obtain ⟨t', hhead', rfl⟩ := schedStart_spec hr
    obtain rfl : t = t' := Option.some.inj hrel.current
    have hready := ((hw.sched.ready_iff t _).mp (List.mem_of_mem_head? hhead')).1
    exact ⟨sp, l, h.start hm ((initialised_iff hk t).mpr (hw.sched.live t (by simp [hready])))⟩
  | tick script => cases hret; exact ⟨sp, l, hrequests hok (by simp)⟩
  | handler cs => cases hret; exact ⟨sp, l, hrequests hok (by simp)⟩
  | enter f => cases hret; exact ⟨sp, l, hrequests trivial (by simp)⟩
  | finish => cases hret; exact ⟨sp, l, hrequests trivial (by simp)⟩
  | invoke c => cases hret; exact ⟨sp, l, hrequests trivial (by simp)⟩
  | piece => cases hret; exact ⟨sp, l, hrequests trivial (by simp)⟩

/-- **One move of the board** keeps the machine in order. -/
theorem BoardInv.move {sp : τ → Nat} {l : τ → Context} (h : BoardInv st b sp l)
    (hs : b.system.InOrder a) {m : BoardMove τ σ υ} (hm : m.Allowed st b)
    (hrun : m.exec st b = some b') : ∃ sp' l', BoardInv st b' sp' l' := by
  cases m with
  | kernel m => exact h.kernel hs hm.1 hm.2 hrun
  | execute high low psp mem => cases hrun; exact ⟨sp, l, h.execute hm⟩
  | pendSvEntry => cases hrun; exact ⟨sp, l, h.pendSvEntry hm⟩
  | pendSvHandler =>
    obtain ⟨s, hs, hret⟩ := Option.bind_eq_some_iff.mp hrun
    cases hret
    exact h.pendSvHandler hm hs
  | pendSvReturn => cases hrun; exact ⟨sp, l, h.pendSvReturn hm⟩

/-- A move of the board is a move of the kernel, or it changes the port at most. -/
theorem BoardMove.system {m : BoardMove τ σ υ} (hrun : m.exec st b = some b') :
    (∃ m', m = .kernel m' ∧ m'.exec b.system = some b'.system) ∨
      (∀ m', m ≠ .kernel m') ∧ ∃ p, b'.system = { b.system with kernel :=
        { b.system.kernel with env := { b.system.kernel.env with port := p } } } := by
  cases m with
  | kernel m =>
    obtain ⟨s, hexec, hret⟩ := Option.bind_eq_some_iff.mp hrun
    refine .inl ⟨m, rfl, ?_⟩
    cases hinit : m.initialises with
    | none =>
      rw [hinit] at hret
      cases hret
      exact hexec
    | some t =>
      rw [hinit] at hret
      cases hret
      exact hexec
  | pendSvHandler =>
    obtain ⟨s, -, hret⟩ := Option.bind_eq_some_iff.mp hrun
    cases hret
    exact .inr ⟨by simp, _, rfl⟩
  | _ =>
    cases hrun
    exact .inr ⟨by simp, _, rfl⟩

section
omit [Fintype τ] [Fintype υ]

theorem boot_port {idle : τ} (h : Abs.boot idle = some a) :
    a.env.port.switchInterruptFlag = false ∧
      ∀ t, a.env.list.live (.item t) = true → t = idle := by
  obtain ⟨hrun, -⟩ := onSched_spec h
  obtain ⟨-, ⟨-, henv⟩ | ⟨hcur, -⟩⟩ := startup_spec hrun
  · refine ⟨by rw [henv]; rfl, fun t ht => ?_⟩
    rw [henv] at ht
    by_contra hne
    have hdead : (Abs.systemInit : SeqKernel τ σ υ).env.list.live (.item t) = false := by
      rw [systemInit_list, foldl_mark_live]
      simp
    have hlive : Function.update (Abs.systemInit : SeqKernel τ σ υ).env.list.live (.item idle) true
        (.item t) = true := ht
    rw [Function.update_of_ne (by simpa using hne), hdead] at hlive
    cases hlive
  · exact absurd rfl hcur

theorem BoardInv.booted {idle : τ} {k₀ : RtKernel τ σ υ} (hboot : k₀ ∈ boot idle) (st : Stacks τ)
    (high low : Regs) (psp : Nat) (mem : Memory) (sp : τ → Nat) :
    ∃ sp' l, BoardInv st (Board.booted st idle k₀ high low psp mem sp) sp' l := by
  obtain ⟨a₀, ⟨hk, -⟩, ha₀⟩ := Interleaved.InOrder.boot hboot
  replace hk : KernelRel k₀ a₀ := hk
  obtain ⟨hflag, hlive⟩ := boot_port ha₀
  have hflag₀ : k₀.env.port.switchInterruptFlag = false := by rw [hk.env.port]; exact hflag
  have hnone : k₀.env.rtCurrentThread = none := by
    rw [hk.env.current]
    exact (boot_spec ha₀).current
  set b₀ : Board τ σ υ :=
    { system := .booted k₀
      hardware := { high, low, psp, mem, sp, cpu := none, mode := .thread }
      left := fun _ => none } with hb₀
  have hshown : MachineInv st (b₀.shown st.base
      fun u => { b₀.machine with sp := st.base }.savedContext st u) := by
    refine ⟨fun t ht => by (cases ht), fun u _ => ⟨le_refl _, ?_⟩, fun _ _ => rfl,
      fun _ => hnone.symm, fun hset => ?_, fun hset => ?_⟩
    · have hroom := st.room u
      show st.base u + 16 ≤ st.top u
      omega
    · exact absurd (hflag₀.symm.trans hset) (by simp)
    · exact absurd (hflag₀.symm.trans hset) (by simp)
  have hmachine : BoardMachine st b₀ st.base
      fun u => { b₀.machine with sp := st.base }.savedContext st u :=
    ⟨hshown, fun _ hu => absurd rfl hu, fun _ _ hx => by (cases hx),
      fun t ht => absurd (hnone.symm.trans ht) (by simp), fun _ ht => by (cases ht)⟩
  exact hmachine.initialise (by simp [hb₀]) fun u hu =>
    .inl (hlive u ((initialised_iff hk u).mp hu))

end

/-- Every state of the board is in order. -/
theorem BoardReachable.inv {idle : τ} {ok : Board τ σ υ → BoardMove τ σ υ → Prop}
    (hb : BoardReachable st idle ok b) :
    (∃ a, b.system.InOrder a) ∧ ∃ sp l, BoardInv st b sp l := by
  obtain ⟨k₀, hboot, high, low, psp, mem, sp, hrun⟩ := hb
  obtain ⟨a₀, h₀, -⟩ := Interleaved.InOrder.boot hboot
  refine Run.invariant (I := fun b => (∃ a, b.system.InOrder a) ∧ ∃ sp l, BoardInv st b sp l)
    (fun b m b' hI hm hrun => ?_) ⟨⟨a₀, h₀⟩, BoardInv.booted hboot st high low psp mem sp⟩ hrun
  obtain ⟨⟨a, hs⟩, sp, l, h⟩ := hI
  refine ⟨?_, h.move hs hm.1 hrun⟩
  rcases BoardMove.system hrun with ⟨m', rfl, hrun'⟩ | ⟨-, p, hp⟩
  · obtain ⟨a', hs', -⟩ := hs.move hm.1.1 hrun'
    exact ⟨a', hs'⟩
  · exact ⟨_, hp ▸ hs.setPort p⟩

theorem BoardReachable.owed {idle : τ} (hb : BoardReachable st idle (fun b m => m.Preempts b) b) :
    ∃ a, b.system.InOrder a ∧ Owed b.system.pending a.env := by
  obtain ⟨k₀, hboot, high, low, psp, mem, sp, hrun⟩ := hb
  obtain ⟨a₀, h₀, ha₀⟩ := Interleaved.InOrder.boot hboot
  refine (Run.invariant
    (I := fun b => b.system.Single ∧ ∃ a, b.system.InOrder a ∧ Owed b.system.pending a.env)
    (fun b m b' hI hm hrun => ?_) ⟨fun _ _ _ => rfl, a₀, h₀, .booted ha₀⟩ hrun).2
  obtain ⟨hone, a, hs, h⟩ := hI
  rcases BoardMove.system hrun with ⟨m', rfl, hrun'⟩ | ⟨-, p, hp⟩
  · exact ⟨hone.move hm.1.1 hrun', h.move hs hone hm.1.1 hm.2 hrun'⟩
  · refine ⟨hp ▸ hone, { a with env := { a.env with port := p } }, hp ▸ hs.setPort p, ?_⟩
    rw [hp]
    exact ⟨h.nonneg, fun hcur => (h.runs hcur).imp id fun hpre =>
      ⟨hpre.started, hpre.nonneg, hpre.urgent⟩⟩

/-- **The most urgent ready thread has the processor** in the runs whose moves are allowed and
make no call that leaves a reschedule due (`KernelMove.Preempts`). Whenever the code of threads
runs and no PendSV is pending, the processor runs `rt_current_thread`; and if the scheduler is
unlocked and that thread has no reschedule before it, no ready thread is more urgent. -/
theorem processor_runs_most_urgent {idle : τ}
    (hb : BoardReachable st idle (fun b m => m.Preempts b) b)
    (hmode : b.hardware.mode = .thread) (hpend : b.system.kernel.env.port.pendSv = false) :
    b.hardware.cpu = b.system.kernel.env.rtCurrentThread ∧
      ∀ t, b.hardware.cpu = some t → b.system.kernel.env.rtSchedulerLockNest = 0 →
        b.system.pending t = none → MostUrgentRuns b.system.kernel := by
  obtain ⟨-, sp, l, h⟩ := hb.inv
  obtain ⟨a, hs, howed⟩ := hb.owed
  have hflag : b.system.kernel.env.port.switchInterruptFlag = false := by
    by_contra hset
    rcases h.machine.pending (Bool.eq_true_of_not_eq_false hset) with hp | hm
    · exact absurd (hpend.symm.trans hp) (by simp)
    · exact absurd (hmode.symm.trans hm) (by simp)
  have hcpu : b.hardware.cpu = b.system.kernel.env.rtCurrentThread := h.machine.idle hflag
  exact ⟨hcpu, fun t ht hlock howes => howed.most_urgent hs (hcpu.symm.trans ht) hlock howes⟩

/-- The moves that may change the context of `u`: its own code and its initialisation. -/
def BoardMove.Changes (b : Board τ σ υ) (u : τ) : BoardMove τ σ υ → Prop
  | .kernel m => m.initialises = some u
  | .execute .. => b.hardware.cpu = some u
  | _ => False

section
omit [DecidableEq τ] [DecidableEq σ] [DecidableEq υ] [Fintype τ] [Fintype υ]

/-- The context of an initialised thread lies where the machine expects it. -/
theorem BoardInv.placed {sp : τ → Nat} {l : τ → Context} (h : BoardInv st b sp l)
    (hu : b.left u ≠ none) : Placed st b.machine u := by
  refine ⟨h.machine.room, fun hcpu => ?_⟩
  have hsaved : (b.shown sp l).machine.SavedOnStack st u := h.machine.saved u hcpu
  simp only [Machine.SavedOnStack, Board.shown, h.sp u hu] at hsaved
  exact hsaved

theorem BoardInv.requested {sp : τ → Nat} {l : τ → Context} (h : BoardInv st b sp l)
    (hflag : b.machine.port.switchInterruptFlag = true) : ∃ c, b.machine.Requested c := by
  obtain ⟨c, hreq⟩ := h.machine.requested hflag
  exact ⟨c, hreq.current, hreq.resume, hreq.save⟩

end

theorem BoardInv.kept {sp : τ → Nat} {l : τ → Context} (h : BoardInv st b sp l)
    (hu : b.left u ≠ none) {m : BoardMove τ σ υ} (hm : m.Allowed st b)
    (hrun : m.exec st b = some b') (hch : ¬ m.Changes b u) :
    b'.machine.context st u = b.machine.context st u := by
  have hplaced := h.placed hu
  cases m with
  | kernel m =>
    obtain ⟨s, -, hret⟩ := Option.bind_eq_some_iff.mp hrun
    cases hinit : m.initialises with
    | none =>
      rw [hinit] at hret
      cases hret
      rfl
    | some t =>
      rw [hinit] at hret
      cases hret
      have hut : u ≠ t := fun hut => hch (by rw [BoardMove.Changes, hinit, hut])
      exact (show Placed st { b with system := s }.machine u from
        ⟨hplaced.room, hplaced.saved⟩).initThread hut
  | execute high low psp mem =>
    cases hrun
    exact hplaced.execute hm hch
  | pendSvEntry =>
    cases hrun
    rw [withMachine_machine (pendSvEntry_frame b.machine).2.2.1]
    exact hplaced.pendSvEntry hm.2
  | pendSvHandler =>
    obtain ⟨s, hs, hret⟩ := Option.bind_eq_some_iff.mp hrun
    cases hret
    obtain ⟨s', -, hs', -, hcurrent, -⟩ := h.handler_shown
    obtain rfl : s = s' := Option.some.inj (hs.symm.trans hs')
    show (b.withMachine s).machine.context st u = _
    rw [withMachine_machine hcurrent]
    exact hplaced.pendSvHandler hm h.requested hs
  | pendSvReturn =>
    cases hrun
    exact hplaced.pendSvReturn hm

end Board

/-- Three threads with stacks of 32 words each. -/
def threeStacks : Stacks (Fin 3) where
  base t := 32 * t.val
  top t := 32 * t.val + 32
  tentry t := t.val
  parameter _ := 0
  room _ := by omega
  disjoint {t u a} _ _ _ _ := Fin.ext (by omega)

/-- The first switch is to thread 1. It goes to sleep, is interrupted by a tick before its
`rt_schedule`, and the second switch is to thread 2. -/
def twoSwitches : List (BoardMove (Fin 3) (Fin 1) Empty) :=
  asleepAndTicked.take 5 |>.map .kernel |>.append <|
    [.pendSvEntry, .pendSvHandler, .pendSvReturn, .kernel (.enter (.threadSleep 5)),
      .kernel (.tick []), .kernel .finish, .pendSvEntry, .pendSvHandler, .pendSvReturn]

def bootedBoard (k₀ : RtKernel (Fin 3) (Fin 1) Empty) : Board (Fin 3) (Fin 1) Empty :=
  Board.booted threeStacks 0 k₀ (fun _ => 0) (fun _ => 0) 0 (fun _ => 0) fun _ => 0

theorem board_of_run (ok : Board (Fin 3) (Fin 1) Empty → BoardMove (Fin 3) (Fin 1) Empty → Prop)
    [∀ b m, Decidable (ok b m)] (ms : List (BoardMove (Fin 3) (Fin 1) Empty))
    (p : Board (Fin 3) (Fin 1) Empty → Bool)
    (h : ((boot 0).bind fun k₀ => (Run.exec (BoardMove.exec threeStacks)
      (fun b m => m.Allowed threeStacks b ∧ ok b m) ms (bootedBoard k₀)).map p) = some true) :
    ∃ b, BoardReachable threeStacks 0 ok b ∧ p b = true := by
  obtain ⟨k₀, hboot, hrun⟩ := Option.bind_eq_some_iff.mp h
  obtain ⟨b, hb, hp⟩ := Option.map_eq_some_iff.mp hrun
  exact ⟨b, ⟨k₀, hboot, _, _, _, _, _, Run.exec_reach hb⟩, hp⟩

theorem second_switch : ∃ b : Board (Fin 3) (Fin 1) Empty,
    BoardReachable threeStacks 0 (fun b m => m.Preempts b) b ∧ b.hardware.cpu = some 2 ∧
      MostUrgentRuns b.system.kernel := by
  obtain ⟨b, hb, hp⟩ := board_of_run (fun b m => m.Preempts b) twoSwitches
    (fun b => decide (b.hardware.mode = .thread) && !b.system.kernel.env.port.pendSv &&
      decide (b.hardware.cpu = some 2) && decide (b.system.kernel.env.rtSchedulerLockNest = 0) &&
      decide (b.system.pending 2 = none)) (by decide +kernel)
  simp only [Bool.and_eq_true, decide_eq_true_eq, Bool.not_eq_true'] at hp
  obtain ⟨⟨⟨⟨hmode, hpend⟩, hcpu⟩, hlock⟩, hnone⟩ := hp
  exact ⟨b, hb, hcpu, (processor_runs_most_urgent hb hmode hpend).2 2 hcpu hlock hnone⟩

end SampleRtos
