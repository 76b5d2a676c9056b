import SampleRtos.Lib.Run
import SampleRtos.Port.Defs

/-!
# The deferred context switch is an immediate one

`rt_current_thread` runs ahead of the processor: it changes with every request,
and the processor follows when `PendSV_Handler` gets to run. Seen as a set of
threads each with its own context, the machine does nothing but run one of them
and now and then go over to another: requests change no context, a thread that
is not on the processor keeps the context it left with, and the handler goes over
to `rt_current_thread`, however many requests it answers at once.
-/

namespace SampleRtos

section Switch
variable {τ : Type} [DecidableEq τ]

/-! ## Contexts -/

/-- What a thread needs to go on: its registers and its stack from the stack pointer up. -/
structure Context where
  high : Regs
  low : Regs
  psp : Nat
  stack : Memory

/-- The memory from `a` up to the top of the stack of `t`. -/
def stackFrom (st : Stacks τ) (t : τ) (m : Memory) (a : Nat) : Memory := fun x =>
  if a ≤ x ∧ x < st.top t then m x else 0

/-- The context of the thread on the processor. In the handler its frame is stacked. -/
def Machine.liveContext (st : Stacks τ) (s : Machine τ) (t : τ) : Context :=
  match s.mode with
  | .thread => ⟨s.high, s.low, s.psp, stackFrom st t s.mem s.psp⟩
  | _ => ⟨s.high, s.mem.load s.psp, s.psp + 8, stackFrom st t s.mem (s.psp + 8)⟩

/-- The context saved through the `sp` of a thread. -/
def Machine.savedContext (st : Stacks τ) (s : Machine τ) (t : τ) : Context :=
  ⟨s.mem.load (s.sp t), s.mem.load (s.sp t + 8), s.sp t + 16, stackFrom st t s.mem (s.sp t + 16)⟩

/-- Each thread's context, wherever it is. -/
def Machine.context (st : Stacks τ) (s : Machine τ) (t : τ) : Context :=
  if s.cpu = some t then s.liveContext st t else s.savedContext st t

/-- The context of a thread that has not run, whose stack is in `m`. -/
def initialContext (st : Stacks τ) (m : Memory) (t : τ) : Context :=
  ⟨initialHigh, initialFrame (st.tentry t) (st.parameter t), alignDown (st.top t),
    stackFrom st t m (alignDown (st.top t))⟩

/-! ## Immediate switches -/

/-- A processor that runs one of several contexts and goes over from one to another. -/
structure Processor (τ : Type) where
  cpu : Option τ
  context : τ → Context

inductive Processor.Step : Processor τ → Processor τ → Prop where
  | run (p : Processor τ) (t : τ) (c : Context) (h : p.cpu = some t) :
      Step p { p with context := Function.update p.context t c }
  | switch (p : Processor τ) (t : τ) : Step p { p with cpu := some t }

def Machine.processor (st : Stacks τ) (s : Machine τ) : Processor τ :=
  ⟨s.cpu, s.context st⟩

/-! ## Runs -/

/-- The machine together with the context each thread had when it last left the processor. -/
structure Watched (τ : Type) where
  machine : Machine τ
  left : τ → Context

/-- A thread leaves the processor when `PendSV_Handler` finds a request. -/
def Watched.leftAfter (st : Stacks τ) (w : Watched τ) : MachineOp τ → τ → Context
  | .pendSvHandler => fun u =>
      if w.machine.port.switchInterruptFlag = true ∧ w.machine.cpu = some u then
        w.machine.liveContext st u
      else w.left u
  | _ => w.left

def Watched.exec (st : Stacks τ) (w : Watched τ) (op : MachineOp τ) : Option (Watched τ) := do
  let s ← op.exec w.machine
  return { machine := s, left := w.leftAfter st op }

/-- `main` before `rt_system_scheduler_start`, when every thread has been initialised. -/
def booted (st : Stacks τ) (high low : Regs) (psp : Nat) (mem : Memory) (sp : τ → Nat)
    (threads : List τ) : Machine τ :=
  threads.foldl (Machine.initThread st)
    { high, low, psp, mem, sp
      cpu := none
      mode := .thread
      rtCurrentThread := none
      port :=
        { switchInterruptFlag := false, fromThread := .zero, toThread := .zero, pendSv := false } }

def MachineReachable (st : Stacks τ) (w : Watched τ) : Prop :=
  ∃ high low psp mem sp threads, (∀ t, t ∈ threads) ∧
    Run.Reach (Watched.exec st) (fun w op => op.Allowed st w.machine)
      ⟨booted st high low psp mem sp threads, initialContext st mem⟩ w

/-! ## Memory -/

section Memory
variable {m m' : Memory} {a b : Nat} {r : Regs}

@[simp] theorem Memory.load_store (m : Memory) (a : Nat) (r : Regs) : (m.store a r).load a = r := by
  funext i
  have hi : a ≤ a + i.val ∧ a + i.val < a + 8 := ⟨by omega, by have := i.isLt; omega⟩
  simp only [Memory.load, Memory.store, dif_pos hi]
  congr
  omega

theorem Memory.store_of_out (m : Memory) (r : Regs) {x : Nat} (h : x < a ∨ a + 8 ≤ x) :
    m.store a r x = m x :=
  dif_neg (by omega)

theorem Memory.load_congr (h : ∀ x, a ≤ x → x < a + 8 → m x = m' x) : m.load a = m'.load a := by
  funext i
  exact h _ (by omega) (by have := i.isLt; omega)

theorem Memory.load_store_of_out (m : Memory) (r : Regs) (h : b + 8 ≤ a ∨ a + 8 ≤ b) :
    (m.store a r).load b = m.load b :=
  Memory.load_congr fun x hlo hhi => Memory.store_of_out m r (by omega)

section
omit [DecidableEq τ]

theorem stackFrom_congr {st : Stacks τ} {t : τ} (h : ∀ x, a ≤ x → x < st.top t → m x = m' x) :
    stackFrom st t m a = stackFrom st t m' a := by
  funext x
  simp only [stackFrom]
  split
  · rename_i hx; exact h x hx.1 hx.2
  · rfl

/-- Eight words stored in the stack of `t` leave the other stacks alone. -/
theorem Stacks.store_other (st : Stacks τ) {t u : τ} (hut : u ≠ t) (hlo : st.base t ≤ a)
    (hhi : a + 8 ≤ st.top t) {x : Nat} (hx : st.base u ≤ x) (hx' : x < st.top u) :
    m.store a r x = m x := by
  by_cases hin : a ≤ x ∧ x < a + 8
  · exact absurd (st.disjoint hx hx' (by omega) (by omega)) hut
  · exact Memory.store_of_out m r (by omega)

end

end Memory

variable {st : Stacks τ} {s s' : Machine τ} {w w' : Watched τ} {t u : τ}

section
omit [DecidableEq τ]

theorem savedContext_congr (hsp : s'.sp u = s.sp u) (hlo : st.base u ≤ s.sp u)
    (hhi : s.sp u + 16 ≤ st.top u)
    (hmem : ∀ x, st.base u ≤ x → x < st.top u → s'.mem x = s.mem x) :
    s'.savedContext st u = s.savedContext st u := by
  have hhigh : s'.mem.load (s.sp u) = s.mem.load (s.sp u) :=
    Memory.load_congr fun x hx hx' => hmem x (by omega) (by omega)
  have hlow : s'.mem.load (s.sp u + 8) = s.mem.load (s.sp u + 8) :=
    Memory.load_congr fun x hx hx' => hmem x (by omega) (by omega)
  have hstack : stackFrom st u s'.mem (s.sp u + 16) = stackFrom st u s.mem (s.sp u + 16) :=
    stackFrom_congr fun x hx hx' => hmem x (by omega) hx'
  simp only [Machine.savedContext, hsp, hhigh, hlow, hstack]

end

/-! ## Initialised threads -/

theorem alignDown_le (n : Nat) : alignDown n ≤ n := Nat.sub_le n _

section
omit [DecidableEq τ]

theorem Stacks.room_aligned (st : Stacks τ) (t : τ) : st.base t + 16 ≤ alignDown (st.top t) := by
  have hroom := st.room t
  unfold alignDown
  omega

end

/-- The first frame of `t` lies where its `sp` points. -/
def FirstFrame (st : Stacks τ) (s : Machine τ) (t : τ) : Prop :=
  s.sp t = alignDown (st.top t) - 16 ∧ s.mem.load (s.sp t) = initialHigh ∧
    s.mem.load (s.sp t + 8) = initialFrame (st.tentry t) (st.parameter t)

theorem initThread_mem (s : Machine τ) (t : τ) {x : Nat}
    (hx : x < alignDown (st.top t) - 16 ∨ alignDown (st.top t) ≤ x) :
    (s.initThread st t).mem x = s.mem x := by
  have hroom := st.room_aligned t
  simp only [Machine.initThread, rtHwStackInit]
  rw [Memory.store_of_out _ _ (by omega), Memory.store_of_out _ _ (by omega),
    Memory.store_of_out _ _ (by omega)]

theorem initThread_self (s : Machine τ) (t : τ) : FirstFrame st (s.initThread st t) t := by
  have hsp : (s.initThread st t).sp t = alignDown (st.top t) - 16 := by
    simp [Machine.initThread, rtHwStackInit]
  refine ⟨hsp, ?_, ?_⟩
  · rw [hsp]
    simp only [Machine.initThread, rtHwStackInit]
    rw [Memory.load_store_of_out _ _ (.inl (by omega)),
      Memory.load_store_of_out _ _ (.inl (by omega)), Memory.load_store]
    rfl
  · rw [hsp]
    simp only [Machine.initThread, rtHwStackInit, Memory.load_store]

theorem initThread_other (s : Machine τ) {t u : τ} (hut : u ≠ t) (h : FirstFrame st s u) :
    FirstFrame st (s.initThread st t) u := by
  obtain ⟨hsp, hhigh, hlow⟩ := h
  have hsp' : (s.initThread st t).sp u = s.sp u := by simp [Machine.initThread, hut]
  have hroom := st.room_aligned u
  have hroom' := st.room_aligned t
  have htop := alignDown_le (st.top u)
  have htop' := alignDown_le (st.top t)
  have hmem : ∀ x, alignDown (st.top u) - 16 ≤ x → x < alignDown (st.top u) →
      (s.initThread st t).mem x = s.mem x := by
    intro x hx hx'
    refine initThread_mem s t ?_
    by_contra hin
    exact hut (st.disjoint (a := x) (by omega) (by omega) (by omega) (by omega))
  refine ⟨hsp'.trans hsp, ?_, ?_⟩
  · rw [hsp', ← hhigh]
    exact Memory.load_congr fun x hx hx' => hmem x (by omega) (by omega)
  · rw [hsp', ← hlow]
    exact Memory.load_congr fun x hx hx' => hmem x (by omega) (by omega)

/-- Initialising threads one after the other leaves each with its first frame and with
what lay above it. -/
theorem initThreads (st : Stacks τ) (threads : List τ) : ∀ (s : Machine τ),
    (∀ t, (t ∈ threads ∨ FirstFrame st s t) →
      FirstFrame st (threads.foldl (Machine.initThread st) s) t) ∧
    (∀ t x, alignDown (st.top t) ≤ x → x < st.top t →
      (threads.foldl (Machine.initThread st) s).mem x = s.mem x) := by
  induction threads with
  | nil => exact fun s => ⟨fun t ht => by simpa using ht, fun _ _ _ _ => rfl⟩
  | cons t₀ threads ih =>
    intro s
    obtain ⟨hframe, hmem⟩ := ih (s.initThread st t₀)
    refine ⟨fun t ht => hframe t ?_, fun t x hx hx' => ?_⟩
    · by_cases htt : t = t₀
      · exact .inr (htt ▸ initThread_self s t)
      · rcases ht with ht | ht
        · exact .inl ((List.mem_cons.mp ht).resolve_left htt)
        · exact .inr (initThread_other s htt ht)
    · rw [List.foldl_cons, hmem t x hx hx']
      refine initThread_mem s t₀ ?_
      by_contra hin
      have hroom := st.room_aligned t₀
      have hroom' := st.room_aligned t
      have htop := alignDown_le (st.top t₀)
      have htt : t = t₀ := st.disjoint (a := x) (by omega) hx' (by omega) (by omega)
      subst htt
      omega

theorem foldl_initThread (st : Stacks τ) (threads : List τ) : ∀ (s : Machine τ),
    (threads.foldl (Machine.initThread st) s).cpu = s.cpu ∧
      (threads.foldl (Machine.initThread st) s).rtCurrentThread = s.rtCurrentThread ∧
      (threads.foldl (Machine.initThread st) s).port = s.port := by
  induction threads with
  | nil => exact fun _ => ⟨rfl, rfl, rfl⟩
  | cons t threads ih => exact fun s => ih (s.initThread st t)

section
omit [DecidableEq τ]

theorem savedContext_of_firstFrame {m : Memory} (h : FirstFrame st s t)
    (hmem : ∀ x, alignDown (st.top t) ≤ x → x < st.top t → s.mem x = m x) :
    s.savedContext st t = initialContext st m t := by
  obtain ⟨hsp, hhigh, hlow⟩ := h
  have hroom := st.room_aligned t
  have hpsp : s.sp t + 16 = alignDown (st.top t) := by omega
  simp only [Machine.savedContext, initialContext, hhigh, hlow, hpsp]
  rw [stackFrom_congr hmem]

end

/-! ## The invariant -/

/-- The stack pointer of the thread on the processor lies within its stack, with room for
the rest of the context below. -/
def Machine.HasRoom (st : Stacks τ) (s : Machine τ) (t : τ) : Prop :=
  match s.mode with
  | .thread => st.base t + 16 ≤ s.psp ∧ s.psp ≤ st.top t
  | _ => st.base t + 8 ≤ s.psp ∧ s.psp + 8 ≤ st.top t

/-- The context saved through `sp` lies within the stack. -/
def Machine.SavedOnStack (st : Stacks τ) (s : Machine τ) (u : τ) : Prop :=
  st.base u ≤ s.sp u ∧ s.sp u + 16 ≤ st.top u

/-- An outstanding request: whom to resume, and whose context to save. -/
structure Machine.Requested (s : Machine τ) (c : τ) : Prop where
  current : s.rtCurrentThread = some c
  resume : s.port.toThread = .sp c
  save : (s.cpu = none ∧ s.port.fromThread = .zero) ∨
    ∃ t, s.cpu = some t ∧ s.port.fromThread = .sp t

structure MachineInv (st : Stacks τ) (w : Watched τ) : Prop where
  room : ∀ t, w.machine.cpu = some t → w.machine.HasRoom st t
  saved : ∀ u, w.machine.cpu ≠ some u → w.machine.SavedOnStack st u
  left : ∀ u, w.machine.cpu ≠ some u → w.machine.savedContext st u = w.left u
  idle : w.machine.port.switchInterruptFlag = false → w.machine.cpu = w.machine.rtCurrentThread
  requested : w.machine.port.switchInterruptFlag = true → ∃ c, w.machine.Requested c
  pending : w.machine.port.switchInterruptFlag = true →
    w.machine.port.pendSv = true ∨ w.machine.mode = .entered

namespace MachineInv

theorem booted (high low : Regs) (psp : Nat) (mem : Memory) (sp : τ → Nat) {threads : List τ}
    (hall : ∀ t, t ∈ threads) :
    MachineInv st ⟨booted st high low psp mem sp threads, initialContext st mem⟩ := by
  obtain ⟨hframe, hmem⟩ := initThreads st threads
    { high, low, psp, mem, sp
      cpu := none
      mode := .thread
      rtCurrentThread := none
      port :=
        { switchInterruptFlag := false, fromThread := .zero, toThread := .zero, pendSv := false } }
  obtain ⟨hcpu, hcurrent, hport⟩ := foldl_initThread st threads
    { high, low, psp, mem, sp
      cpu := none
      mode := .thread
      rtCurrentThread := none
      port :=
        { switchInterruptFlag := false, fromThread := .zero, toThread := .zero, pendSv := false } }
  refine ⟨fun t ht => ?_, fun u _ => ?_, fun u _ => ?_, fun _ => hcpu.trans hcurrent.symm,
    fun hflag => ?_, fun hflag => ?_⟩
  · exact absurd (hcpu.symm.trans ht) (by simp)
  · have hsp := (hframe u (.inl (hall u))).1
    have hroom := st.room_aligned u
    have htop := alignDown_le (st.top u)
    exact ⟨by rw [SampleRtos.booted, hsp]; omega, by rw [SampleRtos.booted, hsp]; omega⟩
  · exact savedContext_of_firstFrame (hframe u (.inl (hall u))) (hmem u)
  · exact absurd ((congrArg Port.switchInterruptFlag hport).symm.trans hflag) (by simp)
  · exact absurd ((congrArg Port.switchInterruptFlag hport).symm.trans hflag) (by simp)

end MachineInv

/-! ## Requests -/

section
omit [DecidableEq τ]

theorem requested_start (s : Machine τ) (t : τ) (hcpu : s.cpu = none) :
    (s.start t).Requested t :=
  ⟨rfl, rfl, .inl ⟨hcpu, rfl⟩⟩

/-- A further request changes whom to resume and nothing else. -/
theorem requested_schedule {c : τ} (hcurrent : s.rtCurrentThread = some c)
    (hidle : s.port.switchInterruptFlag = false → s.cpu = s.rtCurrentThread)
    (hrequested : s.port.switchInterruptFlag = true → ∃ c, s.Requested c) (t : τ) :
    (s.schedule t).Requested t := by
  cases hflag : s.port.switchInterruptFlag with
  | true =>
    obtain ⟨c', hreq⟩ := hrequested hflag
    have hport : (s.schedule t).port = { s.port with toThread := .sp t, pendSv := true } := by
      simp [Machine.schedule, Port.rtHwContextSwitch, hflag]
    exact ⟨rfl, by rw [hport], by rw [hport]; exact hreq.save⟩
  | false =>
    have hport : (s.schedule t).port = Port.mk true (.sp c) (.sp t) true := by
      simp [Machine.schedule, Port.rtHwContextSwitch, hflag, hcurrent, spOf]
    refine ⟨rfl, by rw [hport], .inr ⟨c, ?_, by rw [hport]⟩⟩
    rw [← hcurrent]
    exact hidle hflag

end

/-! ## Entry and return -/

section
omit [DecidableEq τ]

/-- What entry leaves as it is. -/
theorem pendSvEntry_frame (s : Machine τ) :
    s.pendSvEntry.cpu = s.cpu ∧ s.pendSvEntry.sp = s.sp ∧
      s.pendSvEntry.rtCurrentThread = s.rtCurrentThread ∧ s.pendSvEntry.mode = .entered ∧
      s.pendSvEntry.port = { s.port with pendSv := false } := by
  cases hcpu : s.cpu <;> simp [Machine.pendSvEntry, hcpu]

theorem HasRoom.entry (hroom : s.HasRoom st t) (hmode : s.mode = .thread) (hcpu : s.cpu = some t) :
    s.pendSvEntry.HasRoom st t ∧ s.pendSvEntry.liveContext st t = s.liveContext st t ∧
      ∀ u, u ≠ t → s.SavedOnStack st u → s.pendSvEntry.savedContext st u = s.savedContext st u := by
  simp only [Machine.HasRoom, hmode] at hroom
  have hentry : s.pendSvEntry = { s with
      mode := .entered, port := { s.port with pendSv := false },
      mem := s.mem.store (s.psp - 8) s.low, psp := s.psp - 8 } := by
    simp [Machine.pendSvEntry, hcpu]
  rw [hentry]
  refine ⟨⟨by simp only; omega, by simp only; omega⟩, ?_, fun u hut hu => ?_⟩
  · have hpsp : s.psp - 8 + 8 = s.psp := by omega
    have hstack : stackFrom st t (s.mem.store (s.psp - 8) s.low) s.psp =
        stackFrom st t s.mem s.psp :=
      stackFrom_congr fun x hx _ => Memory.store_of_out _ _ (by omega)
    simp only [Machine.liveContext, hmode, Memory.load_store, hpsp, hstack]
  · exact savedContext_congr rfl hu.1 hu.2 fun x hx hx' =>
      st.store_other hut (by omega) (by omega) hx hx'

theorem HasRoom.return (hroom : s.HasRoom st t) (hmode : s.mode = .leaving) :
    s.pendSvReturn.HasRoom st t ∧ s.pendSvReturn.liveContext st t = s.liveContext st t := by
  simp only [Machine.HasRoom, hmode] at hroom
  refine ⟨⟨by simp only [Machine.pendSvReturn]; omega,
    by simp only [Machine.pendSvReturn]; omega⟩, ?_⟩
  simp only [Machine.liveContext, Machine.pendSvReturn, hmode]

end

/-! ## The switch -/

theorem saveTo_port (s : Machine τ) (t : τ) : (s.saveTo t).port = s.port := rfl

section
omit [DecidableEq τ]

theorem HasRoom.inHandler (hroom : s.HasRoom st t) (hmode : s.mode ≠ .thread) :
    st.base t + 8 ≤ s.psp ∧ s.psp + 8 ≤ st.top t := by
  unfold Machine.HasRoom at hroom
  split at hroom
  · rename_i hthread; exact absurd hthread hmode
  · exact hroom

end

theorem saveTo_saved (hroom : s.HasRoom st t) (hmode : s.mode ≠ .thread) :
    (s.saveTo t).savedContext st t = s.liveContext st t ∧ (s.saveTo t).SavedOnStack st t := by
  have hroom' := HasRoom.inHandler hroom hmode
  have hsp : (s.saveTo t).sp t = s.psp - 8 := by simp [Machine.saveTo]
  have hframe : s.psp - 8 + 8 = s.psp := by omega
  have htop : s.psp - 8 + 16 = s.psp + 8 := by omega
  have hlow : (s.mem.store (s.psp - 8) s.high).load s.psp = s.mem.load s.psp :=
    Memory.load_store_of_out _ _ (.inr (by omega))
  have hstack : stackFrom st t (s.mem.store (s.psp - 8) s.high) (s.psp + 8) =
      stackFrom st t s.mem (s.psp + 8) :=
    stackFrom_congr fun x hx _ => Memory.store_of_out _ _ (by omega)
  refine ⟨?_, by rw [hsp]; omega, by rw [hsp]; omega⟩
  rw [Machine.savedContext, hsp, hframe, htop, Machine.liveContext]
  split
  · rename_i hthread; exact absurd hthread hmode
  · simp only [Machine.saveTo, Memory.load_store, hlow, hstack]

theorem saveTo_other (hroom : s.HasRoom st t) (hmode : s.mode ≠ .thread) (hut : u ≠ t)
    (hu : s.SavedOnStack st u) :
    (s.saveTo t).savedContext st u = s.savedContext st u ∧ (s.saveTo t).SavedOnStack st u := by
  have hroom' := HasRoom.inHandler hroom hmode
  have hsp : (s.saveTo t).sp u = s.sp u := by simp [Machine.saveTo, hut]
  refine ⟨savedContext_congr hsp hu.1 hu.2 fun x hx hx' =>
    st.store_other hut (by omega) (by omega) hx hx', ?_⟩
  rw [Machine.SavedOnStack, hsp]
  exact hu

section
omit [DecidableEq τ]

theorem switchToThread_live (hmode : s.mode ≠ .thread) (c : τ) :
    (s.switchToThread c).liveContext st c = s.savedContext st c := by
  unfold Machine.liveContext
  split
  · rename_i hthread; exact absurd hthread hmode
  · rfl

end

/-- What `PendSV_Handler` does when it finds a request: the context of the thread that was
running is saved through that thread's own `sp`, no other `sp` and no other saved context
changes, and `rt_current_thread` runs with the context saved through its `sp`. -/
structure Switched (st : Stacks τ) (s s' : Machine τ) : Prop where
  cpu : s'.cpu = s.rtCurrentThread
  saved : ∀ t, s.cpu = some t → s'.savedContext st t = s.liveContext st t
  other : ∀ u, s.cpu ≠ some u → s'.sp u = s.sp u ∧ s'.savedContext st u = s.savedContext st u
  resumed : ∀ c, s.rtCurrentThread = some c → s'.liveContext st c = s'.savedContext st c

/-- The parts of the state the handler leaves behind. -/
structure HandlerDone (st : Stacks τ) (s s' : Machine τ) : Prop where
  onStack : ∀ u, s'.SavedOnStack st u
  room : ∀ c, s.rtCurrentThread = some c → s'.HasRoom st c
  current : s'.rtCurrentThread = s.rtCurrentThread
  flag : s'.port.switchInterruptFlag = false

/-- The handler finds a request: it returns, and it has switched. -/
theorem MachineInv.handler (h : MachineInv st w) (hmode : w.machine.mode = .entered)
    (hflag : w.machine.port.switchInterruptFlag = true) :
    ∃ s', w.machine.pendSvHandler = some s' ∧ Switched st w.machine s' ∧
      HandlerDone st w.machine s' := by
  obtain ⟨s, left⟩ := w
  obtain ⟨c, hcurrent, hresume, hsave⟩ := h.requested hflag
  simp only at hmode hflag hcurrent hresume hsave
  -- the state in which the frame of the outgoing thread is completed
  set s₀ : Machine τ :=
    { s with mode := .leaving, port := { s.port with switchInterruptFlag := false } } with hs₀
  have hlive : ∀ t, s₀.liveContext st t = s.liveContext st t := fun t => by
    simp only [Machine.liveContext, hs₀, hmode]
  have hmode₀ : s₀.mode ≠ .thread := by simp [hs₀]
  -- whatever is saved first, the thread to be resumed is then on its own stack
  have hdone : ∀ s₁ : Machine τ, (∀ u, s₁.SavedOnStack st u) → s₁.mode = .leaving →
      s₁.rtCurrentThread = s.rtCurrentThread → s₁.port.switchInterruptFlag = false →
      HandlerDone st s (s₁.switchToThread c) := by
    intro s₁ honstack hmode₁ hcurrent₁ hflag₁
    refine ⟨honstack, fun c' hc' => ?_, hcurrent₁, hflag₁⟩
    obtain rfl : c = c' := Option.some.inj (hcurrent.symm.trans hc')
    obtain ⟨hlo, hhi⟩ := honstack c
    simp only [Machine.HasRoom, Machine.switchToThread, hmode₁]
    omega
  rcases hsave with ⟨hcpu, hfrom⟩ | ⟨t, hcpu, hfrom⟩
  · -- the first switch: no thread is on the processor, nothing is saved
    have honstack : ∀ u, s₀.SavedOnStack st u := fun u => h.saved u (by simp [hcpu])
    refine ⟨s₀.switchToThread c, ?_, ⟨hcurrent.symm, fun t ht => ?_, fun u _ => ⟨rfl, rfl⟩,
      fun c' hc' => ?_⟩, hdone s₀ honstack rfl rfl rfl⟩
    · simp [Machine.pendSvHandler, hflag, hfrom, hresume, hs₀]
    · rw [hcpu] at ht; cases ht
    · obtain rfl : c = c' := Option.some.inj (hcurrent.symm.trans hc')
      exact switchToThread_live hmode₀ c
  · -- the context of `t` is completed in the room it left below its stack pointer
    have hroom : s₀.HasRoom st t := by
      have hroom := h.room t hcpu
      simp only [Machine.HasRoom, hmode] at hroom
      exact hroom
    obtain ⟨hself, hselfOn⟩ := saveTo_saved hroom hmode₀
    have hothers : ∀ u, u ≠ t → (s₀.saveTo t).savedContext st u = s₀.savedContext st u ∧
        (s₀.saveTo t).SavedOnStack st u := fun u hut =>
      saveTo_other hroom hmode₀ hut (h.saved u (by simp [hcpu, Ne.symm hut]))
    have honstack : ∀ u, (s₀.saveTo t).SavedOnStack st u := fun u => by
      by_cases hut : u = t
      · exact hut ▸ hselfOn
      · exact (hothers u hut).2
    refine ⟨(s₀.saveTo t).switchToThread c, ?_, ⟨hcurrent.symm, fun t' ht' => ?_, fun u hu => ?_,
      fun c' hc' => ?_⟩, hdone _ honstack rfl rfl rfl⟩
    · simp [Machine.pendSvHandler, hflag, hfrom, hresume, hs₀, saveTo_port]
    · obtain rfl : t = t' := Option.some.inj (hcpu.symm.trans ht')
      exact hself.trans (hlive t)
    · have hut : u ≠ t := fun hut => hu (hut ▸ hcpu)
      exact ⟨by simp [Machine.switchToThread, Machine.saveTo, hut, hs₀], (hothers u hut).1⟩
    · obtain rfl : c = c' := Option.some.inj (hcurrent.symm.trans hc')
      exact switchToThread_live (s := s₀.saveTo t) hmode₀ c

/-! ## Steps -/

theorem processor_eq (hcpu : s'.cpu = s.cpu)
    (hlive : ∀ t, s.cpu = some t → s'.liveContext st t = s.liveContext st t)
    (hsaved : ∀ u, s.cpu ≠ some u → s'.savedContext st u = s.savedContext st u) :
    s'.processor st = s.processor st := by
  have hcontext : s'.context st = s.context st := by
    funext t
    unfold Machine.context
    rw [hcpu]
    split
    · rename_i ht; exact hlive t ht
    · rename_i ht; exact hsaved t ht
  rw [Machine.processor, Machine.processor, hcpu, hcontext]

/-- A switch changes no context. -/
theorem Switched.processor (h : Switched st s s') {c : τ} (hc : s.rtCurrentThread = some c) :
    s'.processor st = { s.processor st with cpu := some c } := by
  have hcpu : s'.cpu = some c := h.cpu.trans hc
  have hsaved : ∀ t, s'.savedContext st t = s.context st t := by
    intro t
    unfold Machine.context
    split
    · rename_i ht; exact h.saved t ht
    · rename_i ht; exact (h.other t ht).2
  have hcontext : s'.context st = s.context st := by
    funext t
    rw [← hsaved t, Machine.context, hcpu]
    split
    · rename_i ht
      obtain rfl : c = t := Option.some.inj ht
      exact h.resumed c hc
    · rfl
  rw [Machine.processor, Machine.processor, hcpu, hcontext]

/-- The code of the running thread changes that thread's context only. -/
theorem execute_processor (high low : Regs) (psp : Nat) {mem : Memory}
    (hsaved : ∀ u, s.cpu ≠ some u → s.SavedOnStack st u) (hcpu : s.cpu = some t)
    (hmem : ∀ u, u ≠ t → ∀ a, st.base u ≤ a → a < st.top u → mem a = s.mem a) :
    (∀ u, u ≠ t → (s.execute high low psp mem).savedContext st u = s.savedContext st u) ∧
      Processor.Step (s.processor st) ((s.execute high low psp mem).processor st) := by
  set s' := s.execute high low psp mem with hs'
  have hcpu' : s'.cpu = some t := hcpu
  have hother : ∀ u, u ≠ t → s'.savedContext st u = s.savedContext st u := by
    intro u hut
    obtain ⟨hlo, hhi⟩ := hsaved u (by simp [hcpu, Ne.symm hut])
    exact savedContext_congr rfl hlo hhi (hmem u hut)
  refine ⟨hother, ?_⟩
  have hcontext : s'.context st = Function.update (s.context st) t (s'.liveContext st t) := by
    funext u
    by_cases hut : u = t
    · subst hut; simp [Machine.context, hcpu']
    · have hne : t ≠ u := Ne.symm hut
      simp [Machine.context, hcpu, hcpu', hut, hne, hother u hut]
  show Processor.Step _ ⟨s.cpu, s'.context st⟩
  rw [hcontext]
  exact .run (s.processor st) t _ hcpu

/-- The invariant holds after the step, and seen as a processor with a context for each
thread the machine has stood still, run a thread or gone over to another. -/
structure StepsTo (st : Stacks τ) (w w' : Watched τ) : Prop where
  inv : MachineInv st w'
  moves : w'.machine.processor st = w.machine.processor st ∨
    Processor.Step (w.machine.processor st) (w'.machine.processor st)

namespace MachineInv

/-- `rt_hw_context_switch_to` asks for a first switch, which nothing runs before. -/
theorem start (h : MachineInv st w) (t : τ)
    (hok : (MachineOp.start t).Allowed st w.machine)
    (hexec : w.exec st (.start t) = some w') : StepsTo st w w' := by
  obtain ⟨s, left⟩ := w
  cases hexec
  have hcpu : s.cpu = none := by
    cases hflag : s.port.switchInterruptFlag with
    | false => exact (h.idle hflag).trans hok
    | true =>
      obtain ⟨c, hreq⟩ := h.requested hflag
      exact absurd (hok.symm.trans hreq.current) (by simp)
  refine ⟨⟨h.room, h.saved, h.left, fun hflag => ?_, fun _ => ⟨t, requested_start s t hcpu⟩,
    fun _ => .inl rfl⟩, .inl rfl⟩
  cases hflag

/-- `rt_schedule` asks for a switch to the thread it makes current. -/
theorem schedule (h : MachineInv st w) (t : τ)
    (hok : (MachineOp.schedule t).Allowed st w.machine)
    (hexec : w.exec st (.schedule t) = some w') : StepsTo st w w' := by
  obtain ⟨s, left⟩ := w
  cases hexec
  obtain ⟨c, hcurrent, -⟩ := hok
  have hset : (s.schedule t).port.switchInterruptFlag = true ∧
      (s.schedule t).port.pendSv = true := by
    unfold Machine.schedule Port.rtHwContextSwitch
    split
    · rename_i hflag; exact ⟨hflag, rfl⟩
    · exact ⟨rfl, rfl⟩
  refine ⟨⟨h.room, h.saved, h.left, fun hflag => ?_,
    fun _ => ⟨t, requested_schedule hcurrent h.idle h.requested t⟩,
    fun _ => .inl hset.2⟩, .inl rfl⟩
  exact absurd (hset.1.symm.trans hflag) (by simp)

/-- The code of the running thread leaves every other context alone. -/
theorem execute (h : MachineInv st w) (high low : Regs) (psp : Nat) (mem : Memory)
    (hok : (MachineOp.execute high low psp mem).Allowed st w.machine)
    (hexec : w.exec st (.execute high low psp mem) = some w') : StepsTo st w w' := by
  obtain ⟨s, left⟩ := w
  cases hexec
  obtain ⟨hmode, t, hcpu, hlo, hhi, hmem⟩ := hok
  obtain ⟨hother, hrun⟩ := execute_processor high low psp h.saved hcpu hmem
  refine ⟨⟨fun u hu => ?_, h.saved, fun u hu => ?_, h.idle, fun hflag => ?_, h.pending⟩,
    .inr hrun⟩
  · obtain rfl : t = u := Option.some.inj (hcpu.symm.trans hu)
    have hmode' : (s.execute high low psp mem).mode = .thread := hmode
    simp only [Machine.HasRoom, hmode']
    exact ⟨hlo, hhi⟩
  · have hut : u ≠ t := fun hut => hu (hut ▸ hcpu)
    exact (hother u hut).trans (h.left u hu)
  · obtain ⟨c, hreq⟩ := h.requested hflag
    exact ⟨c, hreq.current, hreq.resume, hreq.save⟩

/-- The exception entry saves half a frame and changes no context. -/
theorem pendSvEntry (h : MachineInv st w)
    (hok : MachineOp.pendSvEntry.Allowed st w.machine)
    (hexec : w.exec st .pendSvEntry = some w') : StepsTo st w w' := by
  obtain ⟨s, left⟩ := w
  cases hexec
  obtain ⟨hpend, hmode⟩ := hok
  obtain ⟨hcpu', hsp, hcurrent, hmode', hport⟩ := pendSvEntry_frame s
  have hsavedOn : ∀ u, s.cpu ≠ some u → s.pendSvEntry.SavedOnStack st u := fun u hu => by
    rw [Machine.SavedOnStack, hsp]
    exact h.saved u hu
  have hcontexts : (∀ t, s.cpu = some t → s.pendSvEntry.HasRoom st t ∧
        s.pendSvEntry.liveContext st t = s.liveContext st t) ∧
      ∀ u, s.cpu ≠ some u → s.pendSvEntry.savedContext st u = s.savedContext st u := by
    cases hcpu : s.cpu with
    | none =>
      refine ⟨fun t ht => by (cases ht), fun u _ => ?_⟩
      simp [Machine.pendSvEntry, hcpu, Machine.savedContext]
    | some t =>
      obtain ⟨hroom, hlive, hother⟩ := HasRoom.entry (h.room t hcpu) hmode hcpu
      refine ⟨fun t' ht' => ?_, fun u hu => ?_⟩
      · cases ht'
        exact ⟨hroom, hlive⟩
      · exact hother u (fun hut => hu (by rw [hut])) (h.saved u (by rw [hcpu]; exact hu))
  refine ⟨⟨fun t ht => (hcontexts.1 t (hcpu'.symm.trans ht)).1,
    fun u hu => hsavedOn u (by rw [← hcpu']; exact hu),
    fun u hu => ?_, fun hflag => ?_, fun hflag => ?_, fun _ => .inr hmode'⟩, .inl ?_⟩
  · have hu' : s.cpu ≠ some u := by rw [← hcpu']; exact hu
    exact (hcontexts.2 u hu').trans (h.left u hu')
  · simp only [hport] at hflag
    exact hcpu'.trans ((h.idle hflag).trans hcurrent.symm)
  · simp only [hport] at hflag
    obtain ⟨c, hreq⟩ := h.requested hflag
    refine ⟨c, hcurrent.trans hreq.current, by rw [hport]; exact hreq.resume, ?_⟩
    rw [hcpu', hport]
    exact hreq.save
  · exact processor_eq hcpu' (fun t ht => (hcontexts.1 t ht).2) hcontexts.2

/-- The handler switches if there is a request, and only leaves if there is none. -/
theorem pendSvHandler (h : MachineInv st w)
    (hok : MachineOp.pendSvHandler.Allowed st w.machine)
    (hexec : w.exec st .pendSvHandler = some w') : StepsTo st w w' := by
  obtain ⟨s, left⟩ := w
  obtain ⟨s', hop, hret⟩ := Option.bind_eq_some_iff.mp hexec
  cases hret
  cases hflag : s.port.switchInterruptFlag with
  | true =>
    obtain ⟨s₁, hs₁, hswitched, hdone⟩ := h.handler hok hflag
    obtain rfl : s₁ = s' := Option.some.inj (hs₁.symm.trans hop)
    obtain ⟨c, hreq⟩ := h.requested hflag
    have hcpu' : s₁.cpu = some c := hswitched.cpu.trans hreq.current
    refine ⟨⟨fun t ht => ?_, fun u _ => hdone.onStack u, fun u hu => ?_, fun _ => ?_,
      fun hset => ?_, fun hset => ?_⟩, .inr ?_⟩
    · exact hdone.room t (hswitched.cpu.symm.trans ht)
    · by_cases hlast : s.cpu = some u
      · simp only [Watched.leftAfter, hlast, hflag, and_self, if_true]
        exact hswitched.saved u hlast
      · simp only [Watched.leftAfter, hlast, and_false, if_false]
        exact (hswitched.other u hlast).2.trans (h.left u hlast)
    · exact hswitched.cpu.trans hdone.current.symm
    · exact absurd (hdone.flag.symm.trans hset) (by simp)
    · exact absurd (hdone.flag.symm.trans hset) (by simp)
    · rw [hswitched.processor hreq.current]
      exact .switch (s.processor st) c
  | false =>
    obtain rfl : { s with mode := .leaving } = s' := by
      simpa [MachineOp.exec, Machine.pendSvHandler, hflag] using hop
    have hlive : ∀ t,
        Machine.liveContext st { s with mode := .leaving } t = s.liveContext st t := by
      intro t
      have hmode : s.mode = .entered := hok
      simp only [Machine.liveContext, hmode]
    refine ⟨⟨fun t ht => ?_, h.saved, fun u hu => ?_, h.idle, fun hset => ?_, fun hset => ?_⟩,
      .inl (processor_eq rfl (fun t _ => hlive t) fun _ _ => rfl)⟩
    · have hroom :=
        HasRoom.inHandler (h.room t ht) (by rw [show s.mode = .entered from hok]; simp)
      exact hroom
    · simp only [Watched.leftAfter, hflag, Bool.false_eq_true, false_and, if_false]
      exact h.left u hu
    · exact absurd (hflag.symm.trans hset) (by simp)
    · exact absurd (hflag.symm.trans hset) (by simp)

/-- The exception return loads the half that the entry saved. -/
theorem pendSvReturn (h : MachineInv st w)
    (hok : MachineOp.pendSvReturn.Allowed st w.machine)
    (hexec : w.exec st .pendSvReturn = some w') : StepsTo st w w' := by
  obtain ⟨s, left⟩ := w
  cases hexec
  have hlive : ∀ t, s.cpu = some t → s.pendSvReturn.HasRoom st t ∧
      s.pendSvReturn.liveContext st t = s.liveContext st t := fun t ht =>
    HasRoom.return (h.room t ht) hok
  refine ⟨⟨fun t ht => (hlive t ht).1, h.saved, h.left, h.idle, fun hflag => ?_, fun hflag => ?_⟩,
    .inl (processor_eq rfl (fun t ht => (hlive t ht).2) fun _ _ => rfl)⟩
  · obtain ⟨c, hreq⟩ := h.requested hflag
    exact ⟨c, hreq.current, hreq.resume, hreq.save⟩
  · rcases h.pending hflag with hpend | hmode
    · exact .inl hpend
    · exact absurd (hok.symm.trans hmode) (by simp)

/-- **One step** keeps the invariant and moves the machine as a processor moves. -/
theorem step (h : MachineInv st w) {op : MachineOp τ} (hok : op.Allowed st w.machine)
    (hexec : w.exec st op = some w') : StepsTo st w w' := by
  cases op with
  | start t => exact h.start t hok hexec
  | schedule t => exact h.schedule t hok hexec
  | execute high low psp mem => exact h.execute high low psp mem hok hexec
  | pendSvEntry => exact h.pendSvEntry hok hexec
  | pendSvHandler => exact h.pendSvHandler hok hexec
  | pendSvReturn => exact h.pendSvReturn hok hexec

end MachineInv

theorem MachineReachable.inv (hw : MachineReachable st w) : MachineInv st w := by
  obtain ⟨high, low, psp, mem, sp, threads, hall, hrun⟩ := hw
  exact Run.invariant (fun w op w' h hok hexec => (h.step hok hexec).inv)
    (MachineInv.booted high low psp mem sp hall) hrun

/-- **The deferred switch is an immediate one.** With no request outstanding the thread on
the processor is `rt_current_thread`. An outstanding request asks for `rt_current_thread`
and, once there has been a switch, for the context of the thread on the processor to be
saved; it is not lost; and the handler that finds it returns, saves that context through
that thread's `sp` and goes on with `rt_current_thread` in the context it last left with.
No step of the machine does more than to run the thread on the processor or to go over to
another. -/
theorem deferred_switch (hw : MachineReachable st w) :
    (w.machine.port.switchInterruptFlag = false → w.machine.cpu = w.machine.rtCurrentThread) ∧
      (w.machine.port.switchInterruptFlag = true → (∃ c, w.machine.Requested c) ∧
        (w.machine.port.pendSv = true ∨ w.machine.mode = .entered)) ∧
      (w.machine.port.switchInterruptFlag = true → w.machine.mode = .entered →
        ∃ w', w.exec st .pendSvHandler = some w' ∧ Switched st w.machine w'.machine ∧
          ∀ c, w.machine.rtCurrentThread = some c → w'.machine.liveContext st c = w'.left c) ∧
      ∀ op w', op.Allowed st w.machine → w.exec st op = some w' →
        w'.machine.processor st = w.machine.processor st ∨
          Processor.Step (w.machine.processor st) (w'.machine.processor st) := by
  have h := hw.inv
  refine ⟨h.idle, fun hflag => ⟨h.requested hflag, h.pending hflag⟩, fun hflag hmode => ?_,
    fun op w' hok hexec => (h.step hok hexec).moves⟩
  obtain ⟨s', hs', hswitched, -⟩ := h.handler hmode hflag
  refine ⟨⟨s', w.leftAfter st .pendSvHandler⟩, ?_, hswitched, fun c hc => ?_⟩
  · simp only [Watched.exec, MachineOp.exec, hs', Option.bind_eq_bind, Option.bind_some,
      Option.pure_def]
  · rw [hswitched.resumed c hc]
    by_cases hlast : w.machine.cpu = some c
    · simp only [Watched.leftAfter, hlast, hflag, and_self, if_true]
      exact hswitched.saved c hlast
    · simp only [Watched.leftAfter, hlast, and_false, if_false]
      exact (hswitched.other c hlast).2.trans (h.left c hlast)

end Switch

/-- Two threads with stacks of 32 words each. -/
def twoStacks : Stacks (Fin 2) where
  base t := 32 * t.val
  top t := 32 * t.val + 32
  tentry t := t.val
  parameter _ := 0
  room _ := by omega
  disjoint {t u a} _ _ _ _ := Fin.ext (by omega)

/-- The first switch goes to thread 0; then, before the next, a request to go over to
thread 1 is followed by one to come back. -/
def thereAndBack : List (MachineOp (Fin 2)) :=
  [.start 0, .pendSvEntry, .pendSvHandler, .pendSvReturn, .schedule 1, .schedule 0, .pendSvEntry]

def bootedTwo : Machine (Fin 2) :=
  booted twoStacks (fun _ => 0) (fun _ => 0) 0 (fun _ => 0) (fun _ => 0) [0, 1]

theorem resumes_itself : ∃ w,
    Run.exec (Watched.exec twoStacks) (fun w op => op.Allowed twoStacks w.machine) thereAndBack
        ⟨bootedTwo, initialContext twoStacks fun _ => 0⟩ = some w ∧
      w.machine.Requested 0 ∧ w.machine.cpu = some 0 ∧
      ∃ w', w.exec twoStacks .pendSvHandler = some w' ∧
        w'.machine.liveContext twoStacks 0 = w'.left 0 := by
  obtain ⟨w, hw, hreach, hp⟩ := Run.reach_of_exec (Watched.exec twoStacks)
    (fun w op => op.Allowed twoStacks w.machine) thereAndBack
    ⟨bootedTwo, initialContext twoStacks fun _ => 0⟩
    (fun w => w.machine.port.switchInterruptFlag && decide (w.machine.mode = .entered) &&
      decide (w.machine.rtCurrentThread = some 0) && decide (w.machine.cpu = some 0))
    (by decide +kernel)
  simp only [Bool.and_eq_true, decide_eq_true_eq] at hp
  obtain ⟨⟨⟨hflag, hmode⟩, hcurrent⟩, hcpu⟩ := hp
  have hreach : MachineReachable twoStacks w := ⟨_, _, _, _, _, [0, 1], by decide, hreach⟩
  obtain ⟨-, hrequest, hswitch, -⟩ := deferred_switch hreach
  obtain ⟨⟨c, hreq⟩, -⟩ := hrequest hflag
  obtain rfl : 0 = c := Option.some.inj (hcurrent.symm.trans hreq.current)
  obtain ⟨w', hw', -, hresumed⟩ := hswitch hflag hmode
  exact ⟨w, hw, hreq, hcpu, w', hw', hresumed 0 hcurrent⟩

/-! ## The kernel's requests -/

/-- `rt_schedule` does to `rt_current_thread` and the port what `schedule` does, or nothing. -/
theorem rtSchedule_schedule {τ σ : Type} [DecidableEq τ] [DecidableEq σ]
    {k k' : SchedSys τ σ (ThreadLinks τ σ)} (h : rtSchedule k = some k') {s : Machine τ}
    (hcurrent : s.rtCurrentThread = k.rtCurrentThread) (hport : s.port = k.port) :
    (k'.rtCurrentThread = k.rtCurrentThread ∧ k'.port = k.port) ∨
      ∃ t, k.rtCurrentThread ≠ some t ∧ k'.rtCurrentThread = (s.schedule t).rtCurrentThread ∧
        k'.port = (s.schedule t).port := by
  obtain ⟨t, -, hret⟩ := Option.bind_eq_some_iff.mp h
  cases hret
  unfold SchedSys.switchTo
  split
  · rename_i hswitch
    exact .inr ⟨t, hswitch.2.symm, rfl, by simp [Machine.schedule, hcurrent, hport]⟩
  · exact .inl ⟨rfl, rfl⟩

/-- `rt_system_scheduler_start` does what `start` does. -/
theorem rtSystemSchedulerStart_start {τ σ : Type} [DecidableEq τ] [DecidableEq σ]
    {k k' : SchedSys τ σ (ThreadLinks τ σ)} (h : rtSystemSchedulerStart k = some k')
    (s : Machine τ) :
    ∃ t, k'.rtCurrentThread = (s.start t).rtCurrentThread ∧ k'.port = (s.start t).port := by
  obtain ⟨t, -, hret⟩ := Option.bind_eq_some_iff.mp h
  cases hret
  exact ⟨t, rfl, rfl⟩

end SampleRtos
