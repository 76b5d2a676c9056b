import SampleRtos.Kernel.Commute
import SampleRtos.Timer.Origin

/-!
# The origin of the tick cannot be told

Nothing a kernel does depends on what `rt_tick` counts from: with `rt_tick` and the deadlines of
the timers on the list moved by the same distance, every run goes on as it would have, each
operation returning or not as before and leaving the same threads, lists, semaphores and order
of timers. In particular it makes no difference when the counter wraps.
-/

namespace SampleRtos

open Intrusive

section Origin
variable {τ σ υ : Type} [DecidableEq τ] [DecidableEq σ] [DecidableEq υ] {d : Tick}
  {a b : SeqKernel τ σ υ} {t : τ} {s : σ}

abbrev ShiftedSeq (d : Tick) (a b : SeqKernel τ σ υ) : Prop := ShiftedSys d a b

namespace ShiftedSys

/-! ## Operations on sequences -/

section
omit [DecidableEq τ] [DecidableEq σ] [DecidableEq υ]

theorem onSched (h : ShiftedSeq d a b)
    (f : SchedSys τ σ (ThreadRings τ σ) → Option (SchedSys τ σ (ThreadRings τ σ))) :
    Option.Rel (ShiftedSeq d) (a.onSched f) (b.onSched f) := by
  unfold Sys.onSched
  rw [h.env]
  refine Lockstep.bind (Lockstep.refl _) fun e e' _ _ he => ?_
  subst he
  exact .some ⟨h.timers, rfl⟩

theorem onTimers (h : ShiftedSeq d a b) {f : SeqTimers τ υ → Option (SeqTimers τ υ)}
    (hf : Option.Rel (Shifted d) (f a.timers) (f b.timers)) :
    Option.Rel (ShiftedSeq d) (a.onTimers f) (b.onTimers f) :=
  Lockstep.bind hf fun _ _ _ _ hm => .some ⟨hm, h.env⟩

theorem setEnv (h : ShiftedSeq d a b) (e : SchedSys τ σ (ThreadRings τ σ)) :
    ShiftedSeq d { a with env := e } { b with env := e } := ⟨h.timers, rfl⟩

end

theorem threadInit (h : ShiftedSeq d a b) (ht : threadTimer t ∉ a.timers.queue) (priority : Nat)
    (tick : BitVec 32) :
    ShiftedSeq d (Abs.threadInit a t priority tick) (Abs.threadInit b t priority tick) := by
  refine ⟨h.timers.init ht _ _ _, ?_⟩
  rw [Abs.threadInit, Abs.threadInit, h.env]

section
omit [DecidableEq σ]

theorem threadSuspend (h : ShiftedSeq d a b) (t : τ) :
    Option.Rel (fun x y => x.1 = y.1 ∧ ShiftedSeq d x.2 y.2) (Abs.threadSuspend a t)
      (Abs.threadSuspend b t) := by
  unfold Abs.threadSuspend
  rw [h.env]
  split
  · exact .some ⟨rfl, h⟩
  · refine Lockstep.bind (h.onSched _) fun a₁ b₁ _ _ h₁ => ?_
    exact Lockstep.bind (h₁.timers.stop _) fun x y _ _ hxy => .some ⟨rfl, hxy.2, h₁.env⟩

theorem threadTimerStart (h : ShiftedSeq d a b) (hw : KernelWf a) (t : τ) (tick : Tick) :
    Option.Rel (ShiftedSeq d) (Abs.threadTimerStart a t tick) (Abs.threadTimerStart b t tick) :=
  h.onTimers ((h.timers.control _ _).start hw.timers.valid _)

theorem threadSleep (h : ShiftedSeq d a b) (hw : KernelWf a) (tick : Tick) :
    Option.Rel (ShiftedSeq d) (Abs.threadSleep a tick) (Abs.threadSleep b tick) := by
  unfold Abs.threadSleep
  rw [h.env]
  refine Lockstep.bind (Lockstep.refl _) fun t t' _ _ htt => ?_
  subst htt
  refine Lockstep.bind (h.threadSuspend t) fun x y hx _ hxy => ?_
  have hw₁ : KernelWf x.2 := (hw.threadSuspend (e := x.1) hx).1
  refine Lockstep.bind (hxy.2.threadTimerStart hw₁ t tick) fun a₂ b₂ _ _ h₂ => ?_
  exact h₂.onSched _

end

theorem threadDetach (h : ShiftedSeq d a b) (t : τ) :
    Option.Rel (ShiftedSeq d) (Abs.threadDetach a t) (Abs.threadDetach b t) := by
  unfold Abs.threadDetach
  have hrem : Option.Rel (ShiftedSeq d)
      (if (a.env.thread t).stat ≠ .init then a.onSched fun e => Abs.removeThread e t else some a)
      (if (b.env.thread t).stat ≠ .init then b.onSched fun e => Abs.removeThread e t
        else some b) := by
    rw [h.env]
    split
    · exact h.onSched _
    · exact .some h
  refine Lockstep.bind hrem fun a₁ b₁ _ _ h₁ => ?_
  refine Lockstep.bind (h₁.onTimers (h₁.timers.remove _)) fun a₂ b₂ _ _ h₂ => ?_
  dsimp only
  rw [h₂.env]
  split
  · exact .some (h₂.setEnv _)
  · refine Lockstep.bind (Lockstep.refl _) fun l l' _ _ hll => ?_
    subst hll
    exact .some (h₂.setEnv _)

theorem takeWait (h : ShiftedSeq d a b) (hw : KernelWf a) (hcan : CanBlock a t)
    (time : BitVec 32) :
    Option.Rel (ShiftedSeq d) (Abs.takeWait a s t time) (Abs.takeWait b s t time) := by
  unfold Abs.takeWait Abs.ipcSuspend
  rw [h.env]
  have h₀ := h.setEnv (a.env.setError t RT_EOK)
  have hw₀ := hw.setError t RT_EOK
  have hins : Option.Rel (ShiftedSeq d)
      (Abs.threadSuspend { a with env := a.env.setError t RT_EOK } t >>= fun x =>
        x.2.onSched fun e => Abs.ipcInsert e s t)
      (Abs.threadSuspend { b with env := a.env.setError t RT_EOK } t >>= fun x =>
        x.2.onSched fun e => Abs.ipcInsert e s t) :=
    Lockstep.bind (h₀.threadSuspend t) fun _ _ _ _ hxy => hxy.2.onSched _
  refine Lockstep.bind hins fun a₂ b₂ ha₂ _ h₂ => ?_
  obtain ⟨⟨e, a₁⟩, hsusp, ha₂⟩ := Option.bind_eq_some_iff.mp ha₂
  have h₁ := threadSuspend_suspends hw₀ ((canBlock_setError _).mpr hcan) hsusp
  obtain ⟨hw₂, -⟩ := h₁.inserted ha₂
  have hstart : Option.Rel (ShiftedSeq d)
      (if 0 < time.toInt then Abs.threadTimerStart a₂ t time else some a₂)
      (if 0 < time.toInt then Abs.threadTimerStart b₂ t time else some b₂) := by
    split
    · exact h₂.threadTimerStart hw₂ t time
    · exact .some h₂
  exact Lockstep.bind hstart fun _ _ _ _ h₃ => h₃.onSched _

theorem semTake (h : ShiftedSeq d a b) (hw : KernelWf a) {time : BitVec 32}
    (hmay : TakeBlocks a s time → Abs.MayBlock a) :
    Option.Rel (fun x y => x.1 = y.1 ∧ ShiftedSeq d x.2 y.2) (Abs.semTake a s time)
      (Abs.semTake b s time) := by
  unfold Abs.semTake
  rw [h.env]
  split
  · exact .some ⟨rfl, h.setEnv _⟩
  · rename_i hpos
    split
    · exact .some ⟨rfl, h⟩
    · rename_i htime
      refine Lockstep.bind (Lockstep.refl _) fun t t' ht _ htt => ?_
      subst htt
      obtain ⟨u, hu, hcan⟩ := hmay ⟨by bv_omega, htime⟩
      obtain rfl : t = u := Option.some.inj (ht.symm.trans hu)
      exact Lockstep.bind (h.takeWait hw hcan time) fun _ _ _ _ h₁ => .some ⟨rfl, h₁⟩

section
omit [DecidableEq τ] [DecidableEq σ] [DecidableEq υ]

theorem callAllowed (h : ShiftedSeq d a b) (c : Call τ σ υ) :
    Abs.CallAllowed a c ↔ Abs.CallAllowed b c := by
  cases c with
  | threadInit t priority tick => rw [Abs.CallAllowed, Abs.CallAllowed, h.env]
  | semInit s value flag => rw [Abs.CallAllowed, Abs.CallAllowed, h.env]
  | timerInit u time flag => rw [Abs.CallAllowed, Abs.CallAllowed, h.timers.queue]
  | _ => exact Iff.rfl

end

variable [Fintype τ]

theorem execCall (h : ShiftedSeq d a b) (hw : KernelWf a) {c : Call τ σ υ}
    (hc : Abs.CallAllowed a c) :
    Option.Rel (ShiftedSeq d) (Abs.execCall a c) (Abs.execCall b c) := by
  unfold Abs.execCall
  cases c with
  | threadInit t priority tick => exact .some (h.threadInit (hw.timer_free hc.1) priority tick)
  | threadSuspend t => exact Lockstep.map_snd (h.threadSuspend t)
  | threadDetach t => exact h.threadDetach t
  | semInit s value flag =>
    refine .some ⟨h.timers, ?_⟩
    rw [h.env]
  | semTrytake s => exact Lockstep.map_snd (h.semTake hw fun hb => absurd rfl hb.2)
  | enterCritical =>
    refine .some ⟨h.timers, ?_⟩
    rw [h.env]
  | timerInit u time flag =>
    exact .some ⟨h.timers.init (fun hmem => hc _ hmem rfl) _ _ _, h.env⟩
  | timerStart u => exact h.onTimers (h.timers.start hw.timers.valid _)
  | timerStop u => exact h.onTimers (Lockstep.map_snd (h.timers.stop _))
  | timerControl u cmd => exact .some ⟨h.timers.control _ cmd, h.env⟩
  | timerDetach u => exact h.onTimers (h.timers.remove _)
  | _ => exact h.onSched _

theorem runCalls (cs : List (Call τ σ υ)) : ∀ {a b : SeqKernel τ σ υ}, ShiftedSeq d a b →
    KernelWf a → Option.Rel (ShiftedSeq d) (Abs.runCalls cs a) (Abs.runCalls cs b) := by
  induction cs with
  | nil => exact fun h _ => .some h
  | cons c cs ih =>
    intro a b h hw
    refine Lockstep.bind (Lockstep.ite (h.callAllowed c)
      (fun hc => h.execCall hw ((h.callAllowed c).mpr hc)) fun _ => .none) fun a₁ b₁ ha₁ _ h₁ => ?_
    split at ha₁
    · rename_i hc
      exact ih h₁ (hw.execCall hc ha₁)
    · cases ha₁

/-! ## Ticks and operations -/

theorem callback (h : ShiftedSeq d a b) (hw : KernelWf a) (x : τ ⊕ υ) (f : TimerCallback τ)
    (script : List (Call τ σ υ)) :
    Option.Rel (ShiftedSeq d) (Abs.callback x f script a) (Abs.callback x f script b) := by
  cases f with
  | rtThreadTimeout t => exact h.onSched fun e => Abs.timeout e t
  | user => exact runCalls script h hw

theorem callback_valid (hw : KernelWf a) {x : τ ⊕ υ} {f : TimerCallback τ}
    {script : List (Call τ σ υ)} (hrun : Abs.callback x f script a = some b) :
    b.timers.timerList.Valid := by
  cases f with
  | rtThreadTimeout t =>
    rw [(onSched_spec (show a.onSched (fun e => Abs.timeout e t) = some b from hrun)).2]
    exact hw.timers.valid
  | user => exact (hw.runCalls script hrun).timers.valid

theorem tick (h : ShiftedSeq d a b) (hw : KernelWf a) (script : List (List (Call τ σ υ))) :
    Option.Rel (ShiftedSeq d) (Abs.tick script a) (Abs.tick script b) := by
  have hstart : Option.Rel (ShiftedSeq d) (Abs.tickStart a) (Abs.tickStart b) := by
    have hlater : ShiftedSeq d { a with timers := { a.timers with rtTick := a.timers.rtTick + 1 } }
        { b with timers := { b.timers with rtTick := b.timers.rtTick + 1 } } := by
      refine ⟨⟨?_, h.timers.randomNr, h.timers.timerList, h.timers.timer, h.timers.deadline⟩, h.env⟩
      show b.timers.rtTick + 1 = a.timers.rtTick + 1 + d
      rw [h.timers.rtTick]
      ring
    exact hlater.onSched _
  refine Lockstep.bind hstart fun a₁ b₁ ha₁ _ h₁ => ?_
  refine ShiftedSys.check KernelWf (fun {a b c x} hw h _ => ?_) (fun hw hx hf => hw.fire hx hf)
    script (hw.tickStart ha₁) h₁
  exact h.fire (fun f h => h.callback (hw.eraseTimer x) x f c)
    fun f a₁ hcall => callback_valid (hw.eraseTimer x) hcall

section
omit [DecidableEq τ] [DecidableEq σ] [DecidableEq υ] [Fintype τ]

theorem allowed (h : ShiftedSeq d a b) (op : Op τ σ υ) : Abs.Allowed a op ↔ Abs.Allowed b op := by
  cases op with
  | call c => exact h.callAllowed c
  | threadSleep tick => rw [Abs.Allowed, Abs.Allowed, Abs.MayBlock, Abs.MayBlock, h.env]
  | semTake s time =>
    rw [Abs.Allowed, Abs.Allowed, TakeBlocks, TakeBlocks, Abs.MayBlock, Abs.MayBlock, h.env]
  | tickIncrease script => exact Iff.rfl
  | schedulerStart => rw [Abs.Allowed, Abs.Allowed, h.env]

end

/-- **An operation** does the same on both sides. -/
theorem exec (h : ShiftedSeq d a b) (hw : KernelWf a) {op : Op τ σ υ} (hop : Abs.Allowed a op) :
    Option.Rel (ShiftedSeq d) (Abs.exec a op) (Abs.exec b op) := by
  unfold Abs.exec
  cases op with
  | call c => exact h.execCall hw hop
  | threadSleep tick => exact h.threadSleep hw tick
  | semTake s time => exact Lockstep.map_snd (h.semTake hw hop)
  | tickIncrease script => exact h.tick hw script
  | schedulerStart => exact h.onSched _

section
omit [DecidableEq τ] [DecidableEq σ] [DecidableEq υ] [Fintype τ]

/-- The other kernel is in order, too. -/
theorem wf (h : ShiftedSeq d a b) (hw : KernelWf a) : KernelWf b := by
  refine ⟨h.env ▸ hw.sched, ⟨?_, ?_, fun x hx => ?_, fun t ht => ?_⟩, fun t ht => ?_,
    fun t ht => ?_⟩
  · rw [h.timers.timerList]
    exact hw.timers.valid
  · rw [h.timers.timerList]
    exact hw.timers.head_live
  · rw [h.timers.timerList] at hx
    have hok := hw.timers.ok x hx
    cases x with
    | inl t =>
      exact ⟨(h.timers.timer _).timeoutFunc.trans hok.1, mt (h.timers.timer _).periodic.mp hok.2⟩
    | inr u => exact (h.timers.timer _).timeoutFunc.trans hok
  · rw [h.timers.queue] at ht
    exact (h.timers.timer _).activated.mpr (hw.timers.activated t ht)
  · rw [h.timers.queue] at ht
    rw [h.env]
    exact hw.linked t ht
  · rw [h.timers.timerList] at ht
    rw [h.env]
    exact hw.node_live t ht

end

end ShiftedSys

/-! ## The kernel -/

variable [Fintype τ] [Fintype υ] {k k' : RtKernel τ σ υ}

/-- `k'` is `k` with `rt_tick` and the deadlines of the timers on the list `d` later. -/
structure ShiftedBy (d : Tick) (k k' : RtKernel τ σ υ) : Prop where
  env : k'.env = k.env
  rtTick : k'.timers.rtTick = k.timers.rtTick + d
  randomNr : k'.timers.randomNr = k.timers.randomNr
  timerList : k'.timers.timerList = k.timers.timerList
  timer : ∀ x, (k.timers.timer x).SameBut (k'.timers.timer x)
  deadline : ∀ x ∈ RtKernel.queue k,
    (k'.timers.timer x).timeoutTick = (k.timers.timer x).timeoutTick + d

/-- The kernel had `rt_tick` been `d` ahead. -/
def Kernel.later {LT LS : Type} (k : Kernel τ σ υ LT LS) (d : Tick) : Kernel τ σ υ LT LS :=
  { k with
    timers :=
      { k.timers with
        rtTick := k.timers.rtTick + d
        timer := fun x =>
          { k.timers.timer x with timeoutTick := (k.timers.timer x).timeoutTick + d } } }

section
omit [DecidableEq τ] [DecidableEq σ] [DecidableEq υ]

theorem shiftedBy_later (k : RtKernel τ σ υ) (d : Tick) : ShiftedBy d k (k.later d) :=
  ⟨rfl, rfl, rfl, rfl, fun _ => rfl, fun _ _ => rfl⟩

end

theorem TimerRel.randomNr {ι γ : Type} [DecidableEq ι] {m : TimerSys ι γ (TimerLinks ι)}
    {c : TimerSys ι γ (TimerRings ι)} (h : TimerRel m c) : m.randomNr = c.randomNr := by
  cases h with
  | mk => rfl

namespace ShiftedBy

theorem sequences (hk : KernelRel k a) (h : ShiftedBy d k k') :
    ∃ b, KernelRel k' b ∧ ShiftedSeq d a b := by
  have hrep : Rep k'.timers.timerList a.timers.timerList := h.timerList ▸ hk.timers.rep
  refine ⟨{ a with timers := { k'.timers with timerList := a.timers.timerList } }, ⟨?_, ?_⟩,
    ⟨⟨?_, ?_, rfl, fun x => ?_, fun x hx => ?_⟩, rfl⟩⟩
  · exact .mk { k'.timers with timerList := a.timers.timerList } k'.timers.timerList hrep
  · show SchedRel k'.env a.env
    rw [h.env]
    exact hk.env
  · rw [← hk.timers.rtTick]
    exact h.rtTick
  · rw [← hk.timers.randomNr]
    exact h.randomNr
  · rw [← hk.timers.timer]
    exact h.timer x
  · rw [← hk.timers.timer]
    exact h.deadline x (hk.queue ▸ hx)

theorem of_sequences (hk : KernelRel k a) (hk' : KernelRel k' b) (h : ShiftedSeq d a b) :
    ShiftedBy d k k' where
  env := by
    have henv := hk'.env
    rw [h.env] at henv
    exact henv.unique hk.env
  rtTick := by rw [hk'.timers.rtTick, hk.timers.rtTick, h.timers.rtTick]
  randomNr := by rw [hk'.timers.randomNr, hk.timers.randomNr, h.timers.randomNr]
  timerList := by
    have hrep := hk'.timers.rep
    rw [h.timers.timerList] at hrep
    exact hrep.unique hk.timers.rep
  timer x := by
    rw [hk'.timers.timer, hk.timers.timer]
    exact h.timers.timer x
  deadline x hx := by
    rw [hk.queue] at hx
    rw [hk'.timers.timer, hk.timers.timer]
    exact h.timers.deadline x hx

/-- **One operation** is allowed and returns on both sides or on none. -/
theorem exec (hk : KernelRel k a) (hw : KernelWf a) (h : ShiftedBy d k k') (op : Op τ σ υ) :
    (op.Allowed k ↔ op.Allowed k') ∧
      (op.Allowed k → Option.Rel (ShiftedBy d) (op.exec k) (op.exec k')) := by
  obtain ⟨b, hk', hb⟩ := h.sequences hk
  have hw' := hb.wf hw
  have hleft := allowed_iff hk hw.sched op
  have hright := allowed_iff hk' hw'.sched op
  refine ⟨hleft.trans ((hb.allowed op).trans hright.symm), fun hop => ?_⟩
  have hop₁ := hleft.mp hop
  have hrel := exec_rel hk hw hop₁
  have hrel' := exec_rel hk' hw' ((hb.allowed op).mp hop₁)
  have hab := hb.exec hw hop₁
  generalize op.exec k = x at hrel ⊢
  generalize op.exec k' = x' at hrel' ⊢
  generalize Abs.exec a op = y at hrel hab
  generalize Abs.exec b op = y' at hrel' hab
  cases hab with
  | none =>
    cases hrel
    cases hrel'
    exact .none
  | some h₁ =>
    cases hrel with
    | some hk₁ =>
      cases hrel' with
      | some hk₁' => exact .some (of_sequences hk₁ hk₁' h₁)

/-- Any number of operations. -/
theorem run (ops : List (Op τ σ υ)) : ∀ {k k' : RtKernel τ σ υ} {a : SeqKernel τ σ υ},
    KernelRel k a → KernelWf a → ShiftedBy d k k' →
      Option.Rel (ShiftedBy d) (Run.exec Op.exec (fun k op => op.Allowed k) ops k)
        (Run.exec Op.exec (fun k op => op.Allowed k) ops k') := by
  induction ops with
  | nil => exact fun _ _ h => .some h
  | cons op ops ih =>
    intro k k' a hk hw h
    obtain ⟨hallowed, hexec⟩ := h.exec hk hw op
    refine Lockstep.bind (Lockstep.ite hallowed (fun hop => hexec (hallowed.mpr hop))
      fun _ => .none) fun k₁ k₁' hk₁ _ h₁ => ?_
    split at hk₁
    · rename_i hop
      have hop := (allowed_iff hk hw.sched op).mp hop
      obtain ⟨a₁, ha₁, hrel₁⟩ := Lockstep.exists_of_left (exec_rel hk hw hop) hk₁
      exact ih hrel₁ (hw.exec hop ha₁) h₁
    · cases hk₁

end ShiftedBy

/-- **The origin of the tick cannot be told.** A reachable kernel and one whose `rt_tick` and
whose running timers' deadlines are `d` later take every list of operations, ticks with any
callbacks among them, in the same way: they are refused, get stuck or return together, and what
they leave differs by `d` again and in nothing else but the old deadlines of timers that are not
running. -/
theorem tick_origin_unobservable {idle : τ} (hk : Reachable idle (fun _ _ => True) k)
    (h : ShiftedBy d k k') (ops : List (Op τ σ υ)) :
    Option.Rel (ShiftedBy d) (Run.exec Op.exec (fun k op => op.Allowed k) ops k)
      (Run.exec Op.exec (fun k op => op.Allowed k) ops k') := by
  obtain ⟨a, hrel, hw, -⟩ := hk.invariant (I := fun _ => True) (fun _ _ _ => trivial)
    fun _ _ _ _ _ _ _ _ _ _ => trivial
  exact ShiftedBy.run ops hrel hw h

end Origin

/-- Thread 1 goes to sleep for three ticks. -/
def asleepForThree : List (Op (Fin 2) (Fin 1) Empty) :=
  [.call (.threadInit 1 3 10), .call (.threadStartup 1), .schedulerStart, .threadSleep 3]

/-- With `rt_tick` two ticks before it wraps, thread 1 is woken by the third tick, after the
wrap. -/
theorem woken_across_wrap : ∃ k k' : RtKernel (Fin 2) (Fin 1) Empty,
    Reachable 0 (fun _ _ => True) k ∧ (k.env.thread 1).stat = .suspend ∧
      Run.exec Op.exec (fun k op => op.Allowed k)
        [.tickIncrease [], .tickIncrease [], .tickIncrease [[]]] (k.later 0xfffffffe) = some k' ∧
      (k'.env.thread 1).stat = .ready ∧ k'.timers.rtTick = 1 := by
  obtain ⟨k, -, hk, hp⟩ := reachable_of_runFrom 0 (fun _ _ => True) asleepForThree
    (fun k : RtKernel (Fin 2) (Fin 1) Empty => decide ((k.env.thread 1).stat = .suspend) &&
      ((Run.exec Op.exec (fun k op => op.Allowed k)
        [.tickIncrease [], .tickIncrease [], .tickIncrease [[]]] k).any
        fun k' : RtKernel (Fin 2) (Fin 1) Empty =>
          decide ((k'.env.thread 1).stat = .ready) && decide (k'.timers.rtTick = 3)))
    (by decide +kernel)
  simp only [Bool.and_eq_true, decide_eq_true_eq, Option.any_eq_true] at hp
  obtain ⟨hst, k₁, hk₁, hready, htick⟩ := hp
  obtain ⟨k', hk', h'⟩ := Lockstep.exists_of_left
    (tick_origin_unobservable hk (shiftedBy_later k 0xfffffffe) _) hk₁
  refine ⟨k, k', hk, hst, hk', ?_, ?_⟩
  · rw [h'.env]
    exact hready
  · rw [h'.rtTick, htick]
    decide

end SampleRtos
