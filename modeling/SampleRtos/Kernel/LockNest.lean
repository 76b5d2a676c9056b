import SampleRtos.Kernel.Observe

/-!
# Nesting the scheduler lock

What is counted here is how often `rt_enter_critical` has been called without its
`rt_exit_critical`, by threads and by timer callbacks. `rt_scheduler_lock_nest` is
that count as long as it stays below the guard in `rt_enter_critical`; the guard
has no counterpart in `rt_exit_critical`, so an enter that it swallows makes the
exits one too many.
-/

namespace SampleRtos

open Intrusive

section LockNest
variable {τ σ υ : Type} [DecidableEq τ] [DecidableEq σ] [DecidableEq υ]

/-! ## Counting enters and exits -/

/-- The enters that are open after a call. -/
def Call.nest (d : Nat) : Call τ σ υ → Nat
  | .enterCritical => d + 1
  | .exitCritical => d - 1
  | _ => d

def nestAll (d : Nat) (cs : List (Call τ σ υ)) : Nat := cs.foldl Call.nest d

/-- `P` holds of each call and the number of enters open before it. -/
def Throughout (P : Nat → Call τ σ υ → Prop) : Nat → List (Call τ σ υ) → Prop
  | _, [] => True
  | d, c :: cs => P d c ∧ Throughout P (c.nest d) cs

/-- The exit of an enter that is open. -/
def Paired (d : Nat) : Call τ σ υ → Prop
  | .exitCritical => 0 < d
  | _ => True

/-- An enter that the guard of `rt_enter_critical` lets through. -/
def Counted (d : Nat) : Call τ σ υ → Prop
  | .enterCritical => d < 255
  | _ => True

/-- An enter is open before, between and after the calls. -/
def Held : Nat → List (Call τ σ υ) → Prop
  | d, [] => 0 < d
  | d, c :: cs => 0 < d ∧ Held (c.nest d) cs

instance decidableThroughout (P : Nat → Call τ σ υ → Prop) [∀ d c, Decidable (P d c)] :
    ∀ (d : Nat) (cs : List (Call τ σ υ)), Decidable (Throughout P d cs)
  | _, [] => .isTrue trivial
  | d, c :: cs =>
      have := decidableThroughout P (c.nest d) cs
      inferInstanceAs (Decidable (P d c ∧ Throughout P (c.nest d) cs))

instance decidableHeld : ∀ (d : Nat) (cs : List (Call τ σ υ)), Decidable (Held d cs)
  | d, [] => inferInstanceAs (Decidable (0 < d))
  | d, c :: cs =>
      have := decidableHeld (c.nest d) cs
      inferInstanceAs (Decidable (0 < d ∧ Held (c.nest d) cs))

instance (d : Nat) (c : Call τ σ υ) : Decidable (Paired d c) := by
  rcases c <;> dsimp only [Paired] <;> infer_instance

instance (d : Nat) (c : Call τ σ υ) : Decidable (Counted d c) := by
  rcases c <;> dsimp only [Counted] <;> infer_instance

section
omit [DecidableEq τ] [DecidableEq σ] [DecidableEq υ]

theorem nestAll_append (d : Nat) (cs cs' : List (Call τ σ υ)) :
    nestAll d (cs ++ cs') = nestAll (nestAll d cs) cs' := List.foldl_append

theorem throughout_append {P : Nat → Call τ σ υ → Prop} (cs cs' : List (Call τ σ υ)) :
    ∀ d, Throughout P d (cs ++ cs') ↔ Throughout P d cs ∧ Throughout P (nestAll d cs) cs' := by
  induction cs with
  | nil => simp [Throughout, nestAll]
  | cons c cs ih =>
    intro d
    rw [List.cons_append, Throughout, Throughout, ih, and_assoc]
    rfl

theorem held_append (cs cs' : List (Call τ σ υ)) :
    ∀ d, Held d (cs ++ cs') ↔ Held d cs ∧ Held (nestAll d cs) cs' := by
  induction cs with
  | nil =>
    intro d
    have hpos : Held d cs' → 0 < d := by
      intro h
      cases cs' with
      | nil => exact h
      | cons c cs' => exact h.1
    exact ⟨fun h => ⟨hpos h, h⟩, And.right⟩
  | cons c cs ih =>
    intro d
    rw [List.cons_append, Held, Held, ih, and_assoc]
    rfl

end

/-! ## The calls an operation makes -/

/-- The calls a firing timer's callback makes, given its script. -/
def firedCalls {LT LS : Type} (k : Kernel τ σ υ LT LS) (x : τ ⊕ υ) (c : List (Call τ σ υ)) :
    List (Call τ σ υ) :=
  if (k.timers.timer x).timeoutFunc = some .user then c else []

/-- The calls the callbacks of `rt_timer_check` make, in order. -/
def timerCheckCalls [Fintype τ] [Fintype υ] :
    List (List (Call τ σ υ)) → RtKernel τ σ υ → List (Call τ σ υ)
  | [], _ => []
  | c :: script, k =>
      match k.queue.head? with
      | none => []
      | some x =>
          if (k.timers.timer x).due k.timers.rtTick then
            firedCalls k x c ++ (rtTimerFire kernelCallback c x k).elim [] (timerCheckCalls script)
          else []

/-- The calls the callbacks of `rt_tick_increase` make, in order. -/
def tickCalls [Fintype τ] [Fintype υ] (script : List (List (Call τ σ υ))) (k : RtKernel τ σ υ) :
    List (Call τ σ υ) :=
  (Sys.onSched { k with timers := { k.timers with rtTick := k.timers.rtTick + 1 } }
    rtTickSlice).elim [] (timerCheckCalls script)

/-- The calls an operation makes, in callbacks included. -/
def Op.calls [Fintype τ] [Fintype υ] (k : RtKernel τ σ υ) : Op τ σ υ → List (Call τ σ υ)
  | .call c => [c]
  | .tickIncrease script => tickCalls script k
  | _ => []

section
omit [DecidableEq τ] [DecidableEq σ] [DecidableEq υ]

/-- The timer that stands first, read off the links. -/
theorem queue_head [Fintype τ] [Fintype υ] {k : RtKernel τ σ υ} {x : τ ⊕ υ} :
    k.queue.head? = some x ↔ k.timers.timerList.next timerHead = some (.item x) := by
  have : Nonempty (τ ⊕ υ) := ⟨x⟩
  obtain ⟨n, hn⟩ := Nat.exists_eq_succ_of_ne_zero (Fintype.card_ne_zero (α := τ ⊕ υ))
  rw [RtKernel.queue, hn, Links.read]
  split
  · rename_i y hy
    rw [hy, List.head?_cons]
    exact ⟨fun h => by rw [Option.some.inj h], fun h => by cases h; rfl⟩
  · rename_i hnone
    exact ⟨fun h => (Option.some_ne_none x h.symm).elim, fun h => absurd h (hnone x)⟩

end

/-! ## Operations that leave the lock alone -/

/-- The lock count stays, and while it is not zero so does the current thread. -/
structure Defers {L : Type} (e e' : SchedSys τ σ L) : Prop where
  lockNest : e'.rtSchedulerLockNest = e.rtSchedulerLockNest
  current : e.rtSchedulerLockNest ≠ 0 → e'.rtCurrentThread = e.rtCurrentThread

namespace Defers
variable {L : Type} {e e' e'' : SchedSys τ σ (ThreadLinks τ σ)} {t : τ} {s : σ}

section
omit [DecidableEq τ] [DecidableEq σ]

theorem refl (e : SchedSys τ σ L) : Defers e e := ⟨rfl, fun _ => rfl⟩

theorem trans {e e' e'' : SchedSys τ σ L} (h : Defers e e') (h' : Defers e' e'') :
    Defers e e'' where
  lockNest := h'.lockNest.trans h.lockNest
  current hn := (h'.current (by rw [h.lockNest]; exact hn)).trans (h.current hn)

end

section
omit [DecidableEq σ]

theorem schedule (h : rtSchedule e = some e') : Defers e e' := by
  obtain ⟨t, -, hret⟩ := Option.bind_eq_some_iff.mp h
  cases hret
  unfold SchedSys.switchTo
  split
  · rename_i hfree
    exact ⟨rfl, fun hn => absurd hfree.1 hn⟩
  · exact refl _

end

theorem insertThread (h : rtScheduleInsertThread e t = some e') : Defers e e' := by
  obtain ⟨l, -, hret⟩ := Option.bind_eq_some_iff.mp h
  cases hret
  exact ⟨rfl, fun _ => rfl⟩

theorem removeThread (h : rtScheduleRemoveThread e t = some e') : Defers e e' := by
  obtain ⟨l, -, h⟩ := Option.bind_eq_some_iff.mp h
  dsimp only at h
  split at h <;> cases h <;> exact ⟨rfl, fun _ => rfl⟩

theorem resume {r : Int} (h : rtThreadResume e t = some (r, e')) : Defers e e' := by
  unfold rtThreadResume at h
  split at h
  · cases h
    exact refl _
  · obtain ⟨l, -, h⟩ := Option.bind_eq_some_iff.mp h
    obtain ⟨e₁, hins, hret⟩ := Option.bind_eq_some_iff.mp h
    cases hret
    have hlist : Defers e { e with list := l } := ⟨rfl, fun _ => rfl⟩
    exact hlist.trans (insertThread hins)

theorem startup (h : rtThreadStartup e t = some e') : Defers e e' := by
  obtain ⟨⟨r, e₁⟩, hresume, h⟩ := Option.bind_eq_some_iff.mp h
  have hset : ∀ r, Defers e (e.setThread t r) := fun _ => ⟨rfl, fun _ => rfl⟩
  have h₁ := (hset _).trans (resume hresume)
  dsimp only at h
  split at h
  · exact h₁.trans (schedule h)
  · cases h
    exact h₁

theorem timeout (h : rtThreadTimeout e t = some e') : Defers e e' := by
  obtain ⟨l, -, h⟩ := Option.bind_eq_some_iff.mp h
  obtain ⟨e₁, hins, h⟩ := Option.bind_eq_some_iff.mp h
  have hlist : Defers e { e.setError t (-RT_ETIMEOUT) with list := l } := ⟨rfl, fun _ => rfl⟩
  exact (hlist.trans (insertThread hins)).trans (schedule h)

theorem yield (h : rtThreadYield e = some e') : Defers e e' := by
  obtain ⟨t, -, h⟩ := Option.bind_eq_some_iff.mp h
  split at h
  · obtain ⟨l, -, h⟩ := Option.bind_eq_some_iff.mp h
    obtain ⟨l', -, h⟩ := Option.bind_eq_some_iff.mp h
    have hlist : Defers e { e with list := l' } := ⟨rfl, fun _ => rfl⟩
    exact hlist.trans (schedule h)
  · cases h
    exact refl _

theorem tickSlice (h : rtTickSlice e = some e') : Defers e e' := by
  obtain ⟨t, -, h⟩ := Option.bind_eq_some_iff.mp h
  dsimp only at h
  split at h
  · have hset : ∀ r r', Defers e ((e.setThread t r).setThread t r') :=
      fun _ _ => ⟨rfl, fun _ => rfl⟩
    exact (hset _ _).trans (yield h)
  · cases h
    exact ⟨rfl, fun _ => rfl⟩

theorem ipcInsert [Fintype τ] (h : rtIpcListInsert e s t = some e') : Defers e e' := by
  unfold rtIpcListInsert at h
  split at h
  · obtain ⟨l, -, hret⟩ := Option.bind_eq_some_iff.mp h
    cases hret
    exact ⟨rfl, fun _ => rfl⟩
  · split at h
    · obtain ⟨n, -, h⟩ := Option.bind_eq_some_iff.mp h
      obtain ⟨n', -, h⟩ := Option.bind_eq_some_iff.mp h
      obtain ⟨l, -, hret⟩ := Option.bind_eq_some_iff.mp h
      cases hret
      exact ⟨rfl, fun _ => rfl⟩
    · cases h
      exact refl _

theorem ipcResumeAll (s : σ) (fuel : Nat) : ∀ {e e' : SchedSys τ σ (ThreadLinks τ σ)},
    rtIpcListResumeAll s fuel e = some e' → Defers e e' := by
  induction fuel with
  | zero => intro e e' h; cases h
  | succ fuel ih =>
    intro e e' h
    rw [rtIpcListResumeAll] at h
    split at h
    · cases h
      exact refl _
    · obtain ⟨n, -, h⟩ := Option.bind_eq_some_iff.mp h
      obtain ⟨t, -, h⟩ := Option.bind_eq_some_iff.mp h
      obtain ⟨⟨r, e₁⟩, hresume, h⟩ := Option.bind_eq_some_iff.mp h
      have herr : Defers e (e.setError t (-RT_ERROR)) := ⟨rfl, fun _ => rfl⟩
      exact (herr.trans (resume hresume)).trans (ih h)

theorem semRelease (h : rtSemRelease e s = some e') : Defers e e' := by
  unfold rtSemRelease at h
  split at h
  · obtain ⟨e₁, hresume, h⟩ := Option.bind_eq_some_iff.mp h
    obtain ⟨n, -, hresume⟩ := Option.bind_eq_some_iff.mp hresume
    obtain ⟨t, -, hresume⟩ := Option.bind_eq_some_iff.mp hresume
    obtain ⟨⟨r, e₂⟩, hresume, hret⟩ := Option.bind_eq_some_iff.mp hresume
    cases hret
    exact (resume hresume).trans (schedule h)
  · cases h
    exact ⟨rfl, fun _ => rfl⟩

theorem semControl [Fintype τ] {cmd r : Int} {arg : BitVec 32}
    (h : rtSemControl e s cmd arg = some (r, e')) : Defers e e' := by
  unfold rtSemControl at h
  split at h
  · obtain ⟨e₁, hall, h⟩ := Option.bind_eq_some_iff.mp h
    obtain ⟨e₂, hsched, hret⟩ := Option.bind_eq_some_iff.mp h
    cases hret
    have hset : ∀ r, Defers e₁ (e₁.setSem s r) := fun _ => ⟨rfl, fun _ => rfl⟩
    exact ((ipcResumeAll s _ hall).trans (hset _)).trans (schedule hsched)
  · cases h
    exact refl _

variable {k k' : RtKernel τ σ υ}

section
omit [DecidableEq τ] [DecidableEq σ] [DecidableEq υ]

theorem onSched {f : SchedSys τ σ (ThreadLinks τ σ) → Option (SchedSys τ σ (ThreadLinks τ σ))}
    (h : k.onSched f = some k') (hf : ∀ e, f k.env = some e → Defers k.env e) :
    Defers k.env k'.env := by
  obtain ⟨e, he, hret⟩ := Option.bind_eq_some_iff.mp h
  cases hret
  exact hf e he

/-- The timers are no concern of the lock. -/
theorem onTimers {f : TimerSys (τ ⊕ υ) (TimerCallback τ) (TimerLinks (τ ⊕ υ)) →
      Option (TimerSys (τ ⊕ υ) (TimerCallback τ) (TimerLinks (τ ⊕ υ)))}
    (h : k.onTimers f = some k') : Defers k.env k'.env := by
  obtain ⟨m, -, hret⟩ := Option.bind_eq_some_iff.mp h
  cases hret
  exact refl _

end

theorem threadSuspend {r : Int} (h : rtThreadSuspend k t = some (r, k')) :
    Defers k.env k'.env := by
  unfold rtThreadSuspend at h
  split at h
  · cases h
    exact refl _
  · obtain ⟨k₁, hrem, h⟩ := Option.bind_eq_some_iff.mp h
    obtain ⟨⟨r', m⟩, -, hret⟩ := Option.bind_eq_some_iff.mp h
    cases hret
    show Defers k.env k₁.env
    refine onSched hrem fun e he => ?_
    have hstat : Defers k.env (k.env.setStat t .suspend) := ⟨rfl, fun _ => rfl⟩
    exact hstat.trans (removeThread he)

theorem threadSleep [Fintype τ] [Fintype υ] {tick : Tick} (h : rtThreadSleep k tick = some k') :
    Defers k.env k'.env := by
  obtain ⟨t, -, h⟩ := Option.bind_eq_some_iff.mp h
  obtain ⟨⟨r, k₁⟩, hsusp, h⟩ := Option.bind_eq_some_iff.mp h
  obtain ⟨k₂, htimer, hsched⟩ := Option.bind_eq_some_iff.mp h
  exact ((threadSuspend hsusp).trans (onTimers htimer)).trans
    (onSched hsched fun _ he => schedule he)

theorem threadDetach (h : rtThreadDetach k t = some k') : Defers k.env k'.env := by
  obtain ⟨k₁, hrem, h⟩ := Option.bind_eq_some_iff.mp h
  obtain ⟨k₂, htimer, h⟩ := Option.bind_eq_some_iff.mp h
  have h₁ : Defers k.env k₁.env := by
    split at hrem
    · exact onSched hrem fun _ he => removeThread he
    · cases hrem
      exact refl _
  have h₂ := h₁.trans (onTimers htimer)
  have hclose : Defers k₂.env (k₂.env.setStat t .close) := ⟨rfl, fun _ => rfl⟩
  dsimp only at h
  split at h
  · cases h
    exact h₂.trans hclose
  · obtain ⟨l, -, hret⟩ := Option.bind_eq_some_iff.mp h
    cases hret
    exact h₂.trans ⟨rfl, fun _ => rfl⟩

theorem semTake [Fintype τ] [Fintype υ] {time : BitVec 32} {o : TakeOutcome τ}
    (h : rtSemTake k s time = some (o, k')) : Defers k.env k'.env := by
  unfold rtSemTake at h
  split at h
  · cases h
    exact ⟨rfl, fun _ => rfl⟩
  · split at h
    · cases h
      exact refl _
    · obtain ⟨t, -, h⟩ := Option.bind_eq_some_iff.mp h
      obtain ⟨k₁, hlist, h⟩ := Option.bind_eq_some_iff.mp h
      obtain ⟨⟨r, k₀⟩, hsusp, hins⟩ := Option.bind_eq_some_iff.mp hlist
      obtain ⟨k₂, htimer, h⟩ := Option.bind_eq_some_iff.mp h
      obtain ⟨k₃, hsched, hret⟩ := Option.bind_eq_some_iff.mp h
      cases hret
      have herr : Defers k.env (k.env.setError t RT_EOK) := ⟨rfl, fun _ => rfl⟩
      have h₁ : Defers k.env k₁.env :=
        (herr.trans (threadSuspend (k := { k with env := k.env.setError t RT_EOK }) hsusp)).trans
          (onSched hins fun _ he => ipcInsert he)
      have h₂ : Defers k₁.env k₂.env := by
        split at htimer
        · exact onTimers htimer
        · cases htimer
          exact refl _
      exact (h₁.trans h₂).trans (onSched hsched fun _ he => schedule he)

/-- No call but those of the lock itself touches the lock. -/
theorem call [Fintype τ] [Fintype υ] {c : Call τ σ υ} (hlock : c.nest 1 = 1)
    (hrun : c.exec k = some k') : Defers k.env k'.env := by
  unfold Call.exec at hrun
  cases c with
  | enterCritical => cases hlock
  | exitCritical => cases hlock
  | threadInit t priority tick => cases hrun; exact ⟨rfl, fun _ => rfl⟩
  | threadStartup t => exact onSched hrun fun _ he => startup he
  | threadResume t =>
    refine onSched hrun fun e he => ?_
    obtain ⟨_, hr⟩ := returned_of_map he
    exact resume hr
  | threadSuspend t =>
    obtain ⟨_, hr⟩ := returned_of_map hrun
    exact threadSuspend hr
  | threadYield => exact onSched hrun fun _ he => yield he
  | threadDetach t => exact threadDetach hrun
  | semInit s value flag => cases hrun; exact ⟨rfl, fun _ => rfl⟩
  | semTrytake s =>
    obtain ⟨_, hr⟩ := returned_of_map hrun
    exact semTake hr
  | semRelease s => exact onSched hrun fun _ he => semRelease he
  | semControl s cmd arg =>
    refine onSched hrun fun e he => ?_
    obtain ⟨_, hr⟩ := returned_of_map he
    exact semControl hr
  | semDetach s => exact onSched hrun fun _ he => ipcResumeAll s _ he
  | schedule => exact onSched hrun fun _ he => schedule he
  | timerInit u time flag => cases hrun; exact refl _
  | timerStart u => exact onTimers hrun
  | timerStop u => exact onTimers hrun
  | timerControl u cmd => cases hrun; exact refl _
  | timerDetach u => exact onTimers hrun

end Defers

/-! ## Operations that make calls -/

/-- Making the calls `cs` with `d` enters open leads from `e` to `e'`: if the lock
count is `d` and every enter is counted, it is right again afterwards, and the current
thread has stayed if an enter was open all along. -/
def LockRun {L : Type} (d : Nat) (cs : List (Call τ σ υ)) (e e' : SchedSys τ σ L) : Prop :=
  e.rtSchedulerLockNest = d → Throughout Paired d cs → Throughout Counted d cs →
    e'.rtSchedulerLockNest = nestAll d cs ∧
      (Held d cs → e'.rtCurrentThread = e.rtCurrentThread)

namespace LockRun
variable {e e' e'' : SchedSys τ σ (ThreadLinks τ σ)} {d : Nat} {cs cs' : List (Call τ σ υ)}
  {k k' : RtKernel τ σ υ}

section
omit [DecidableEq τ] [DecidableEq σ] [DecidableEq υ]

theorem of_defers (h : Defers e e') : LockRun d ([] : List (Call τ σ υ)) e e' := by
  intro hd _ _
  refine ⟨h.lockNest.trans hd, fun hheld => h.current ?_⟩
  have hpos : 0 < d := hheld
  omega

theorem append (h : LockRun d cs e e') (h' : LockRun (nestAll d cs) cs' e' e'') :
    LockRun d (cs ++ cs') e e'' := by
  intro hd hpaired hcounted
  rw [throughout_append] at hpaired hcounted
  obtain ⟨hmid, hcur⟩ := h hd hpaired.1 hcounted.1
  obtain ⟨hend, hcur'⟩ := h' hmid hpaired.2 hcounted.2
  rw [nestAll_append, held_append]
  exact ⟨hend, fun hheld => (hcur' hheld.2).trans (hcur hheld.1)⟩

theorem after_defers (h : Defers e e') (h' : LockRun d cs e' e'') : LockRun d cs e e'' :=
  (of_defers h).append h'

theorem enterCritical : LockRun d [(.enterCritical : Call τ σ υ)] e e.rtEnterCritical := by
  intro hd _ hcounted
  have hlt : d < 255 := hcounted.1
  rw [SchedSys.rtEnterCritical, if_pos (by omega)]
  refine ⟨?_, fun _ => rfl⟩
  show e.rtSchedulerLockNest + 1 = ((d + 1 : Nat) : Int)
  omega

end

section
omit [DecidableEq σ] [DecidableEq υ]

theorem exitCritical (h : rtExitCritical e = some e') :
    LockRun d [(.exitCritical : Call τ σ υ)] e e' := by
  intro hd hpaired _
  have hpos : 0 < d := hpaired.1
  have hnest : nestAll d [(.exitCritical : Call τ σ υ)] = d - 1 := rfl
  rw [hnest]
  unfold rtExitCritical at h
  dsimp only at h
  split at h
  · rename_i hle
    -- the last exit: nothing is said about the current thread
    have hone : d = 1 := by omega
    have hvoid : Held d [(.exitCritical : Call τ σ υ)] →
        e'.rtCurrentThread = e.rtCurrentThread := by
      intro hheld
      have hpos' : 0 < d - 1 := hheld.2
      omega
    split at h
    · refine ⟨?_, hvoid⟩
      rw [(Defers.schedule h).lockNest]
      simp [hone]
    · cases h
      refine ⟨?_, hvoid⟩
      simp [hone]
  · cases h
    refine ⟨?_, fun _ => rfl⟩
    show e.rtSchedulerLockNest - 1 = ((d - 1 : Nat) : Int)
    omega

end

variable [Fintype τ] [Fintype υ]

theorem call {c : Call τ σ υ} (hrun : c.exec k = some k') : LockRun d [c] k.env k'.env := by
  by_cases hlock : c.nest 1 = 1
  · have hsame : ∀ n, c.nest n = n := by
      cases c with
      | enterCritical => cases hlock
      | exitCritical => cases hlock
      | _ => exact fun _ => rfl
    have hdefers := Defers.call hlock hrun
    intro hd _ _
    refine ⟨?_, fun hheld => hdefers.current ?_⟩
    · show k'.env.rtSchedulerLockNest = (c.nest d : Nat)
      rw [hdefers.lockNest, hsame, hd]
    · have hpos : 0 < d := hheld.1
      omega
  · cases c with
    | enterCritical => cases hrun; exact enterCritical
    | exitCritical =>
      obtain ⟨e, he, hret⟩ := Option.bind_eq_some_iff.mp hrun
      cases hret
      exact exitCritical he
    | _ => exact absurd rfl hlock

theorem runCalls (cs : List (Call τ σ υ)) : ∀ {k k' : RtKernel τ σ υ} {d : Nat},
    SampleRtos.runCalls cs k = some k' → LockRun d cs k.env k'.env := by
  induction cs with
  | nil => intro k k' d hrun; cases hrun; exact of_defers (.refl _)
  | cons c cs ih =>
    intro k k' d hrun
    obtain ⟨k₁, hc, hrest⟩ := Option.bind_eq_some_iff.mp hrun
    split at hc
    · exact (call hc).append (ih hrest)
    · cases hc

theorem fire {x : τ ⊕ υ} {c : List (Call τ σ υ)}
    (hrun : rtTimerFire kernelCallback c x k = some k') :
    LockRun d (firedCalls k x c) k.env k'.env := by
  obtain ⟨m, f, k₁, hrem, hf, hcall, henv⟩ := rtTimerFire_spec hrun
  obtain ⟨l, -, hret⟩ := Option.bind_eq_some_iff.mp hrem
  cases hret
  rw [henv]
  cases f with
  | rtThreadTimeout t =>
    have hnone : firedCalls k x c = [] := if_neg fun huser => by
      have heq := hf.symm.trans huser
      cases heq
    rw [hnone]
    obtain ⟨e, he, hret⟩ := Option.bind_eq_some_iff.mp hcall
    cases hret
    exact of_defers (Defers.timeout he)
  | user =>
    have hall : firedCalls k x c = c := if_pos hf
    rw [hall]
    have hrun := runCalls (d := d) c hcall
    exact hrun

/-- A check makes the calls of the callbacks it runs, in order. -/
theorem check (script : List (List (Call τ σ υ))) : ∀ {k k' : RtKernel τ σ υ} {d : Nat},
    rtTimerCheck kernelCallback script k = some k' →
      LockRun d (timerCheckCalls script k) k.env k'.env := by
  induction script with
  | nil =>
    intro k k' d hrun
    rcases rtTimerCheck_cases hrun with ⟨rfl, -⟩ | ⟨c, rest, x, k₁, hnil, -⟩
    · exact of_defers (.refl _)
    · cases hnil
  | cons c script ih =>
    intro k k' d hrun
    rcases rtTimerCheck_cases hrun with ⟨rfl, hq⟩ | ⟨c', rest, x, k₁, hcons, hx, hdue, hf, hrest⟩
    · have hnone : timerCheckCalls (c :: script) k' = [] := by
        rw [timerCheckCalls]
        cases hhead : k'.queue.head? with
        | none => rfl
        | some x => simp [hq x (queue_head.mp hhead)]
      rw [hnone]
      exact of_defers (.refl _)
    · cases hcons
      have hcalls : timerCheckCalls (c :: script) k =
          firedCalls k x c ++ timerCheckCalls script k₁ := by
        rw [timerCheckCalls, queue_head.mpr hx]
        simp only [hdue, if_true, hf, Option.elim_some]
      rw [hcalls]
      exact (fire hf).append (ih hrest)

theorem tick {script : List (List (Call τ σ υ))} (hrun : kernelTick script k = some k') :
    LockRun d (tickCalls script k) k.env k'.env := by
  obtain ⟨k₁, hstart, hcheck⟩ := Option.bind_eq_some_iff.mp hrun
  have hcalls : tickCalls script k = timerCheckCalls script k₁ := by
    have hstart : Sys.onSched _ rtTickSlice = some k₁ := hstart
    rw [tickCalls, hstart, Option.elim_some]
  rw [hcalls]
  have hslice : Defers k.env k₁.env := by
    obtain ⟨e, he, hret⟩ := Option.bind_eq_some_iff.mp hstart
    cases hret
    exact Defers.tickSlice he
  exact after_defers hslice (check script hcheck)

/-- **Every operation but the start of the scheduler** keeps the count and defers to the
lock. -/
theorem exec {op : Op τ σ υ} (hstart : op ≠ .schedulerStart) (hrun : op.exec k = some k') :
    LockRun d (op.calls k) k.env k'.env := by
  unfold Op.exec at hrun
  cases op with
  | call c => exact call hrun
  | tickIncrease script => exact tick hrun
  | schedulerStart => exact absurd rfl hstart
  | threadSleep tick => exact of_defers (Defers.threadSleep hrun)
  | semTake s time =>
    obtain ⟨_, hr⟩ := returned_of_map hrun
    exact of_defers (Defers.semTake hr)

end LockRun

/-! ## Runs -/

/-- How many enters are open, and which thread was current when the number last became
positive. -/
structure LockHistory (τ : Type) where
  depth : Nat
  holder : Option τ

def Op.IsStart : Op τ σ υ → Prop
  | .schedulerStart => True
  | _ => False

instance (op : Op τ σ υ) : Decidable op.IsStart := by
  rcases op <;> dsimp only [Op.IsStart] <;> infer_instance

/-- An operation together with the count: no exit comes without an enter, the scheduler
is not started while an enter is open, and the calls meet `limit`. -/
def LockAllowed [Fintype τ] [Fintype υ] (limit : Nat → Call τ σ υ → Prop)
    (x : RtKernel τ σ υ × LockHistory τ) (op : Op τ σ υ) : Prop :=
  Throughout Paired x.2.depth (op.calls x.1) ∧ Throughout limit x.2.depth (op.calls x.1) ∧
    (0 < x.2.depth → ¬ op.IsStart)

instance [Fintype τ] [Fintype υ] (limit : Nat → Call τ σ υ → Prop) [∀ d c, Decidable (limit d c)]
    (x : RtKernel τ σ υ × LockHistory τ) (op : Op τ σ υ) : Decidable (LockAllowed limit x op) :=
  inferInstanceAs (Decidable (_ ∧ _ ∧ _))

def lockExec [Fintype τ] [Fintype υ] (x : RtKernel τ σ υ × LockHistory τ) (op : Op τ σ υ) :
    Option (RtKernel τ σ υ × LockHistory τ) := do
  let k ← op.exec x.1
  return (k,
    { depth := nestAll x.2.depth (op.calls x.1)
      holder := if Held x.2.depth (op.calls x.1) then x.2.holder else k.env.rtCurrentThread })

/-- The states and histories reached from initialisation. -/
def LockReachable [Fintype τ] [Fintype υ] (idle : τ) (limit : Nat → Call τ σ υ → Prop)
    (k : RtKernel τ σ υ) (g : LockHistory τ) : Prop :=
  ∃ k₀ ∈ boot idle, Run.Reach lockExec (LockAllowed limit) (k₀, ⟨0, none⟩) (k, g)

/-- The lock count is the number of open enters, and while there are any the current
thread is the one the history names. -/
structure LockKept (x : RtKernel τ σ υ × LockHistory τ) : Prop where
  count : x.1.env.rtSchedulerLockNest = x.2.depth
  held : 0 < x.2.depth → x.1.env.rtCurrentThread = x.2.holder

theorem LockKept.exec [Fintype τ] [Fintype υ] {x y : RtKernel τ σ υ × LockHistory τ}
    {op : Op τ σ υ} (h : LockKept x) (hok : LockAllowed Counted x op)
    (hrun : lockExec x op = some y) : LockKept y := by
  obtain ⟨hpaired, hcounted, hfree⟩ := hok
  obtain ⟨k, hk, hret⟩ := Option.bind_eq_some_iff.mp hrun
  cases hret
  by_cases hstart : op = .schedulerStart
  · subst hstart
    have hzero : x.2.depth = 0 := by
      by_contra hne
      exact hfree (Nat.pos_of_ne_zero hne) trivial
    obtain ⟨e, he, hret⟩ := Option.bind_eq_some_iff.mp hk
    obtain ⟨t, -, hret'⟩ := Option.bind_eq_some_iff.mp he
    cases hret
    cases hret'
    refine ⟨h.count, fun hpos => absurd hpos ?_⟩
    show ¬ 0 < x.2.depth
    omega
  · obtain ⟨hcount, hcur⟩ := LockRun.exec hstart hk h.count hpaired hcounted
    refine ⟨hcount, fun _ => ?_⟩
    show k.env.rtCurrentThread =
      if Held x.2.depth (op.calls x.1) then x.2.holder else k.env.rtCurrentThread
    split
    · rename_i hheld
      have hpos : 0 < x.2.depth := ((held_append [] _ _).mp hheld).1
      exact (hcur hheld).trans (h.held hpos)
    · rfl

/-- While enters are open the current thread stays as it was, and the last exit
performs the reschedule that the lock has put off. -/
structure LockObeyed (k : RtKernel τ σ υ) (g : LockHistory τ) : Prop where
  held : 0 < g.depth → k.env.rtCurrentThread = g.holder
  release : g.depth = 1 → k.env.rtCurrentThread ≠ none →
    rtExitCritical k.env = rtSchedule { k.env with rtSchedulerLockNest := 0 } ∧
      ∀ e, rtExitCritical k.env = some e →
        e.rtSchedulerLockNest = 0 ∧ e.rtCurrentThread = highestReadyThread k.env

section
omit [DecidableEq σ]

/-- The last exit reschedules. -/
theorem exitCritical_last {k : SchedSys τ σ (ThreadLinks τ σ)} (hone : k.rtSchedulerLockNest = 1)
    (hcur : k.rtCurrentThread ≠ none) :
    rtExitCritical k = rtSchedule { k with rtSchedulerLockNest := 0 } := by
  have hsome : k.rtCurrentThread.isSome = true := Option.isSome_iff_ne_none.mpr hcur
  simp [rtExitCritical, hone, hsome]

end

/-- After initialisation the lock is open. -/
theorem boot_lockNest {idle : τ} {k : RtKernel τ σ υ} (h : boot idle = some k) :
    k.env.rtSchedulerLockNest = 0 := by
  obtain ⟨e, he, hret⟩ := Option.bind_eq_some_iff.mp h
  cases hret
  exact (Defers.startup he).lockNest

/-- **Nesting the scheduler lock.** As long as no enter is made while 255 are open, the
current thread stays from the outermost enter to its exit, whatever happens in
between, and that exit dispatches. -/
theorem lock_nesting [Fintype τ] [Fintype υ] {idle : τ} {k : RtKernel τ σ υ} {g : LockHistory τ}
    (hk : LockReachable idle Counted k g) : LockObeyed k g := by
  obtain ⟨k₀, hboot, hrun⟩ := hk
  have hkept : LockKept (k, g) := by
    refine Run.invariant (fun x op y h hok hs => h.exec hok hs) ?_ hrun
    exact ⟨boot_lockNest hboot, fun hpos => absurd hpos (Nat.lt_irrefl 0)⟩
  refine ⟨hkept.held, fun hone hcur => ?_⟩
  have hcount : k.env.rtSchedulerLockNest = g.depth := hkept.count
  have hexit := exitCritical_last (by rw [hcount, hone]; rfl) hcur
  refine ⟨hexit, fun e he => ?_⟩
  rw [hexit] at he
  obtain ⟨t, ht, hret⟩ := Option.bind_eq_some_iff.mp he
  cases hret
  have hfirst : highestReadyThread k.env = some t := ht
  rw [hfirst]
  exact ⟨by simp, by simp [SchedSys.switchTo_current]⟩

end LockNest

/-- Thread 1 has been dispatched; thread 2, the more urgent, is not started yet. -/
def oneDispatched : List (Op (Fin 3) (Fin 1) Empty) :=
  [.call (.threadInit 1 5 10), .call (.threadInit 2 3 10), .call (.threadStartup 1),
    .schedulerStart]

/-- Initialisation followed by a list of operations, with the count. -/
def runNested (limit : Nat → Call (Fin 3) (Fin 1) Empty → Prop) [∀ d c, Decidable (limit d c)]
    (ops : List (Op (Fin 3) (Fin 1) Empty)) :
    Option (RtKernel (Fin 3) (Fin 1) Empty × LockHistory (Fin 3)) := do
  let k ← boot 0
  Run.exec lockExec (LockAllowed limit) ops (k, ⟨0, none⟩)

theorem lockReachable_of_run {limit : Nat → Call (Fin 3) (Fin 1) Empty → Prop}
    [∀ d c, Decidable (limit d c)] {ops : List (Op (Fin 3) (Fin 1) Empty)}
    {k : RtKernel (Fin 3) (Fin 1) Empty} {g : LockHistory (Fin 3)}
    (h : runNested limit ops = some (k, g)) : LockReachable 0 limit k g := by
  unfold runNested at h
  obtain ⟨k₀, hboot, hrun⟩ := Option.bind_eq_some_iff.mp h
  exact ⟨k₀, hboot, Run.exec_reach hrun⟩

/-- Two enters are open when thread 2 is started. -/
theorem nested_twice : ∃ k g, runNested Counted (oneDispatched ++ [.call .enterCritical,
      .call .enterCritical, .call (.threadStartup 2), .call .exitCritical]) = some (k, g) ∧
    g.depth = 1 ∧ k.env.rtCurrentThread = some 1 ∧ LockObeyed k g := by
  obtain ⟨⟨k, g⟩, hk, hp⟩ := Option.map_eq_some_iff.mp
    (show (runNested Counted (oneDispatched ++ [.call .enterCritical, .call .enterCritical,
        .call (.threadStartup 2), .call .exitCritical])).map
      (fun x => decide (x.2.depth = 1) && decide (x.1.env.rtCurrentThread = some 1)) =
        some true by decide +kernel)
  simp only [Bool.and_eq_true, decide_eq_true_eq] at hp
  exact ⟨k, g, hk, hp.1, hp.2, lock_nesting (lockReachable_of_run hk)⟩

/-- After 256 enters and 255 exits one enter is open and the lock is not: starting
thread 2 dispatches it. -/
theorem nested_too_deep :
    ¬ ∀ (k : RtKernel (Fin 3) (Fin 1) Empty) g,
      LockReachable 0 (fun _ _ => True) k g → LockObeyed k g := by
  intro hclaim
  obtain ⟨⟨k, g⟩, hk, hp⟩ := Option.map_eq_some_iff.mp
    (show (runNested (fun _ _ => True) (oneDispatched ++
        List.replicate 256 (.call .enterCritical) ++ List.replicate 255 (.call .exitCritical) ++
          [.call (.threadStartup 2)])).map
      (fun x => decide (x.2.depth = 1) && decide (x.2.holder = some 1) &&
        decide (x.1.env.rtCurrentThread = some 2)) = some true by decide +kernel)
  simp only [Bool.and_eq_true, decide_eq_true_eq] at hp
  obtain ⟨⟨hdepth, hholder⟩, hcur⟩ := hp
  have hheld := (hclaim k g (lockReachable_of_run hk)).held (by omega)
  rw [hcur, hholder] at hheld
  cases hheld

end SampleRtos
