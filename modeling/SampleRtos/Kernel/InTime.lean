import SampleRtos.Kernel.Remembered

/-!
# Sleepers wake in time

A thread off the processor that sleeps, or waits for a semaphore with a timeout, has a timer that
counts down with the ticks and is in nobody else's hands. Whatever the other threads and the
handlers do meanwhile, section by section, and however long the scheduler is kept locked, the
thread is suspended no longer than the ticks its timer has left.
-/

namespace SampleRtos

open Intrusive

section InTime
variable {τ σ υ : Type} [DecidableEq τ] [DecidableEq σ] [DecidableEq υ]

/-! ## The discipline for timers, section by section -/

/-- A function that starts the timer of its thread starts it in range. -/
def Service.Timed : Service σ → Prop
  | .threadSleep tick => InRange tick
  | .semTake _ time => 0 < time.toInt → InRange time
  | _ => True

instance (f : Service σ) : Decidable f.Timed := by
  rcases f <;> dsimp only [Service.Timed] <;> infer_instance

variable [Fintype τ] [Fintype υ]

/-- A piece that puts a timer on the list finds its deadline ahead, and in range. -/
def Piece.Timed (k : RtKernel τ σ υ) : Piece τ σ υ → Prop
  | .timer u .startArmed =>
      InRange ((k.timers.timer (.inr u)).timeoutTick - k.timers.rtTick)
  | _ => True

instance (k : RtKernel τ σ υ) (p : Piece τ σ υ) : Decidable (p.Timed k) := by
  rcases p with ⟨t, p, r⟩ | ⟨t, p⟩ | ⟨t, b⟩ | ⟨t, p⟩ | ⟨s, p⟩ | ⟨u, p⟩ | u
  case timer => rcases p <;> dsimp only [Piece.Timed] <;> infer_instance
  all_goals exact .isTrue trivial

/-- Every timer a move starts is started in range. -/
def KernelMove.Timed (st : Interleaved τ σ υ) : KernelMove τ σ υ → Prop
  | .enter f => f.Timed
  | .piece => ∀ t ∈ st.kernel.env.rtCurrentThread, ∀ p ∈ st.errand t, p.Timed st.kernel
  | .masked c => c.Timed st.kernel
  | .tick script => tickMeets (fun k c => c.Timed k) script st.kernel ∧
      tickReturns RestartTimed script st.kernel
  | .handler cs => callsMeet (fun k c => c.Timed k) cs st.kernel
  | _ => True

instance (st : Interleaved τ σ υ) (m : KernelMove τ σ υ) : Decidable (m.Timed st) := by
  rcases m <;> dsimp only [KernelMove.Timed] <;> infer_instance

def KernelMove.ticks : KernelMove τ σ υ → Nat
  | .tick _ => 1
  | _ => 0

/-! ## The timers of the interleaved system -/

variable {a a' : SeqKernel τ σ υ} {k : RtKernel τ σ υ} {t : τ} {st st' : Interleaved τ σ υ}
  {m : KernelMove τ σ υ}

section
omit [Fintype τ] [Fintype υ]

/-- The second section of `rt_timer_start` puts the timer where a start for the ticks until its
deadline would. -/
theorem timerLink_started {m m' : SeqTimers τ υ} {x : τ ⊕ υ} {r : RtTimer (TimerCallback τ)}
    (hv : m.timerList.Valid) (hlive : m.timerList.live (.item x) = true)
    (hfree : m.timerList.Free x) (hlink : Abs.timerLink m x = some m')
    (hr : r = { m.timer x with initTick := (m.timer x).timeoutTick - m.rtTick }) :
    ∃ xs ys, Started (m.setTimer x r) (m'.setTimer x (r.started m.rtTick)) x xs ys := by
  obtain ⟨hhead, xs, ys, hcut, rfl, hpassed, hreached⟩ := timerLink_spec hlive hlink
  have herase : m.timerList.erase x = m.timerList := Rings.erase_of_free hfree
  have hdeadline : (r.started m.rtTick).timeoutTick = (m.timer x).timeoutTick := by
    subst hr
    simp [RtTimer.started]
  have hne : ∀ {y}, y ∈ xs ++ ys → y ≠ x := by
    rintro y hy rfl
    exact hfree .rtTimerList (by rw [← hcut] at hy; exact hy)
  have hown : ((m.setTimer x r).timer x).started (m.setTimer x r).rtTick = r.started m.rtTick := by
    simp
  have hprecedes : ∀ {y}, y ≠ x → ((r.started m.rtTick).precedes ((m.setTimer x r).timer y) ↔
      (m.timer x).precedes (m.timer y)) := by
    intro y hy
    rw [RtTimer.precedes, RtTimer.precedes, hdeadline, TimerSys.setTimer_timer]
    simp [hy]
  refine ⟨xs, ys, hv, hlive, hhead, ?_, ?_, rfl, by simp, fun y hy => by simp [hy], ?_, ?_⟩
  · show (m.timerList.erase x).seq .rtTimerList = xs ++ ys
    rw [herase]
    exact hcut
  · simp [herase]
  · intro y hy
    rw [hown, hprecedes (hne (List.mem_append_left _ hy))]
    exact hpassed y hy
  · intro y hy
    rw [hown, hprecedes (hne (List.mem_append_right _ (List.mem_of_mem_head? hy)))]
    exact hreached y hy

end

namespace OnSchedule

section
omit [DecidableEq τ] [DecidableEq υ] [Fintype τ] [Fintype υ]

/-- Fewer timers, with the same deadlines. -/
theorem sublist {m m' : SeqTimers τ υ} (h : OnSchedule m) (hv : m'.timerList.Valid)
    (hsub : m'.queue.Sublist m.queue) (htick : m'.rtTick = m.rtTick)
    (htimer : ∀ x ∈ m'.queue, (m'.timer x).timeoutTick = (m.timer x).timeoutTick) :
    OnSchedule m' :=
  have hkept := h.ordered.sublist (g := []) hv hsub htick htimer
  ⟨hkept.1, hkept.2 h.punctual⟩

end

section
omit [Fintype τ] [Fintype υ]

theorem erase {m : SeqTimers τ υ} (h : OnSchedule m) (x : τ ⊕ υ) :
    OnSchedule { m with timerList := m.timerList.erase x } :=
  have hkept := h.ordered.erase (g := []) x
  ⟨hkept.1, hkept.2 h.punctual⟩

theorem deactivate {m : SeqTimers τ υ} (h : OnSchedule m) (x : τ ⊕ υ) :
    OnSchedule (m.deactivate x) :=
  have hkept := h.ordered.deactivate x
  ⟨hkept.1, hkept.2 h.punctual⟩

/-- The second section of `rt_timer_start` puts the timer where it belongs. -/
theorem timerLink {m m' : SeqTimers τ υ} {x : τ ⊕ υ} (h : OnSchedule m)
    (hlive : m.timerList.live (.item x) = true) (hfree : m.timerList.Free x)
    (hrange : InRange ((m.timer x).timeoutTick - m.rtTick)) (hlink : Abs.timerLink m x = some m') :
    OnSchedule m' := by
  have hv := h.ordered.valid
  obtain ⟨r, hr⟩ : ∃ r, r = { m.timer x with
      initTick := (m.timer x).timeoutTick - m.rtTick } := ⟨_, rfl⟩
  obtain ⟨xs, ys, hm⟩ := timerLink_started hv hlive hfree hlink hr
  have hinit : ((m.setTimer x r).timer x).initTick = (m.timer x).timeoutTick - m.rtTick := by
    simp [hr]
  have h₀ : OnSchedule (m.setTimer x r) := by
    refine h.sublist hv (List.Sublist.refl _) rfl fun y _ => ?_
    by_cases hy : y = x
    · subst hy
      simp [hr]
    · simp [hy]
  have hspare : ¬ FallsBehind (Abs.view (m.setTimer x r)) x := by
    rintro ⟨hzero, -⟩
    rw [Abs.view_timer, hinit] at hzero
    have hone := hrange.1
    rw [hzero] at hone
    exact absurd hone (by decide)
  obtain ⟨h₁, hrest⟩ := h₀.ordered.started (g := [])
    (show _ ≤ _ from hinit ▸ BitVec.le_of_lt hrange.2) hspare hm
  -- the start and the second section differ in the timer's `init_tick` only
  refine OnSchedule.sublist ⟨h₁, hrest h₀.punctual⟩ hm.valid_after (List.Sublist.refl _) rfl
    fun y _ => ?_
  obtain ⟨-, _, _, -, rfl, -, -⟩ := timerLink_spec hlive hlink
  by_cases hy : y = x
  · subst hy
    simp [hr, RtTimer.started, RtTimer.activate, alone]
  · simp [hy]

theorem timerEffect {m m' : SeqTimers τ υ} {u : υ} {q : TimerPoint} (h : OnSchedule m)
    (hrange : q = .startArmed → InRange ((m.timer (.inr u)).timeoutTick - m.rtTick))
    (heff : TimerEffect u m q m') : OnSchedule m' := by
  cases heff with
  | nothing => exact h
  | erased => exact h.erase _
  | stopped => exact (h.erase (.inr u)).deactivate (.inr u)
  | written hfree =>
    refine h.sublist h.ordered.valid (List.Sublist.refl _) rfl fun x hx => ?_
    rw [TimerSys.setTimer_timer, Function.update_of_ne]
    rintro rfl
    exact hfree hx
  | linked hlive hfree hlink => exact h.timerLink hlive hfree (hrange rfl) hlink

end

theorem runCalls (cs : List (Call τ σ υ)) : ∀ {k : RtKernel τ σ υ} {a a' : SeqKernel τ σ υ},
    OnSchedule a.timers → KernelRel k a → KernelWf a → callsMeet (fun k c => c.Timed k) cs k →
      Abs.runCalls cs a = some a' → OnSchedule a'.timers := by
  induction cs with
  | nil => intro k a a' h _ _ _ hrun; cases hrun; exact h
  | cons c cs ih =>
    intro k a a' h hk hw hP hrun
    obtain ⟨a₁, hc, hrest⟩ := Option.bind_eq_some_iff.mp hrun
    split at hc
    · rename_i hallowed
      obtain ⟨k₁, hk₁, h₁⟩ := Lockstep.exists_of_right (execCall_rel hk hw hallowed) hc
      exact ih (h.execCall hw hallowed ((Call.timed_iff hk c).mp hP.1) hc) h₁
        (hw.execCall hallowed hc) (hP.2 k₁ hk₁) hrest
    · cases hc

section
omit [Fintype υ]

theorem sections (h : OnSchedule a.timers) (hw : KernelWf a) {f : Service σ} (hf : f.Timed)
    (heff : SectionEffect f a a') : OnSchedule a'.timers := by
  cases heff with
  | sleeps hcur hcan hsusp htimer hsleep =>
    subst hsleep
    have h₁ := h.threadSuspend hw hsusp
    exact (h₁.threadTimerStart (threadSuspend_suspends hw hcan hsusp).wf hf htimer).1
  | @waits u s time e a₁ a₂ _ hcur hcan hsusp hins htimer htake =>
    subst htake
    have hw₀ := hw.setError u RT_EOK
    have h₁ : OnSchedule a₁.timers :=
      OnSchedule.threadSuspend (a := { a with env := a.env.setError u RT_EOK }) h hw₀ hsusp
    have hsuspends := threadSuspend_suspends hw₀ ((canBlock_setError _).mpr hcan) hsusp
    obtain ⟨hw₂, -, -, htimers₂⟩ := hsuspends.inserted hins
    rw [← htimers₂] at h₁
    rcases htimer with ⟨hpos, htimer⟩ | ⟨-, rfl⟩
    · exact (h₁.threadTimerStart hw₂ (hf hpos) htimer).1
    · exact h₁
  | _ => exact h

end

section
omit [Fintype υ]

theorem pieces {p : Piece τ σ υ} {n : Piece τ σ υ ⊕ Rest τ} (h : OnSchedule a.timers)
    (hk : KernelRel k a) (hw : KernelWf a) (hp : p.Timed k) (heff : PieceEffect a p n a') :
    OnSchedule a'.timers := by
  cases heff with
  | suspends hrun => exact h.execCall (c := .threadSuspend _) hw trivial trivial hrun
  | timerDetached => exact h.erase _
  | disarms => exact h.erase _
  | sets heff =>
    refine h.timerEffect (fun hq => ?_) heff
    subst hq
    rw [← hk.timers.timer, ← hk.timers.rtTick]
    exact hp
  | _ => exact h

end

theorem move (h : OnSchedule a.timers) (hk : KernelRel st.kernel a) (hw : KernelWf a)
    (hm : m.Timed st) (heff : MoveEffect st a m st' a') : OnSchedule a'.timers := by
  cases heff with
  | leaves hcur hr heff => exact h.sections hw hm heff
  | @returns f c _ _ _ hcur hcall hallowed hrun =>
    refine h.execCall hw hallowed ?_ hrun
    cases f <;> cases hcall <;> trivial
  | finishes hcur hsched =>
    rw [(onSched_spec hsched).2]
    exact h
  | invokes => exact h
  | pieces hcur hp heff => exact h.pieces hk hw (hm _ (hk.env.current.trans hcur) _ hp) heff
  | call hallowed hprepares hrun => exact h.execCall hw hallowed ((Call.timed_iff hk _).mp hm) hrun
  | tick hrun => exact h.tick hk hw hm.1 hm.2 hrun
  | handler hcur hrun => exact h.runCalls _ hk hw hm hrun
  | start hcur hsched =>
    rw [(onSched_spec hsched).2]
    exact h

end OnSchedule

/-! ## One sleeper -/

/-- `t` sleeps off the processor and its timer is running. -/
structure Dozing (t : τ) (a : SeqKernel τ σ υ) : Prop where
  suspended : (a.env.thread t).stat = .suspend
  away : a.env.rtCurrentThread ≠ some t
  armed : .inl t ∈ a.timers.queue

/-- The ticks until the deadline of the timer of `t`. -/
def Kernel.ticksLeft {LT LS : Type} (k : Kernel τ σ υ LT LS) (t : τ) : Nat :=
  ((k.timers.timer (threadTimer t)).timeoutTick - k.timers.rtTick).toNat

section
omit [Fintype τ] [Fintype υ]

theorem KernelRel.ticksLeft (h : KernelRel k a) (t : τ) : k.ticksLeft t = a.ticksLeft t := by
  rw [Kernel.ticksLeft, h.timers.timer, h.timers.rtTick]
  rfl

end

section
omit [DecidableEq τ] [DecidableEq σ] [DecidableEq υ] [Fintype τ] [Fintype υ]

theorem SameTimer.ticksLeft (h : SameTimer (.inl t) a.timers a'.timers) :
    a'.ticksLeft t = a.ticksLeft t := by
  rw [Kernel.ticksLeft, h.tick, show a'.timers.timer (threadTimer t) = _ from h.timer]
  rfl

/-- The timers are on schedule, so what is left is what `left` counts from the tick before. -/
theorem OnSchedule.left_eq (h : OnSchedule a.timers) (ht : .inl t ∈ a.timers.queue) :
    left a.timers (.inl t) = a.ticksLeft t + 1 :=
  SampleRtos.left_eq (h.punctual _ ht)

/-- **A tick** that does not wake the sleeper lowers what is left, to a tick at least. -/
theorem Dozing.tick (h : Dozing t a) (h' : OnSchedule a'.timers) (hq : Quiet a')
    (hsame : SameTimer (.inl t) a.ticked.timers a'.timers) :
    0 < a'.ticksLeft t ∧ a'.ticksLeft t + 1 = a.ticksLeft t := by
  have hmem : .inl t ∈ a'.timers.queue := hsame.mem.mpr h.armed
  have hlt : 1 < left a'.timers (.inl t) := h'.ordered.none_due (fun x hx => hq x hx) hmem
  have hnow : left a'.timers (.inl t) = a.ticksLeft t := by
    rw [hsame.left_eq, left]
    simp only [SeqKernel.ticked, add_sub_cancel_right]
    rfl
  rw [h'.left_eq hmem] at hlt hnow
  exact ⟨by omega, hnow⟩

end

/-- In no piece of its own does an `rt_thread_detach` take the timer of `t` off the list. -/
def KernelMove.KeepsTimer (t : τ) (st : Interleaved τ σ υ) : KernelMove τ σ υ → Prop
  | .piece => ∀ u ∈ st.kernel.env.rtCurrentThread, st.errand u ≠ some (.detach t .removed)
  | _ => True

instance (t : τ) (st : Interleaved τ σ υ) (m : KernelMove τ σ υ) :
    Decidable (m.KeepsTimer t st) := by
  rcases m <;> dsimp only [KernelMove.KeepsTimer] <;> infer_instance

section
omit [DecidableEq τ] [DecidableEq σ] [DecidableEq υ] [Fintype τ] [Fintype υ]

/-- A sleeper that is left alone sleeps on. -/
theorem Dozing.stays (h : Dozing t a) {b : SeqKernel τ σ υ} (hs : Sleeper t b a')
    (henv : b.env = a.env) (hqueue : b.timers.queue = a.timers.queue)
    (hst : (a'.env.thread t).stat = .suspend) :
    Dozing t a' ∧ SameTimer (.inl t) b.timers a'.timers := by
  have harmed : .inl t ∈ b.timers.queue := by rw [hqueue]; exact h.armed
  have hsame := hs.timer hst harmed
  exact ⟨⟨hst, hs.away hst (by rw [henv]; exact h.away), hsame.mem.mpr harmed⟩, hsame⟩

end

section
omit [Fintype υ]

/-- A piece wakes or closes the sleeper, or leaves it asleep with its timer. -/
theorem Dozing.piece (h : Dozing t a) (hw : KernelWf a) {p : Piece τ σ υ}
    {n : Piece τ σ υ ⊕ Rest τ} (hc : p.call ≠ .threadSuspend t) (hp : p ≠ .detach t .removed)
    (heff : PieceEffect a p n a') (hst : (a'.env.thread t).stat = .suspend) :
    Dozing t a' ∧ a'.ticksLeft t = a.ticksLeft t := by
  by_cases ht : p.target = some t
  · cases heff with
    | nothing => exact ⟨h, rfl⟩
    | resumes =>
      cases ht
      simp at hst
    | unlinks => exact ⟨⟨h.suspended, h.away, h.armed⟩, rfl⟩
    | writes hp' hq hst' hr hunarmed =>
      cases hp'.symm.trans ht
      exact absurd h.armed hunarmed
    | disarms =>
      cases ht
      exact absurd rfl hp
    | suspends => cases ht
    | timerDetached => cases ht
    | fails => cases ht
    | sets => cases ht
  · obtain ⟨hdozing, hsame⟩ := h.stays (heff.sleeper hw hc ht) rfl rfl hst
    exact ⟨hdozing, hsame.ticksLeft⟩

/-- **One move** wakes the sleeper, or leaves it asleep with what was left, less the tick. -/
theorem Dozing.move (h : Dozing t a) (hw : KernelWf a) (h' : OnSchedule a'.timers)
    (hcurrent : st.kernel.env.rtCurrentThread = a.env.rtCurrentThread)
    (hm : .threadSuspend t ∉ m.calls st) (hkeeps : m.KeepsTimer t st)
    (heff : MoveEffect st a m st' a') :
    (a'.env.thread t).stat ≠ .suspend ∨
      Dozing t a' ∧ a'.ticksLeft t - 1 + m.ticks ≤ a.ticksLeft t - 1 := by
  by_cases hst : (a'.env.thread t).stat = .suspend
  · refine .inr ?_
    by_cases hpiece : m = .piece
    · subst hpiece
      cases heff with
      | @pieces u p _ _ _ hcur hp heff =>
        have hcall : p.call ≠ .threadSuspend t := by
          rintro hcall
          exact hm (by
            simp [KernelMove.calls, Interleaved.underway, hcurrent.trans hcur, hp, hcall])
        obtain ⟨hdozing, hleft⟩ := h.piece hw hcall
          (by rintro rfl; exact hkeeps u (hcurrent.trans hcur) hp) heff hst
        exact ⟨hdozing, hleft ▸ le_rfl⟩
    · have hs : Sleeper t (m.begin a) a' :=
        (heff.sleeper hw hm hpiece).resolve_right fun hown => h.away hown.1
      obtain ⟨hdozing, hsame⟩ := h.stays hs (begin_env m a) (begin_queue m a) hst
      refine ⟨hdozing, ?_⟩
      cases heff with
      | tick hrun =>
        obtain ⟨a₁, -, hcheck⟩ := Option.bind_eq_some_iff.mp hrun
        have hq : Quiet a' :=
          (Abs.timerCheck_invariant (fun _ => True) _ (fun _ _ _ _ _ _ _ _ _ => trivial) trivial
            hcheck).2
        obtain ⟨hpos, hleft⟩ := h.tick h' hq hsame
        simp only [KernelMove.ticks]
        omega
      | pieces => exact absurd rfl hpiece
      | _ => rw [hsame.ticksLeft]; exact le_rfl
  · exact .inl hst

end

/-! ## Runs -/

/-- The call is not an `rt_thread_suspend` of `t`. -/
def Call.NoSuspend (t : τ) : Call τ σ υ → Prop
  | .threadSuspend u => u ≠ t
  | _ => True

instance (t : τ) (c : Call τ σ υ) : Decidable (c.NoSuspend t) := by
  rcases c <;> dsimp only [Call.NoSuspend] <;> infer_instance

/-- The move starts timers in range, nobody calls `rt_thread_suspend` for `t`, and in no piece of
its own does an `rt_thread_detach` take the timer of `t` off the list. -/
def KernelMove.InTime (t : τ) (st : Interleaved τ σ υ) (m : KernelMove τ σ υ) : Prop :=
  m.Timed st ∧ (∀ c ∈ m.calls st, c.NoSuspend t) ∧ m.KeepsTimer t st

instance (t : τ) (st : Interleaved τ σ υ) (m : KernelMove τ σ υ) : Decidable (m.InTime t st) :=
  inferInstanceAs (Decidable (_ ∧ (∀ c ∈ m.calls st, _) ∧ _))

theorem KernelMove.InTime.noSuspend (hm : m.InTime t st) : .threadSuspend t ∉ m.calls st :=
  fun hmem => hm.2.1 _ hmem rfl

theorem InterleavedReachable.onSchedule {idle : τ}
    (hs : InterleavedReachable idle (fun st m => m.Timed st) st) :
    ∃ a, st.InOrder a ∧ OnSchedule a.timers := by
  obtain ⟨k₀, hboot, hrun⟩ := hs
  obtain ⟨a₀, h₀, ha₀⟩ := Interleaved.InOrder.boot hboot
  refine Run.invariant (I := fun st => ∃ a, st.InOrder a ∧ OnSchedule a.timers)
    (fun st m st' hI hm hrun => ?_) ⟨a₀, h₀, OnSchedule.boot h₀.2.1 ha₀⟩ hrun
  obtain ⟨a, h, hsched⟩ := hI
  obtain ⟨a', h', heff⟩ := h.move hm.1 hrun
  exact ⟨a', h', hsched.move h.1 h.2.1 hm.2 heff⟩

end InTime

/-- Threads 1 and 2 sleep, thread 1 for longer. -/
def bothAsleep : List (KernelMove (Fin 3) (Fin 1) Empty) :=
  [.masked (.threadInit 1 3 10), .masked (.threadInit 2 5 10), .masked (.threadStartup 1),
    .masked (.threadStartup 2), .start, .enter (.threadSleep 4), .finish, .tick [],
    .enter (.threadSleep 2), .finish]

end SampleRtos
