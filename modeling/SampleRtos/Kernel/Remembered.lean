import SampleRtos.Kernel.Interleave
import SampleRtos.Kernel.Deadlines
import SampleRtos.Kernel.Nested

/-!
# No suspended thread is forgotten

A suspended thread is found by a release or a reset, in the waiting list of a semaphore, or by
the tick, through its timer, and by nobody else: one that is in no waiting list and whose timer
is not running never runs again. Between any two sections, with a thread stopped on its way into
a function or a tick before its reschedule, there is no such thread among those that suspend
themselves only, but for one that somebody is about to wake or to close.
-/

namespace SampleRtos

open Intrusive

section Remembered
variable {τ σ υ : Type} [DecidableEq τ] [DecidableEq σ] [DecidableEq υ]
  {a a' : SeqKernel τ σ υ} {e e' e'' : SchedSys τ σ (ThreadRings τ σ)} {t u : τ} {s : σ}

/-- Whoever leaves `t` suspended has found it so, and takes it off no waiting list. -/
def Stays (t : τ) (e e' : SchedSys τ σ (ThreadRings τ σ)) : Prop :=
  (e'.thread t).stat = .suspend →
    (e.thread t).stat = .suspend ∧ ∀ s, t ∈ e.waiters s → t ∈ e'.waiters s

namespace Stays

section
omit [DecidableEq τ] [DecidableEq σ]

theorem refl (t : τ) (e : SchedSys τ σ (ThreadRings τ σ)) : Stays t e e :=
  fun hst => ⟨hst, fun _ => id⟩

theorem trans (h : Stays t e e') (h' : Stays t e' e'') : Stays t e e'' := by
  intro hst
  obtain ⟨hst', hmem'⟩ := h' hst
  obtain ⟨hst, hmem⟩ := h hst'
  exact ⟨hst, fun s ht => hmem' s (hmem s ht)⟩

theorem of_awake (h : (e'.thread t).stat ≠ .suspend) : Stays t e e' :=
  fun hst => absurd hst h

theorem of_bystander (h : Bystander t e e') : Stays t e e' :=
  fun hst => ⟨by rwa [← h.thread], fun s => (h.waiters s).mpr⟩

end

section
omit [DecidableEq σ]

theorem schedule (h : Abs.schedule e = some e') : Stays t e e' := of_bystander (.schedule h)

end

theorem relist {r : RtThread} (hstat : r.stat = .ready) : Stays t e (e.relistReady u r) := by
  by_cases htu : t = u
  · subst htu
    exact of_awake (by simp [hstat])
  · exact of_bystander (.relist htu)

section
omit [DecidableEq σ]

theorem setThread {r : RtThread} (hstat : r.stat = (e.thread u).stat) :
    Stays t e (e.setThread u r) := by
  intro hst
  refine ⟨?_, fun _ => id⟩
  by_cases htu : t = u
  · subst htu
    simpa [hstat] using hst
  · simpa [htu] using hst

theorem unlist {r : RtThread} (hstat : r.stat ≠ .suspend) : Stays t e (e.unlist u r) := by
  by_cases htu : t = u
  · subst htu
    exact of_awake (by simpa using hstat)
  · exact of_bystander (.unlist htu)

end

theorem failAll (hw : SchedWf e) (s : σ) : Stays t e (e.failAll (e.waiters s)) := by
  by_cases ht : t ∈ e.waiters s
  · have hnd : (e.waiters s).Nodup := hw.valid.nodup _
    refine of_awake ?_
    rw [failAll_thread_of_mem hnd ht]
    simp [RtThread.failed]
  · exact of_bystander (.failAll hw ht)

theorem tickSlice (hw : SchedWf e) (h : Abs.tickSlice e = some e') : Stays t e e' := by
  obtain ⟨u, -, ⟨-, rfl⟩ | ⟨-, ⟨rfl, -⟩ | ⟨hst, hsched⟩⟩⟩ := tickSlice_spec hw h
  · exact setThread rfl
  · exact setThread rfl
  · have hmoved : Stays t e (e.relistReady u ((e.thread u).withRemaining (e.thread u).initTick)) :=
      relist hst
    exact hmoved.trans (schedule hsched)

theorem timeout (h : Abs.timeout e u = some e') : Stays t e e' :=
  .trans (relist rfl) (schedule (timeout_spec h).2)

theorem semControl [Fintype τ] (hw : SchedWf e) {cmd r : Int} {arg : BitVec 32}
    (h : Abs.semControl e s cmd arg = some (r, e')) : Stays t e e' := by
  rcases semControl_spec hw h with ⟨-, -, rfl⟩ | ⟨-, -, hsched⟩
  · exact refl t _
  · have hset : Stays t (e.failAll (e.waiters s)) ((e.failAll (e.waiters s)).setSem s
        { (e.failAll (e.waiters s)).sem s with value := arg.setWidth 16 }) :=
      of_bystander (.of_eq rfl rfl)
    exact ((failAll hw s).trans hset).trans (schedule hsched)

/-- Only an `rt_thread_suspend` of `t` suspends `t`. -/
theorem call [Fintype τ] (hw : KernelWf a) {c : Call τ σ υ} (hc : c ≠ .threadSuspend t)
    (hrun : Abs.execCall a c = some a') : Stays t a.env a'.env := by
  have hcall := hrun
  unfold Abs.execCall at hrun
  cases c with
  | threadInit u priority tick =>
    cases hrun
    by_cases htu : t = u
    · subst htu
      exact of_awake (by simp [Abs.threadInit])
    · exact of_bystander (.update htu rfl rfl)
  | threadStartup u =>
    obtain ⟨-, ⟨-, henv⟩ | ⟨-, hsched⟩⟩ := startup_spec (onSched_spec hrun).1
    · rw [henv]
      exact relist rfl
    · exact .trans (relist rfl) (schedule hsched)
  | threadResume u =>
    obtain ⟨_, hr⟩ := returned_of_map (onSched_spec hrun).1
    rcases resume_spec hr with ⟨-, -, henv⟩ | ⟨-, -, -, henv⟩ <;> rw [henv]
    · exact refl t _
    · exact relist rfl
  | threadSuspend u =>
    have htu : t ≠ u := fun htu => hc (by rw [htu])
    obtain ⟨_, hr⟩ := returned_of_map hrun
    rcases threadSuspend_spec hw.sched hr with ⟨-, -, rfl⟩ | ⟨-, -, henv, -⟩
    · exact refl t _
    · rw [henv]
      exact of_bystander (.unlist htu)
  | threadDetach u =>
    have hclosed : ∀ r : RtThread, r.closed.stat ≠ .suspend := by simp [RtThread.closed]
    obtain ⟨-, -, ⟨hst, henv⟩ | ⟨-, henv⟩⟩ := threadDetach_spec hw.sched hrun <;> rw [henv]
    · by_cases htu : t = u
      · subst htu
        exact of_awake (by simpa using hclosed _)
      · exact of_bystander (.update htu rfl rfl)
    · exact unlist (hclosed _)
  | semRelease s =>
    rcases semRelease_spec hw.sched (onSched_spec hrun).1 with ⟨-, henv⟩ | ⟨u, us, -, -, hsched⟩
    · rw [henv]
      exact of_bystander (.of_eq rfl rfl)
    · exact .trans (relist rfl) (schedule hsched)
  | semControl s cmd arg =>
    obtain ⟨_, hr⟩ := returned_of_map (onSched_spec hrun).1
    exact semControl hw.sched hr
  | semDetach s =>
    rw [semDetach_spec hw.sched (onSched_spec hrun).1]
    exact failAll hw.sched s
  | _ =>
    -- neither about a thread nor waking one
    refine of_bystander (.call hw ?_ ?_ hcall)
    · trivial
    · simp [wokenBy]

end Stays

/-! ## Sleeping on -/

/-- A thread that becomes current is ready. -/
def Elects (e e' : SchedSys τ σ (ThreadRings τ σ)) : Prop :=
  e'.rtCurrentThread = e.rtCurrentThread ∨
    ∃ u, e'.rtCurrentThread = some u ∧ (e'.thread u).stat = .ready

theorem CallEffect.elects {c : Call τ σ υ} (heff : CallEffect a c e) : Elects a.env e := by
  cases heff with
  | waking hwake => exact hwake.current
  | _ => exact .inl rfl

/-- Whoever leaves `t` suspended has found it so, takes it off no waiting list, does not hand it
the processor and does nothing to its timer if that is running. -/
structure Sleeper (t : τ) (a a' : SeqKernel τ σ υ) : Prop where
  env : Stays t a.env a'.env
  away : (a'.env.thread t).stat = .suspend → a.env.rtCurrentThread ≠ some t →
    a'.env.rtCurrentThread ≠ some t
  timer : (a'.env.thread t).stat = .suspend → .inl t ∈ a.timers.queue →
    SameTimer (.inl t) a.timers a'.timers

/-- The tick has advanced. -/
def SeqKernel.ticked (a : SeqKernel τ σ υ) : SeqKernel τ σ υ :=
  { a with timers := { a.timers with rtTick := a.timers.rtTick + 1 } }

namespace Sleeper
variable {a'' : SeqKernel τ σ υ}

section
omit [DecidableEq τ] [DecidableEq σ] [DecidableEq υ]

theorem refl (t : τ) (a : SeqKernel τ σ υ) : Sleeper t a a :=
  ⟨.refl t a.env, fun _ => id, fun _ _ => .refl _ _⟩

theorem trans (h : Sleeper t a a') (h' : Sleeper t a' a'') : Sleeper t a a'' := by
  refine ⟨h.env.trans h'.env, fun hst hcur => h'.away hst (h.away (h'.env hst).1 hcur),
    fun hst hq => ?_⟩
  have htimer := h.timer (h'.env hst).1 hq
  exact htimer.trans (h'.timer hst (htimer.mem.mpr hq))

theorem of_awake (h : (a'.env.thread t).stat ≠ .suspend) : Sleeper t a a' :=
  ⟨.of_awake h, fun hst => absurd hst h, fun hst => absurd hst h⟩

theorem away_of_elects (h : Elects a.env a'.env) (hst : (a'.env.thread t).stat = .suspend)
    (hcur : a.env.rtCurrentThread ≠ some t) : a'.env.rtCurrentThread ≠ some t := by
  intro hcur'
  rcases h with hsame | ⟨u, hu, hready⟩
  · exact hcur (hsame.symm.trans hcur')
  · obtain rfl : u = t := Option.some.inj (hu.symm.trans hcur')
    rw [hst] at hready
    cases hready

/-- Nothing happens to the timer of `t`. -/
theorem of_stays (henv : Stays t a.env a'.env) (hcur : Elects a.env a'.env)
    (htimers : SameTimer (.inl t) a.timers a'.timers) : Sleeper t a a' :=
  ⟨henv, away_of_elects hcur, fun _ _ => htimers⟩

theorem onSched {f : SchedSys τ σ (ThreadRings τ σ) → Option (SchedSys τ σ (ThreadRings τ σ))}
    (hf : ∀ {e}, f a.env = some e → Stays t a.env e ∧ Elects a.env e)
    (hrun : a.onSched f = some a') : Sleeper t a a' := by
  obtain ⟨he, htimers⟩ := onSched_spec hrun
  exact of_stays (hf he).1 (hf he).2 (by rw [htimers]; exact .refl _ _)

end

theorem call [Fintype τ] (hw : KernelWf a) {c : Call τ σ υ} (hc : c ≠ .threadSuspend t)
    (hallowed : Abs.CallAllowed a c) (hrun : Abs.execCall a c = some a') : Sleeper t a a' := by
  have henv : Stays t a.env a'.env := .call hw hc hrun
  have hcur := (execCall_effect hw hallowed hrun).elects
  rcases execCall_timers hw hallowed hrun with heq | ⟨d, hd, -, hexec⟩
  · exact of_stays henv hcur (by rw [heq]; exact .refl _ _)
  · by_cases hdt : d.timer = .inl t
    · -- the thread whose own timer is meant is initialised or detached
      refine of_awake fun hst => ?_
      cases c with
      | threadInit u priority tick =>
        cases hd
        cases hdt
        cases hrun
        simp [Abs.threadInit] at hst
      | threadSuspend u =>
        cases hd
        cases hdt
        exact hc rfl
      | threadDetach u =>
        cases hd
        cases hdt
        obtain ⟨-, -, ⟨-, henv⟩ | ⟨-, henv⟩⟩ := threadDetach_spec hw.sched hrun <;>
          simp [henv, RtThread.closed] at hst
      | _ => cases hd <;> cases hdt
    · exact of_stays henv hcur (SameTimer.timerCall hw.timers.valid hdt hexec)

theorem runCalls [Fintype τ] (cs : List (Call τ σ υ)) : ∀ {a a' : SeqKernel τ σ υ},
    KernelWf a → .threadSuspend t ∉ cs → Abs.runCalls cs a = some a' → Sleeper t a a' := by
  induction cs with
  | nil => intro a a' _ _ hrun; cases hrun; exact refl t a
  | cons c cs ih =>
    intro a a' hw hcs hrun
    obtain ⟨a₁, hc, hrest⟩ := Option.bind_eq_some_iff.mp hrun
    split at hc
    · rename_i hallowed
      rw [List.mem_cons, not_or] at hcs
      have h₁ := call hw (Ne.symm hcs.1) hallowed hc
      exact h₁.trans (ih (hw.execCall hallowed hc) hcs.2 hrest)
    · cases hc

/-- A timer that fires is another, or wakes its thread. -/
theorem fire [Fintype τ] (hw : KernelWf a) {x : τ ⊕ υ} {cs : List (Call τ σ υ)}
    (hcs : .threadSuspend t ∉ cs) (hx : a.timers.queue.head? = some x)
    (hrun : Abs.timerFire Abs.callback cs x a = some a') : Sleeper t a a' := by
  obtain ⟨-, f, a₁, hf, hcall, hend⟩ := Abs.timerFire_spec hrun
  have hmem : x ∈ a.timers.queue := List.mem_of_mem_head? hx
  have hw₀ : KernelWf (a.unlinked x) := hw.eraseTimer x
  have henv : a'.env = a₁.env := by
    rcases hend with ⟨-, -, -, henv⟩ | ⟨-, rfl⟩
    · exact henv
    · rfl
  by_cases hxt : x = .inl t
  · subst hxt
    have hok := (hw.timers.ok _ (hw.timers.valid.item_live hmem)).1
    rw [hf] at hok
    cases hok
    obtain ⟨he, -⟩ := onSched_spec (show (a.unlinked (.inl t)).onSched
      (fun e => Abs.timeout e t) = some a₁ from hcall)
    refine of_awake ?_
    rw [henv, (schedule_same (timeout_spec he).2).thread]
    simp [RtThread.timedOut]
  · have hxt : .inl t ≠ x := Ne.symm hxt
    have h₀ : Sleeper t a (a.unlinked x) :=
      of_stays (.refl t _) (.inl rfl) (.erase hw.timers.valid hxt)
    have h₁ : Sleeper t (a.unlinked x) a₁ ∧ a₁.timers.timerList.Valid := by
      cases f with
      | rtThreadTimeout u =>
        have htimeout : (a.unlinked x).onSched (fun e => Abs.timeout e u) = some a₁ := hcall
        obtain rfl : x = .inl u := hw.timers.callback_eq hmem hf
        refine ⟨onSched (fun he => ⟨.timeout he, ?_⟩) htimeout, ?_⟩
        · exact (Waking.timeout hw₀.sched (hw.linked u hmem) he).current
        · rw [(onSched_spec htimeout).2]
          exact hw₀.timers.valid
      | user => exact ⟨runCalls cs hw₀ hcs hcall, (hw₀.runCalls cs hcall).timers.valid⟩
    have hdone : SameTimer (.inl t) a₁.timers (a₁.timers.deactivate x) := .setTimer hxt
    refine (h₀.trans h₁.1).trans
      (of_stays (by rw [henv]; exact .refl t _) (.inl (by rw [henv])) ?_)
    rcases hend with ⟨-, -, hstart, -⟩ | ⟨-, rfl⟩
    · exact hdone.trans (.start h₁.2 hxt hstart)
    · exact hdone

theorem tick [Fintype τ] (hw : KernelWf a) {script : List (List (Call τ σ υ))}
    (hcs : .threadSuspend t ∉ script.flatten) (hrun : Abs.tick script a = some a') :
    Sleeper t (a.ticked) a' := by
  obtain ⟨a₁, hstart, hcheck⟩ := Option.bind_eq_some_iff.mp hrun
  have h₁ : Sleeper t (a.ticked) a₁ := by
    have hslice : (a.ticked).onSched Abs.tickSlice = some a₁ := hstart
    exact onSched (fun he => ⟨.tickSlice hw.sched he, (Waking.tickSlice hw.sched he).current⟩)
      hslice
  exact (Abs.timerCheck_invariant (fun b => KernelWf b ∧ Sleeper t (a.ticked) b) script
    (fun b x cs b' hmem hI hx _ hf => ⟨hI.1.fire hx hf, hI.2.trans (.fire hI.1
      (fun hc => hcs (List.mem_flatten_of_mem hmem hc)) hx hf)⟩)
    ⟨hw.tickStart hstart, h₁⟩ hcheck).1.2

end Sleeper

section
omit [DecidableEq τ]

/-- The insertion of another thread leaves `t` where it is. -/
theorem Inserts.mem_waiters (h : Inserts e s u e') (htu : t ≠ u) (q : σ) :
    t ∈ e'.waiters q ↔ t ∈ e.waiters q := by
  by_cases hq : q = s
  · subst hq
    rcases h.joins with ⟨-, -, hsame⟩ | ⟨xs, ys, hs, hs', -⟩
    · rw [hsame]
    · rw [hs, hs']
      simp [htu]
  · rw [h.waiters_ne q hq]

end

section
omit [DecidableEq τ] [DecidableEq σ]

/-- Under a flag the source knows, the thread is inserted. -/
theorem Inserts.mem_self (h : Inserts e s u e') (hflag : (e.sem s).Queues) :
    u ∈ e'.waiters s := by
  rcases h.joins with ⟨hfifo, hprio, -⟩ | ⟨xs, ys, -, hs', -⟩
  · exact absurd hflag (not_or.mpr ⟨hfifo, hprio⟩)
  · rw [hs']
    simp

end

/-- `t` waits for a semaphore or its timer runs. -/
def Found (t : τ) (a : SeqKernel τ σ υ) : Prop :=
  (∃ s, t ∈ a.env.waiters s) ∨ .inl t ∈ a.timers.queue

/-- A section leaves `t` asleep, or it is of `t` itself, which starts its timer or joins the
waiters of a semaphore. -/
theorem SectionEffect.sleeper {f : Service σ} (heff : SectionEffect f a a')
    (hw : KernelWf a) (t : τ) : Sleeper t a a' ∨
      a.env.rtCurrentThread = some t ∧ ((∀ s, (a.env.sem s).Queues) → Found t a') := by
  cases heff with
  | @sleeps u tick _ a₁ _ hcur hcan hsusp htimer =>
    have h₁ := threadSuspend_suspends hw hcan hsusp
    obtain ⟨henv, hother, hlinked, -⟩ := threadTimerStart_frame h₁.wf htimer
    by_cases htu : t = u
    · subst htu
      exact .inr ⟨hcur, fun _ => .inr hlinked⟩
    · refine .inl (.of_stays (.of_bystander ?_) (.inl ?_) (.of_others (h₁.timers.trans hother) htu))
      · rw [henv]
        exact .update htu h₁.thread h₁.waiters
      · rw [henv]
        exact h₁.current
  | @waits u s time _ a₁ a₂ _ hcur hcan hsusp hins htimer =>
    have h₁ := threadSuspend_suspends (hw.setError u RT_EOK) ((canBlock_setError _).mpr hcan) hsusp
    obtain ⟨hw₂, hthread₂, h₂, htimers₂⟩ := h₁.inserted hins
    obtain ⟨henv, hother, -, -⟩ := takeTimer_frame hw₂ htimer
    by_cases htu : t = u
    · subst htu
      refine .inr ⟨hcur, fun hflag => .inl ⟨s, ?_⟩⟩
      rw [henv]
      exact h₂.mem_self (by rw [h₁.sem]; exact hflag s)
    · refine .inl (.of_stays (.of_bystander ⟨?_, fun q => ?_⟩) (.inl ?_) ?_)
      · rw [henv, hthread₂, h₁.thread]
        simp [SchedSys.setError, htu]
      · rw [henv, h₂.mem_waiters htu, h₁.waiters]
        rfl
      · rw [henv]
        exact h₂.current.trans h₁.current
      · rw [htimers₂] at hother
        exact .of_others (h₁.timers.trans hother) htu
  | yields hwake hready => exact .inl (.of_stays (.relist hready) (.inl rfl) (.refl _ _))
  | releases hwake => exact .inl (.of_stays (.relist rfl) (.inl rfl) (.refl _ _))
  | resets s r hflag =>
    have hset : Stays t (a.env.failAll (a.env.waiters s))
        ((a.env.failAll (a.env.waiters s)).setSem s r) := .of_bystander (.of_eq rfl rfl)
    exact .inl (.of_stays (.trans (.failAll hw.sched s) hset) (.inl (failAll_current _ _))
      (.refl _ _))
  | unlocks => exact .inl (.of_stays (.of_bystander (.of_eq rfl rfl)) (.inl rfl) (.refl _ _))
  | nothing => exact .inl (.refl t a)

/-- A piece of a function that is not about `t`. -/
theorem PieceEffect.sleeper [Fintype τ] {p : Piece τ σ υ} {n : Piece τ σ υ ⊕ Rest τ}
    (heff : PieceEffect a p n a') (hw : KernelWf a) (hc : p.call ≠ .threadSuspend t)
    (ht : p.target ≠ some t) : Sleeper t a a' := by
  have hother : ∀ {u}, p.target = some u → t ≠ u := by
    rintro u hu rfl
    exact ht hu
  cases heff with
  | nothing => exact .refl t a
  | @resumes u b hwake =>
    exact .of_stays (.relist rfl) (.inl rfl) (.refl _ _)
  | @suspends u _ hrun =>
    exact .call (c := .threadSuspend u) hw hc trivial hrun
  | timerDetached => exact .of_stays (.refl t _) (.inl rfl) (.erase hw.timers.valid (by simp))
  | unlinks hp hq hst hwf =>
    refine .of_stays (.of_bystander ⟨rfl, fun s => ?_⟩) (.inl rfl) (.refl _ _)
    show t ∈ (a.env.waiters s).erase _ ↔ _
    rw [List.mem_erase_of_ne (hother hp)]
  | writes hp =>
    exact .of_stays (.of_bystander (.update (hother hp) rfl rfl)) (.inl rfl) (.refl _ _)
  | fails hwaiters hwake => exact .of_stays (.relist rfl) (.inl rfl) (.refl _ _)
  | @disarms u hst =>
    exact .of_stays (.refl t _) (.inl rfl) (.erase hw.timers.valid (by simp [hother rfl]))
  | sets heff => exact .of_stays (.refl t _) (.inl rfl) (heff.sameTimer hw.timers.valid t)

/-- One of a function about `t` hides `t` if it leaves it suspended, or has found it so and
changes nothing. -/
theorem PieceEffect.hides [Fintype τ] {p : Piece τ σ υ} {n : Piece τ σ υ ⊕ Rest τ}
    (heff : PieceEffect a p n a') (ht : p.target = some t)
    (hst' : (a'.env.thread t).stat = .suspend) :
    (∃ q, n = .inl q ∧ q.Hides t) ∨ ¬ p.Hides t ∧ a' = a := by
  cases heff with
  | nothing hnext =>
    by_cases hp : p.Hides t
    · exact .inl (hnext t hp hst')
    · exact .inr ⟨hp, rfl⟩
  | resumes =>
    cases ht
    simp at hst'
  | suspends => cases ht
  | unlinks hp hq =>
    cases hp.symm.trans ht
    exact .inl ⟨_, rfl, hq⟩
  | writes hp hq =>
    cases hp.symm.trans ht
    exact .inl ⟨_, rfl, hq (by simpa using hst')⟩
  | disarms => exact .inl ⟨_, rfl, Option.some.inj ht⟩
  | timerDetached => cases ht
  | fails => cases ht
  | sets => cases ht

/-! ## The flags of semaphores -/

/-- Every semaphore has a flag under which `rt_ipc_list_suspend` inserts. -/
def AllQueue (e : SchedSys τ σ (ThreadRings τ σ)) : Prop := ∀ s, (e.sem s).Queues

/-- The call does not suspend `t`, and gives a semaphore one of the two flags only. -/
def Call.Remembers (t : τ) : Call τ σ υ → Prop
  | .threadSuspend u => u ≠ t
  | .semInit _ _ flag => flag = RT_IPC_FLAG_FIFO ∨ flag = RT_IPC_FLAG_PRIO
  | _ => True

instance (t : τ) (c : Call τ σ υ) : Decidable (c.Remembers t) := by
  rcases c <;> dsimp only [Call.Remembers] <;> infer_instance

namespace AllQueue

section
omit [DecidableEq τ] [DecidableEq σ]

theorem congr (h : AllQueue e) (hflag : ∀ s, (e'.sem s).flag = (e.sem s).flag) : AllQueue e' := by
  intro s
  rw [RtSemaphore.Queues, hflag s]
  exact h s

theorem waking (h : AllQueue e) (hwake : Waking e e') : AllQueue e' := h.congr hwake.flag

end

theorem effect (h : AllQueue a.env) {c : Call τ σ υ} (hc : c.Remembers t)
    (heff : CallEffect a c e) : AllQueue e := by
  cases heff with
  | waking hwake => exact h.waking hwake
  | semInit s value flag =>
    intro q
    by_cases hq : q = s
    · subst hq
      have hknown : flag = RT_IPC_FLAG_FIFO ∨ flag = RT_IPC_FLAG_PRIO := hc
      simpa [Abs.semInit, SchedSys.setSem, RtSemaphore.Queues] using hknown
    · simpa [Abs.semInit, SchedSys.setSem, hq] using h q
  | taken s =>
    refine h.congr fun q => ?_
    by_cases hq : q = s
    · subst hq
      simp [SchedSys.setSem]
    · simp [SchedSys.setSem, hq]
  | _ => exact h

theorem sections (h : AllQueue a.env) (hw : KernelWf a) {f : Service σ}
    (heff : SectionEffect f a a') : AllQueue a'.env := by
  cases heff with
  | sleeps hcur hcan hsusp htimer =>
    have h₁ := threadSuspend_suspends hw hcan hsusp
    obtain ⟨henv, -⟩ := threadTimerStart_frame h₁.wf htimer
    exact h.congr fun q => by rw [henv, h₁.sem]
  | waits hcur hcan hsusp hins htimer =>
    have h₁ := threadSuspend_suspends (hw.setError _ RT_EOK) ((canBlock_setError _).mpr hcan) hsusp
    obtain ⟨hw₂, -, h₂, -⟩ := h₁.inserted hins
    obtain ⟨henv, -⟩ := takeTimer_frame hw₂ htimer
    exact h.congr fun q => by rw [henv, h₂.sem, h₁.sem]; rfl
  | yields hwake => exact h.waking hwake
  | releases hwake => exact h.waking hwake
  | resets s r hflag =>
    refine h.congr fun q => ?_
    by_cases hq : q = s
    · subst hq
      simpa [SchedSys.setSem] using hflag
    · simp [SchedSys.setSem, hq]
  | unlocks => exact h
  | nothing => exact h

theorem pieces [Fintype τ] (h : AllQueue a.env) (hw : KernelWf a) {p : Piece τ σ υ}
    {n : Piece τ σ υ ⊕ Rest τ} (heff : PieceEffect a p n a') : AllQueue a'.env := by
  cases heff with
  | suspends hrun =>
    obtain ⟨_, hr⟩ := returned_of_map hrun
    rcases threadSuspend_spec hw.sched hr with ⟨-, -, rfl⟩ | ⟨-, -, henv, -⟩
    · exact h
    · rw [henv]
      exact h
  | _ => exact h

end AllQueue

/-! ## Runs -/

/-- The calls made in a move, by the thread with interrupts disabled or by a handler, and the one
that a piece is of. -/
def KernelMove.calls (st : Interleaved τ σ υ) : KernelMove τ σ υ → List (Call τ σ υ)
  | .piece => st.underway.toList
  | .masked c => [c]
  | .tick script => script.flatten
  | .handler cs => cs
  | _ => []

/-- A tick advances `rt_tick` before it does anything else. -/
def KernelMove.begin : KernelMove τ σ υ → SeqKernel τ σ υ → SeqKernel τ σ υ
  | .tick _, a => a.ticked
  | _, a => a

section
omit [DecidableEq τ] [DecidableEq σ] [DecidableEq υ]

@[simp] theorem begin_env (m : KernelMove τ σ υ) (a : SeqKernel τ σ υ) :
    (m.begin a).env = a.env := by
  cases m <;> rfl

@[simp] theorem begin_queue (m : KernelMove τ σ υ) (a : SeqKernel τ σ υ) :
    (m.begin a).timers.queue = a.timers.queue := by
  cases m <;> rfl

end

/-- Nobody but `t` suspends `t`, and semaphores are initialised with one of the two flags. -/
def KernelMove.Remembers (t : τ) (st : Interleaved τ σ υ) (m : KernelMove τ σ υ) : Prop :=
  ∀ c ∈ m.calls st, c.Remembers t

instance (t : τ) (st : Interleaved τ σ υ) (m : KernelMove τ σ υ) : Decidable (m.Remembers t st) :=
  inferInstanceAs (Decidable (∀ c ∈ m.calls st, _))

section
omit [DecidableEq τ] [DecidableEq σ] [DecidableEq υ]

theorem KernelMove.Remembers.noSuspend {st : Interleaved τ σ υ} {m : KernelMove τ σ υ}
    (hm : m.Remembers t st) : .threadSuspend t ∉ m.calls st := fun hmem => hm _ hmem rfl

end

section Runs
variable [Fintype τ] [Fintype υ] {st st' : Interleaved τ σ υ}

section
omit [DecidableEq τ] [DecidableEq σ] [DecidableEq υ] [Fintype τ] [Fintype υ]

theorem atOnce_remembers {f : Service σ} {c : Call τ σ υ} (hc : f.atOnce = some c) (t : τ) :
    c.Remembers t := by
  cases f <;> cases hc <;> trivial

end

section
omit [Fintype υ]

/-- **One move** leaves `t` asleep, or it is a section of `t` itself, if it is no piece. -/
theorem MoveEffect.sleeper {m : KernelMove τ σ υ} (heff : MoveEffect st a m st' a')
    (hw : KernelWf a) (hm : .threadSuspend t ∉ m.calls st) (hpiece : m ≠ .piece) :
    Sleeper t (m.begin a) a' ∨
      a.env.rtCurrentThread = some t ∧ (AllQueue a.env → Found t a') := by
  cases heff with
  | invokes => exact .inl (.refl t a)
  | pieces => exact absurd rfl hpiece
  | leaves hcur hr heff => exact heff.sleeper hw t
  | returns hcur hcall hallowed hrun =>
    have hc := atOnce_remembers hcall t
    exact .inl (.call hw (by rintro rfl; exact hc rfl) hallowed hrun)
  | finishes hcur hsched =>
    exact .inl (.onSched (fun he => ⟨.schedule he, (Waking.schedule hw.sched he).current⟩) hsched)
  | call hallowed hprepares hrun =>
    exact .inl (.call hw (Ne.symm (List.ne_of_not_mem_cons hm)) hallowed hrun)
  | tick hrun => exact .inl (.tick hw hm hrun)
  | handler hcur hrun => exact .inl (.runCalls _ hw hm hrun)
  | start hcur hsched =>
    refine .inl (.onSched (fun he => ⟨?_, (Waking.schedStart hw.sched he).current⟩) hsched)
    obtain ⟨u, -, rfl⟩ := schedStart_spec he
    exact .of_bystander (.of_eq rfl rfl)

end

/-- A thread is in the middle of a function that is about to make `t` ready or to close it. -/
def Interleaved.Hidden (t : τ) (st : Interleaved τ σ υ) : Prop :=
  ∃ u p, st.errand u = some p ∧ p.Hides t

/-- While it is suspended, `t` can be found, or somebody has it in hand. -/
def Remembered (t : τ) (st : Interleaved τ σ υ) (a : SeqKernel τ σ υ) : Prop :=
  (a.env.thread t).stat = .suspend → Found t a ∨ st.Hidden t

section
omit [DecidableEq τ] [DecidableEq σ] [DecidableEq υ] [Fintype τ] [Fintype υ]

/-- Whoever leaves `t` asleep can have it found where it was before. -/
theorem Sleeper.found {b : SeqKernel τ σ υ} (h : Sleeper t a b)
    (hst : (b.env.thread t).stat = .suspend) :
    (a.env.thread t).stat = .suspend ∧ (Found t a → Found t b) := by
  obtain ⟨hst₀, hmem⟩ := h.env hst
  refine ⟨hst₀, fun hfound => ?_⟩
  rcases hfound with ⟨s, hts⟩ | hq
  · exact .inl ⟨s, hmem s hts⟩
  · exact .inr ((h.timer hst hq).mem.mpr hq)

@[simp] theorem begin_found (m : KernelMove τ σ υ) : Found t (m.begin a) ↔ Found t a := by
  rw [Found, Found, begin_env, begin_queue]

end

section
omit [Fintype υ]

/-- Who is in the middle of a function stays there but for its own pieces. -/
theorem MoveEffect.errand {m : KernelMove τ σ υ} (heff : MoveEffect st a m st' a')
    (hpiece : m ≠ .piece) {v : τ} {q : Piece τ σ υ} (hq : st.errand v = some q) :
    st'.errand v = some q := by
  cases heff with
  | @invokes c u p hcur hfree hfirst =>
    have hvu : v ≠ u := by
      rintro rfl
      rw [hfree] at hq
      cases hq
    simpa [hvu] using hq
  | pieces => exact absurd rfl hpiece
  | _ => exact hq

theorem Remembered.piece (hw : KernelWf a) (h : Remembered t st a)
    (hc : .threadSuspend t ∉ st.underway)
    (hcurrent : st.kernel.env.rtCurrentThread = a.env.rtCurrentThread)
    (heff : MoveEffect st a .piece st' a') : Remembered t st' a' := by
  intro hst
  cases heff with
  | @pieces c p n _ _ hcur hp heff =>
    have hcall : p.call ≠ .threadSuspend t := by
      rintro hcall
      exact hc (by simp [Interleaved.underway, hcurrent.trans hcur, hp, hcall])
    -- whoever else has it in hand still has
    have hother : ¬ p.Hides t → Found t a' ∨ st.Hidden t → Found t a' ∨
        ∃ u q, Function.update st.errand c n.getLeft? u = some q ∧ q.Hides t := by
      rintro hnot (hfound | ⟨u, q, hq, hhides⟩)
      · exact .inl hfound
      · refine .inr ⟨u, q, ?_, hhides⟩
        have huc : u ≠ c := by
          rintro rfl
          cases hq.symm.trans hp
          exact hnot hhides
        simpa [huc] using hq
    by_cases ht : p.target = some t
    · rcases heff.hides ht hst with ⟨q, rfl, hq⟩ | ⟨hnot, rfl⟩
      · exact .inr ⟨c, q, by simp, hq⟩
      · exact hother hnot (h hst)
    · obtain ⟨hst₀, hfound⟩ := (heff.sleeper hw hcall ht).found hst
      exact hother (fun hhides => ht hhides.target) ((h hst₀).imp_left hfound)

theorem Remembered.move {m : KernelMove τ σ υ} (hw : KernelWf a) (h : Remembered t st a)
    (hflag : AllQueue a.env) (hm : m.Remembers t st)
    (hcurrent : st.kernel.env.rtCurrentThread = a.env.rtCurrentThread)
    (heff : MoveEffect st a m st' a') : Remembered t st' a' := by
  by_cases hpiece : m = .piece
  · subst hpiece
    exact h.piece hw (by simpa [KernelMove.calls] using hm.noSuspend) hcurrent heff
  · intro hst
    rcases heff.sleeper hw hm.noSuspend hpiece with hs | ⟨-, hfound⟩
    · obtain ⟨hst₀, hkept⟩ := hs.found hst
      rw [begin_env] at hst₀
      rw [begin_found] at hkept
      refine (h hst₀).imp hkept ?_
      rintro ⟨u, q, hq, hhides⟩
      exact ⟨u, q, heff.errand hpiece hq, hhides⟩
    · exact .inl (hfound hflag)

theorem AllQueue.move {m : KernelMove τ σ υ} (hw : KernelWf a) (hflag : AllQueue a.env)
    (hm : m.Remembers t st) (heff : MoveEffect st a m st' a') : AllQueue a'.env := by
  cases heff with
  | leaves hcur hr heff => exact hflag.sections hw heff
  | returns hcur hcall hallowed hrun =>
    exact hflag.effect (atOnce_remembers hcall t) (execCall_effect hw hallowed hrun)
  | finishes hcur hsched => exact hflag.waking (.schedule hw.sched (onSched_spec hsched).1)
  | invokes => exact hflag
  | pieces hcur hp heff => exact hflag.pieces hw heff
  | call hallowed hprepares hrun =>
    exact hflag.effect (hm _ (List.mem_singleton_self _)) (execCall_effect hw hallowed hrun)
  | tick hrun =>
    exact tick_invariant (I := AllQueue) (C := fun c => c.Remembers t)
      (fun e e' _ h hwake => h.waking hwake) (fun a c e hc _ h heff => h.effect hc heff) hw hflag
      (fun cs hcs c hc => hm c (List.mem_flatten_of_mem hcs hc)) hrun
  | handler hcur hrun =>
    exact runCalls_invariant (I := AllQueue) (C := fun c => c.Remembers t)
      (fun a c e hc _ h heff => h.effect hc heff) _ hm hw hflag hrun
  | start hcur hsched => exact hflag.waking (.schedStart hw.sched (onSched_spec hsched).1)

end

section
omit [Fintype τ] [Fintype υ]

theorem Remembered.booted {idle : τ} (h : Abs.boot idle = some a) :
    Remembered t st a ∧ AllQueue a.env := by
  have hbooted := boot_spec h
  refine ⟨fun hst => ?_, fun s => ?_⟩
  · rw [hbooted.thread] at hst
    by_cases hti : t = idle
    · subst hti
      simp [RtThread.started] at hst
    · simp [hti, Abs.systemInit, Abs.schedInit, zeroSched] at hst
  · rw [hbooted.sem]
    exact .inl rfl

end

end Runs

end Remembered

/-- Thread 1 waits for a semaphore for ever; thread 2 has gone to sleep and is interrupted by a
tick before its `rt_schedule`. -/
def waitingAndAsleep : List (KernelMove (Fin 3) (Fin 1) Empty) :=
  [.masked (.semInit 0 0 RT_IPC_FLAG_PRIO), .masked (.threadInit 1 3 10),
    .masked (.threadInit 2 5 10), .masked (.threadStartup 1), .masked (.threadStartup 2), .start,
    .enter (.semTake 0 0xffffffff), .tick [], .finish, .enter (.threadSleep 3), .tick []]

/-- Thread 2 wakes up and takes thread 1 off the waiting list. -/
def waitingAndResumed : List (KernelMove (Fin 3) (Fin 1) Empty) :=
  waitingAndAsleep ++ [.finish, .tick [], .tick [[]], .invoke (.threadResume 1), .piece, .piece]

end SampleRtos
