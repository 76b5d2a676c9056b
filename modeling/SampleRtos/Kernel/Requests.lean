import SampleRtos.Kernel.Owed

/-!
# Whom the kernel asks the processor to run

Of the machine an operation of the kernel changes `rt_current_thread` and the port, and those
by `rt_schedule` alone: it makes a number of requests one after the other, each for a thread
that has been initialised and is not current. The tick and its callbacks may make several.
-/

namespace SampleRtos

open Intrusive

section Requests
variable {τ σ υ : Type} [DecidableEq τ] [DecidableEq σ] [DecidableEq υ]
  {k k' : RtKernel τ σ υ} {a a' : SeqKernel τ σ υ}
  {e e' e'' : SchedSys τ σ (ThreadRings τ σ)} {t : τ} {s : σ}

/-- A request for a thread of `L`. -/
def Request (L : τ → Prop) (p p' : Option τ × Port τ) : Prop :=
  ∃ c t, p.1 = some c ∧ c ≠ t ∧ L t ∧ p' = (some t, p.2.rtHwContextSwitch (.sp c) (.sp t))

/-- `rt_current_thread` and the port have changed by requests, and no thread has been
initialised. -/
structure Requests (e e' : SchedSys τ σ (ThreadRings τ σ)) : Prop where
  live : ∀ t, e'.list.live (.item t) = e.list.live (.item t)
  run : Relation.ReflTransGen (Request fun t => e.list.live (.item t) = true)
    (e.rtCurrentThread, e.port) (e'.rtCurrentThread, e'.port)

/-- The thread a call initialises. -/
def Call.Initialises : Call τ σ υ → Option τ
  | .threadInit t _ _ => some t
  | _ => none

namespace Requests

section
omit [DecidableEq τ] [DecidableEq σ]

/-- Nothing is requested. -/
theorem kept (hcur : e'.rtCurrentThread = e.rtCurrentThread) (hport : e'.port = e.port)
    (hlive : ∀ t, e'.list.live (.item t) = e.list.live (.item t)) : Requests e e' :=
  ⟨hlive, by rw [hcur, hport]⟩

theorem refl (e : SchedSys τ σ (ThreadRings τ σ)) : Requests e e := kept rfl rfl fun _ => rfl

theorem trans (h : Requests e e') (h' : Requests e' e'') : Requests e e'' := by
  refine ⟨fun t => (h'.live t).trans (h.live t), h.run.trans ?_⟩
  have hrun := h'.run
  simp only [h.live] at hrun
  exact hrun

/-- Whoever is asked for is current afterwards. -/
theorem current (h : Requests e e') : e'.rtCurrentThread = e.rtCurrentThread ∨
    ∃ t, e'.rtCurrentThread = some t ∧ e.list.live (.item t) = true := by
  rcases Relation.ReflTransGen.cases_tail h.run with heq | ⟨p, -, c, t, -, -, hlive, heq⟩
  · exact .inl (congrArg Prod.fst heq)
  · exact .inr ⟨t, congrArg Prod.fst heq, hlive⟩

theorem started (h : Requests e e') (hcur : e.rtCurrentThread ≠ none) :
    e'.rtCurrentThread ≠ none := by
  rcases h.current with heq | ⟨t, ht, -⟩
  · rwa [heq]
  · simp [ht]

end

section
omit [DecidableEq σ]

/-- `rt_schedule` requests the thread at the head of the most urgent list. -/
theorem schedule (hw : SchedWf e) (hcur : e.rtCurrentThread ≠ none)
    (hrun : Abs.schedule e = some e') : Requests e e' := by
  refine ⟨fun t => (Waking.schedule hw hrun).live (.item t), ?_⟩
  obtain ⟨t, hhead, rfl⟩ := schedule_spec hrun
  have hready := ((hw.ready_iff t _).mp (List.mem_of_mem_head? hhead)).1
  obtain ⟨c, hc⟩ := Option.ne_none_iff_exists'.mp hcur
  unfold SchedSys.switchTo
  split
  · rename_i hswitch
    have hct : c ≠ t := fun hct => hswitch.2 (by rw [hc, hct])
    exact .single ⟨c, t, hc, hct, hw.live t (by simp [hready]), by simp [hc, spOf]⟩
  · exact .refl

/-- A reschedule comes last, after what requests nothing. -/
theorem scheduled (h : Requests e e') (hw : SchedWf e') (hcur : e.rtCurrentThread ≠ none)
    (hrun : Abs.schedule e' = some e'') : Requests e e'' :=
  h.trans (schedule hw (h.started hcur) hrun)

end

/-- A thread becomes ready, and `rt_schedule` follows. -/
theorem woken {r : RtThread} (hrun : Abs.schedule (e.relistReady t r) = some e')
    (hcur : e.rtCurrentThread ≠ none) (hw : SchedWf (e.relistReady t r)) : Requests e e' :=
  (kept rfl rfl fun _ => rfl : Requests e (e.relistReady t r)).scheduled hw hcur hrun

theorem yield (hw : SchedWf e) (hcur : e.rtCurrentThread ≠ none) (h : Abs.yield e = some e') :
    Requests e e' := by
  obtain ⟨t, -, ⟨rfl, -⟩ | ⟨hst, hsched⟩⟩ := yield_spec hw h
  · exact refl _
  · exact woken hsched hcur (hw.wake (.inl hst) hst rfl rfl rfl)

theorem tickSlice (hw : SchedWf e) (hcur : e.rtCurrentThread ≠ none)
    (h : Abs.tickSlice e = some e') : Requests e e' := by
  obtain ⟨t, -, ⟨-, rfl⟩ | ⟨-, ⟨rfl, -⟩ | ⟨hst, hsched⟩⟩⟩ := tickSlice_spec hw h
  · exact kept rfl rfl fun _ => rfl
  · exact kept rfl rfl fun _ => rfl
  · exact woken hsched hcur (hw.wake (.inl hst) hst rfl rfl rfl)

theorem timeout (hw : SchedWf e) (hcur : e.rtCurrentThread ≠ none) (hact : (e.thread t).Active)
    (h : Abs.timeout e t = some e') : Requests e e' :=
  woken (timeout_spec h).2 hcur (hw.wake hact rfl rfl rfl rfl)

theorem startup (hw : SchedWf e) (h : Abs.startup e t = some e') : Requests e e' := by
  obtain ⟨hlive, ⟨-, rfl⟩ | ⟨hcur, hsched⟩⟩ := startup_spec h
  · exact kept rfl rfl fun _ => rfl
  · exact woken hsched hcur (hw.relistReady hlive rfl (hw.init_prio t) rfl rfl)

theorem semRelease (hw : SchedWf e) (hcur : e.rtCurrentThread ≠ none)
    (h : Abs.semRelease e s = some e') : Requests e e' := by
  rcases semRelease_spec hw h with ⟨-, rfl⟩ | ⟨t, -, -, hst, hsched⟩
  · exact kept rfl rfl fun _ => rfl
  · exact woken hsched hcur (hw.wake (.inr hst) rfl rfl rfl rfl)

theorem failAll (ts : List τ) (e : SchedSys τ σ (ThreadRings τ σ)) :
    Requests e (e.failAll ts) :=
  kept (failAll_current ts e) (failAll_port ts e) fun _ => by rw [failAll_live]

theorem semControl [Fintype τ] (hw : SchedWf e) (hcur : e.rtCurrentThread ≠ none) {cmd r : Int}
    {arg : BitVec 32} (h : Abs.semControl e s cmd arg = some (r, e')) : Requests e e' := by
  rcases semControl_spec hw h with ⟨-, -, rfl⟩ | ⟨-, -, hsched⟩
  · exact refl _
  · have hw₁ : SchedWf ((e.failAll (e.waiters s)).setSem s
        { (e.failAll (e.waiters s)).sem s with value := arg.setWidth 16 }) :=
      (hw.failAll rfl).1.congr rfl rfl rfl
    have hset : Requests e ((e.failAll (e.waiters s)).setSem s
        { (e.failAll (e.waiters s)).sem s with value := arg.setWidth 16 }) :=
      (failAll (e.waiters s) e).trans (kept rfl rfl fun _ => rfl)
    exact hset.scheduled hw₁ hcur hsched

section
omit [DecidableEq σ]

theorem exitCritical (hw : SchedWf e) (h : Abs.exitCritical e = some e') : Requests e e' := by
  unfold Abs.exitCritical at h
  dsimp only at h
  split at h
  · have hopen : Requests e { e with rtSchedulerLockNest := 0 } := kept rfl rfl fun _ => rfl
    split at h
    · rename_i hcur
      have hw₁ : SchedWf { e with rtSchedulerLockNest := 0 } := hw.congr rfl rfl rfl
      exact hopen.scheduled hw₁ (by simpa [Option.isSome_iff_ne_none] using hcur) h
    · cases h
      exact hopen
  · cases h
    exact kept rfl rfl fun _ => rfl

end

section
omit [DecidableEq τ] [DecidableEq σ]

theorem enterCritical (e : SchedSys τ σ (ThreadRings τ σ)) : Requests e e.rtEnterCritical := by
  unfold SchedSys.rtEnterCritical
  split
  · exact kept rfl rfl fun _ => rfl
  · exact refl e

end

section
omit [DecidableEq σ]

theorem threadSuspend (hw : SchedWf a.env) {r : Int} (h : Abs.threadSuspend a t = some (r, a')) :
    Requests a.env a'.env := by
  rcases threadSuspend_spec hw h with ⟨-, -, rfl⟩ | ⟨-, -, henv, -⟩
  · exact refl _
  · rw [henv]
    exact kept rfl rfl fun _ => rfl

end

/-! ## Calls, sections and ticks -/

theorem call [Fintype τ] (hw : KernelWf a) {c : Call τ σ υ}
    (hcur : a.env.rtCurrentThread = none → c.Prepares) (hc : c.Initialises = none)
    (hrun : Abs.execCall a c = some a') : Requests a.env a'.env := by
  have hstarted : ¬ c.Prepares → a.env.rtCurrentThread ≠ none := mt hcur
  unfold Abs.execCall at hrun
  cases c with
  | threadInit t priority tick => cases hc
  | threadStartup t => exact startup hw.sched (onSched_spec hrun).1
  | threadResume t =>
    obtain ⟨_, hr⟩ := returned_of_map (onSched_spec hrun).1
    rcases resume_spec hr with ⟨-, -, henv⟩ | ⟨-, -, -, henv⟩ <;> rw [henv] <;>
      exact kept rfl rfl fun _ => rfl
  | threadSuspend t =>
    obtain ⟨_, hr⟩ := returned_of_map hrun
    exact threadSuspend hw.sched hr
  | threadYield => exact yield hw.sched (hstarted id) (onSched_spec hrun).1
  | threadDetach t =>
    obtain ⟨-, -, ⟨-, henv⟩ | ⟨-, henv⟩⟩ := threadDetach_spec hw.sched hrun <;> rw [henv] <;>
      exact kept rfl rfl fun _ => rfl
  | semInit s value flag =>
    cases hrun
    refine kept rfl rfl fun t => ?_
    show (a.env.list.mark (.head (.suspend s))).live (.item t) = _
    simp [Rings.mark]
  | semTrytake s =>
    obtain ⟨_, hr⟩ := returned_of_map hrun
    rcases semTake_spec hr with ⟨-, -, rfl⟩ | ⟨-, -, -, rfl⟩ | ⟨hb, -⟩
    · exact kept rfl rfl fun _ => rfl
    · exact refl _
    · exact absurd rfl hb.2
  | semRelease s => exact semRelease hw.sched (hstarted id) (onSched_spec hrun).1
  | semControl s cmd arg =>
    obtain ⟨_, hr⟩ := returned_of_map (onSched_spec hrun).1
    exact semControl hw.sched (hstarted id) hr
  | semDetach s =>
    rw [semDetach_spec hw.sched (onSched_spec hrun).1]
    exact failAll _ _
  | enterCritical => cases hrun; exact enterCritical _
  | exitCritical => exact exitCritical hw.sched (onSched_spec hrun).1
  | schedule => exact schedule hw.sched (hstarted id) (onSched_spec hrun).1
  | timerInit u time flag => cases hrun; exact refl _
  | timerStart u => rw [(onTimers_spec hrun).2]; exact refl _
  | timerStop u => rw [(onTimers_spec hrun).2]; exact refl _
  | timerControl u cmd => cases hrun; exact refl _
  | timerDetach u => rw [(onTimers_spec hrun).2]; exact refl _

end Requests

/-! ## Moves -/

theorem SchedRel.port {k : SchedSys τ σ (ThreadLinks τ σ)} (h : SchedRel k e) :
    k.port = e.port := by
  cases h with
  | mk => rfl

/-- `rt_thread_init` has set up the node of the thread. -/
def Initialised (k : RtKernel τ σ υ) (t : τ) : Prop := k.env.list.next (.item t) ≠ none

theorem initialised_iff (hk : KernelRel k a) (t : τ) :
    Initialised k t ↔ a.env.list.live (.item t) = true := next_ne_none_iff hk.env.rep _

/-- `rt_current_thread` and the port of the kernel have changed by requests for initialised
threads, and no thread has been initialised. -/
structure KernelRequests (k k' : RtKernel τ σ υ) : Prop where
  init : ∀ t, Initialised k' t ↔ Initialised k t
  run : Relation.ReflTransGen (Request (Initialised k)) (k.env.rtCurrentThread, k.env.port)
    (k'.env.rtCurrentThread, k'.env.port)

theorem Requests.kernel (h : Requests a.env a'.env) (hk : KernelRel k a) (hk' : KernelRel k' a') :
    KernelRequests k k' := by
  have hinit : (fun t => a.env.list.live (.item t) = true) = Initialised k :=
    funext fun t => propext (initialised_iff hk t).symm
  refine ⟨fun t => ?_, ?_⟩
  · rw [initialised_iff hk, initialised_iff hk', h.live]
  · rw [hk.env.current, hk.env.port, hk'.env.current, hk'.env.port, ← hinit]
    exact h.run

section
omit [DecidableEq τ] [DecidableEq σ] [DecidableEq υ]

theorem KernelRequests.refl (k : RtKernel τ σ υ) : KernelRequests k k := ⟨fun _ => Iff.rfl, .refl⟩

end

/-- The move initialises no thread. -/
def KernelMove.InitialisesNone : KernelMove τ σ υ → Prop
  | .masked c => c.Initialises = none
  | .tick script => ∀ cs ∈ script, ∀ c ∈ cs, c.Initialises = none
  | .handler cs => ∀ c ∈ cs, c.Initialises = none
  | _ => True

instance (m : KernelMove τ σ υ) : Decidable m.InitialisesNone := by
  rcases m <;> dsimp only [KernelMove.InitialisesNone] <;> infer_instance

section Runs
variable [Fintype τ] [Fintype υ] {st st' : Interleaved τ σ υ}

section
omit [DecidableEq τ] [DecidableEq σ] [DecidableEq υ] [Fintype τ] [Fintype υ]

theorem atOnce_initialises {f : Service σ} {c : Call τ σ υ} (hc : f.atOnce = some c) :
    c.Initialises = none := by
  cases f <;> cases hc <;> rfl

end

/-- **What a move does to the port** are requests, but for the start of the scheduler. -/
theorem KernelMove.requests (hs : st.InOrder a) {m : KernelMove τ σ υ} (hm : m.Allowed st)
    (hnone : m.InitialisesNone) (hstart : m ≠ .start) (hrun : m.exec st = some st') :
    KernelRequests st.kernel st'.kernel := by
  obtain ⟨a', ⟨hk', -, -⟩, heff⟩ := hs.move hm hrun
  obtain ⟨hk, hw, -⟩ := hs
  suffices h : Requests a.env a'.env from h.kernel hk hk'
  cases heff with
  | leaves hcur hr heff =>
    have h := heff.leaves hw
    exact .kept h.current h.port fun t => by rw [h.live]
  | returns hcur hcall hallowed hrun =>
    exact .call hw (fun hcur' => by rw [hcur] at hcur'; cases hcur') (atOnce_initialises hcall) hrun
  | finishes hcur hsched =>
    exact .schedule hw.sched (by rw [hcur]; simp) (onSched_spec hsched).1
  | invokes => exact .refl _
  | pieces hcur hp heff =>
    have h := heff.leaves hw
    exact .kept h.current h.port fun t => by rw [h.live]
  | call hallowed hprepares hrun => exact .call hw hprepares hnone hrun
  | @tick script _ _ hrun =>
    have hcur : a.env.rtCurrentThread ≠ none := by
      obtain ⟨a₁, hslice, -⟩ := Option.bind_eq_some_iff.mp hrun
      obtain ⟨t, ht, -⟩ := tickSlice_spec hw.sched (onSched_spec hslice).1
      rw [show a.env.rtCurrentThread = some t from ht]
      simp
    refine tick_meets_invariant (I := fun e => Requests a.env e)
      (P := fun _ c => c.Initialises = none) ?_ ?_ ?_ hk hw
      (tickMeets_of_forall fun cs hcs c hc _ => hnone cs hcs c hc) (.refl _) hrun
    · exact fun hw h hslice => h.trans (.tickSlice hw (h.started hcur) hslice)
    · exact fun hw hact h htimeout =>
        h.trans (.timeout hw.sched (h.started hcur) hact htimeout)
    · exact fun _ hw hc _ h hcall =>
        h.trans (.call hw (fun hnone => absurd hnone (h.started hcur)) hc hcall)
  | @handler cs _ _ hcur hrun =>
    exact runCalls_meets_invariant (I := fun e => Requests a.env e)
      (P := fun _ c => c.Initialises = none)
      (fun _ hw hc _ h hcall =>
        h.trans (.call hw (fun hnone => absurd hnone (h.started hcur)) hc hcall)) cs hk hw
      (callsMeet_of_forall cs fun c hc _ => hnone c hc) (.refl _) hrun
  | start => exact absurd rfl hstart

end Runs

end Requests

end SampleRtos
