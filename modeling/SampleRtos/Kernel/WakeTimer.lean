import SampleRtos.Kernel.Expiry

/-!
# The timers of ready threads

`rt_thread_resume` does not stop the timer of the thread it wakes. In a run in
which nobody wakes a thread whose timer is running, except that timer itself, the
timer of a ready thread is never on the timer list, and a tick does nothing to a
ready thread beyond what its slice asks for.
-/

namespace SampleRtos

open Intrusive

section WakeTimer
variable {τ σ υ : Type} [DecidableEq τ] [DecidableEq σ] [DecidableEq υ]

/-- The threads an operation makes ready through `rt_thread_resume`. -/
def wokenBy (thread : τ → RtThread) (waiters : σ → List τ) : Op τ σ υ → List τ
  | .call (.threadStartup t) => [t]
  | .call (.threadResume t) => if (thread t).stat = .suspend then [t] else []
  | .call (.semRelease s) => (waiters s).take 1
  | .call (.semControl s cmd _) => if cmd = RT_IPC_CMD_RESET then waiters s else []
  | .call (.semDetach s) => waiters s
  | _ => []

/-- Nobody the operation wakes has a timer running. -/
def WakesDisarmed [Fintype τ] [Fintype υ] (k : RtKernel τ σ υ) (op : Op τ σ υ) : Prop :=
  ∀ t ∈ wokenBy k.env.thread k.waiters op, ¬ k.Armed t

instance [Fintype τ] [Fintype υ] (k : RtKernel τ σ υ) (op : Op τ σ υ) :
    Decidable (WakesDisarmed k op) :=
  inferInstanceAs (Decidable (∀ t ∈ wokenBy k.env.thread k.waiters op, ¬ k.Armed t))

/-! ## Who becomes ready -/

section Ready
variable {e e' : SchedSys τ σ (ThreadRings τ σ)} {t u : τ} {s : σ}

/-- The slice accounting makes nobody ready. -/
theorem tickSlice_ready (hw : SchedWf e) (h : Abs.tickSlice e = some e')
    (hu : (e'.thread u).stat = .ready) : (e.thread u).stat = .ready := by
  obtain ⟨t, -, ⟨-, rfl⟩ | ⟨-, ⟨rfl, -⟩ | ⟨hst, hsched⟩⟩⟩ := tickSlice_spec hw h
  · by_cases hut : u = t
    · subst hut; simpa [RtThread.withRemaining] using hu
    · simpa [hut] using hu
  · by_cases hut : u = t
    · subst hut; simpa [RtThread.withRemaining] using hu
    · simpa [hut] using hu
  · rw [(schedule_same hsched).thread] at hu
    rcases relistReady_ready hu with rfl | hu
    · exact hst
    · exact hu

end Ready

variable {a a' : SeqKernel τ σ υ} {u : τ}

/-- After a call, who was not ready before and is now was woken by it. -/
theorem execCall_ready [Fintype τ] (hw : KernelWf a) {c : Call τ σ υ}
    (hrun : Abs.execCall a c = some a') (hu : (a'.env.thread u).stat = .ready) :
    u ∈ wokenBy (υ := υ) a.env.thread a.env.waiters (.call c) ∨ (a.env.thread u).stat = .ready := by
  unfold Abs.execCall at hrun
  -- whoever a call makes ready it relists, which leaves the others as they were
  cases c with
  | threadInit t priority tick =>
    cases hrun
    by_cases hut : u = t
    · subst hut; simp [Abs.threadInit] at hu
    · exact .inr (by simpa [Abs.threadInit, hut] using hu)
  | threadStartup t =>
    obtain ⟨-, ⟨-, henv⟩ | ⟨-, hsched⟩⟩ := startup_spec (onSched_spec hrun).1
    · rw [henv] at hu
      exact (relistReady_ready hu).imp_left fun hut => by simp [wokenBy, hut]
    · rw [(schedule_same hsched).thread] at hu
      exact (relistReady_ready hu).imp_left fun hut => by simp [wokenBy, hut]
  | threadResume t =>
    obtain ⟨_, hr⟩ := returned_of_map (onSched_spec hrun).1
    rcases resume_spec hr with ⟨-, -, henv⟩ | ⟨hst, -, -, henv⟩ <;> rw [henv] at hu
    · exact .inr hu
    · exact (relistReady_ready hu).imp_left fun hut => by simp [wokenBy, hst, hut]
  | threadSuspend t =>
    obtain ⟨_, hr⟩ := returned_of_map hrun
    rcases threadSuspend_spec hw.sched hr with ⟨-, -, rfl⟩ | ⟨-, -, henv, -⟩
    · exact .inr hu
    · rw [henv] at hu
      by_cases hut : u = t
      · subst hut; simp [RtThread.suspended] at hu
      · exact .inr (by simpa [hut] using hu)
  | threadYield =>
    obtain ⟨t, -, ⟨henv, -⟩ | ⟨hst, hsched⟩⟩ := yield_spec hw.sched (onSched_spec hrun).1
    · rw [henv] at hu
      exact .inr hu
    · rw [(schedule_same hsched).thread] at hu
      rcases relistReady_ready hu with rfl | hu
      · exact .inr hst
      · exact .inr hu
  | threadDetach t =>
    obtain ⟨-, -, ⟨-, henv⟩ | ⟨-, henv⟩⟩ := threadDetach_spec hw.sched hrun <;> rw [henv] at hu <;>
      by_cases hut : u = t
    · subst hut; simp [RtThread.closed] at hu
    · exact .inr (by simpa [hut] using hu)
    · subst hut; simp [RtThread.closed] at hu
    · exact .inr (by simpa [hut] using hu)
  | semInit s value flag => cases hrun; exact .inr hu
  | semTrytake s =>
    obtain ⟨_, hr⟩ := returned_of_map hrun
    rcases semTake_spec hr with ⟨-, -, rfl⟩ | ⟨-, -, -, rfl⟩ | ⟨hb, -⟩
    · exact .inr hu
    · exact .inr hu
    · exact absurd rfl hb.2
  | semRelease s =>
    rcases semRelease_spec hw.sched (onSched_spec hrun).1 with
      ⟨-, henv⟩ | ⟨t, ts, hts, -, hsched⟩
    · rw [henv] at hu
      exact .inr hu
    · rw [(schedule_same hsched).thread] at hu
      exact (relistReady_ready hu).imp_left fun hut => by simp [wokenBy, hts, hut]
  | semControl s cmd arg =>
    obtain ⟨_, hr⟩ := returned_of_map (onSched_spec hrun).1
    rcases semControl_spec hw.sched hr with ⟨-, -, henv⟩ | ⟨hcmd, -, hsched⟩
    · rw [henv] at hu
      exact .inr hu
    · rw [(schedule_same hsched).thread] at hu
      exact (failAll_ready hu).imp_left fun hmem => by simpa [wokenBy, hcmd] using hmem
  | semDetach s =>
    rw [semDetach_spec hw.sched (onSched_spec hrun).1] at hu
    exact failAll_ready hu
  | enterCritical =>
    cases hrun
    exact .inr (by simpa [SchedSys.rtEnterCritical, apply_ite] using hu)
  | exitCritical =>
    obtain ⟨n, henv | hsched⟩ := exitCritical_spec (onSched_spec hrun).1
    · rw [henv] at hu
      exact .inr hu
    · rw [(schedule_same hsched).thread] at hu
      exact .inr hu
  | schedule =>
    rw [(schedule_same (onSched_spec hrun).1).thread] at hu
    exact .inr hu
  | timerInit v time flag => cases hrun; exact .inr hu
  | timerControl v cmd => cases hrun; exact .inr hu
  | _ => rw [(onTimers_spec hrun).2] at hu; exact .inr hu

/-- No call starts the timer of a thread. -/
theorem execCall_queue [Fintype τ] (hw : KernelWf a) {c : Call τ σ υ}
    (hrun : Abs.execCall a c = some a') (hu : .inl u ∈ a'.timers.queue) :
    .inl u ∈ a.timers.queue := by
  unfold Abs.execCall at hrun
  cases c with
  | threadInit t priority tick => cases hrun; exact hu
  | threadSuspend t =>
    obtain ⟨_, hr⟩ := returned_of_map hrun
    rcases threadSuspend_spec hw.sched hr with ⟨-, -, rfl⟩ | ⟨-, -, -, ⟨-, hm⟩ | ⟨-, -, hm⟩⟩
    · exact hu
    · rw [hm] at hu; exact hu
    · rw [hm] at hu; exact Rings.mem_of_mem_erase hu
  | threadDetach t =>
    rw [(threadDetach_spec hw.sched hrun).1] at hu
    exact Rings.mem_of_mem_erase hu
  | semInit s value flag => cases hrun; exact hu
  | semTrytake s =>
    obtain ⟨_, hr⟩ := returned_of_map hrun
    rcases semTake_spec hr with ⟨-, -, rfl⟩ | ⟨-, -, -, rfl⟩ | ⟨hb, -⟩
    · exact hu
    · exact hu
    · exact absurd rfl hb.2
  | enterCritical => cases hrun; exact hu
  | timerInit v time flag => cases hrun; exact hu
  | timerStart v =>
    obtain ⟨hstart, -⟩ := onTimers_spec hrun
    simpa using ((hw.timers.start hstart).2.1 _).mp hu
  | timerStop v =>
    obtain ⟨_, hstop⟩ := returned_of_map (onTimers_spec hrun).1
    rcases Abs.timerStop_spec hstop with ⟨-, hm⟩ | ⟨-, -, hm⟩
    · rw [hm] at hu; exact hu
    · rw [hm] at hu; exact Rings.mem_of_mem_erase hu
  | timerControl v cmd => cases hrun; exact hu
  | timerDetach v =>
    obtain ⟨-, hm⟩ := Abs.timerRemove_eq_some (onTimers_spec hrun).1
    rw [hm] at hu
    exact Rings.mem_of_mem_erase hu
  | _ => rw [(onSched_spec hrun).2] at hu; exact hu

/-! ## The invariant -/

/-- No ready thread has its timer on the list. -/
def Unarmed (a : SeqKernel τ σ υ) : Prop :=
  ∀ t, (a.env.thread t).stat = .ready → .inl t ∉ a.timers.queue

section Threads
variable {a a' : SeqKernel τ σ Empty}

section
omit [DecidableEq τ] [DecidableEq σ]

/-- A thread whose timer fires is not ready. -/
theorem Unarmed.not_expiring (h : Unarmed a) {t : τ} (ht : (a.env.thread t).stat = .ready) :
    t ∉ Abs.expiring a :=
  fun hmem => h t ht (mem_queue_of_expired hmem)

end

/-- An operation that wakes nobody whose timer runs keeps ready threads unarmed. -/
theorem Unarmed.exec [Fintype τ] (hw : KernelWf a) (h : Unarmed a) {op : Op τ σ Empty}
    (hop : Abs.Allowed a op)
    (hdis : ∀ t ∈ wokenBy a.env.thread a.env.waiters op, .inl t ∉ a.timers.queue)
    (hrun : Abs.exec a op = some a') : Unarmed a' := by
  intro u hu hq
  unfold Abs.exec at hrun
  cases op with
  | call c =>
    have hq₀ := execCall_queue hw hrun hq
    rcases execCall_ready hw hrun hu with hmem | hu
    · exact hdis u hmem hq₀
    · exact h u hu hq₀
  | threadSleep tick =>
    obtain ⟨t, hcur, hcan⟩ := hop
    have hs := threadSleep_sleeps hw hcan hcur hrun
    rw [hs.thread] at hu
    by_cases hut : u = t
    · subst hut; simp at hu
    · exact h u (by simpa [hut] using hu) ((hs.timers.mem _ (by simpa using hut)).mp hq)
  | semTake s time =>
    obtain ⟨_, hr⟩ := returned_of_map hrun
    rcases semTake_spec hr with ⟨-, -, rfl⟩ | ⟨-, -, -, rfl⟩ | ⟨hb, t, hcur, -, hwait⟩
    · exact h u hu hq
    · exact h u hu hq
    · obtain ⟨t', hcur', hcan⟩ := hop hb
      obtain rfl : t = t' := Option.some.inj (hcur.symm.trans hcur')
      have hwaits := takeWait_waits hw hcan hwait
      rw [hwaits.thread] at hu
      by_cases hut : u = t
      · subst hut; simp at hu
      · exact h u (by simpa [hut] using hu) ((hwaits.timers.mem _ (by simpa using hut)).mp hq)
  | tickIncrease script =>
    obtain ⟨e, hslice, -, hexp, hmem⟩ := tick_expires hw hrun
    obtain ⟨hq₀, hnot⟩ := (hmem u).mp hq
    rw [hexp.thread, if_neg hnot] at hu
    exact h u (tickSlice_ready hw.sched hslice hu) hq₀
  | schedulerStart =>
    obtain ⟨hstart, htimers⟩ := onSched_spec hrun
    obtain ⟨t, -, henv⟩ := schedStart_spec hstart
    rw [henv] at hu
    rw [htimers] at hq
    exact h u hu hq

/-- A list of ready threads after a tick: as before, unless the slice of the
current thread has run out and it went to the end, and then the newly woken. -/
def ReadyAfterTick (thread : τ → RtThread) (current : Option τ) (ts ts' : List τ) : Prop :=
  ∃ woken, (∀ t ∈ woken, (thread t).stat ≠ .ready) ∧
    (ts' = ts ++ woken ∨ ∃ c, current = some c ∧ (thread c).remainingTick = 1 ∧ c ∈ ts ∧
      ts' = ts.erase c ++ c :: woken)

/-- What the slice accounting does to a ready list and to errors. -/
theorem tickSlice_calm {e e' : SchedSys τ σ (ThreadRings τ σ)} (hw : SchedWf e)
    (hslice : Abs.tickSlice e = some e') :
    (∀ u, (e'.thread u).error = (e.thread u).error) ∧
      ∀ p, e'.readyList p = e.readyList p ∨
        ∃ c, e.rtCurrentThread = some c ∧ (e.thread c).remainingTick = 1 ∧
          c ∈ e.readyList p ∧ e'.readyList p = (e.readyList p).erase c ++ [c] := by
  have herror : ∀ (t u : τ) (r : RtThread), r.error = (e.thread t).error →
      (Function.update e.thread t r u).error = (e.thread u).error := by
    intro t u r hr
    by_cases hut : u = t
    · subst hut; simpa using hr
    · simp [hut]
  obtain ⟨t, hcur, ⟨-, rfl⟩ | ⟨hone, ⟨rfl, -⟩ | ⟨hst, hsched⟩⟩⟩ := tickSlice_spec hw hslice
  · exact ⟨fun u => herror t u _ rfl, fun p => .inl rfl⟩
  · exact ⟨fun u => herror t u _ rfl, fun p => .inl rfl⟩
  · have hsame := schedule_same hsched
    refine ⟨fun u => by rw [hsame.thread]; exact herror t u _ rfl, fun p => ?_⟩
    rw [hsame.readyList, SchedSys.relistReady_readyList]
    by_cases hp : p = (e.thread t).currentPriority
    · subst hp
      exact .inr ⟨t, hcur, hone, hw.mem_ready hst, by simp [RtThread.withRemaining]⟩
    · have hnot : t ∉ e.readyList p := fun ht => hp (hw.prio_of_mem ht)
      rw [if_neg (by simpa [RtThread.withRemaining] using hp), List.erase_of_not_mem hnot]
      exact .inl rfl

theorem Unarmed.tick [Fintype τ] (hw : KernelWf a) (h : Unarmed a)
    {script : List (List (Call τ σ Empty))} (hrun : Abs.tick script a = some a') :
    (∀ t, (a.env.thread t).stat = .ready →
        (a'.env.thread t).error = (a.env.thread t).error) ∧
      ∀ p, ReadyAfterTick a.env.thread a.env.rtCurrentThread (a.env.readyList p)
        (a'.env.readyList p) := by
  obtain ⟨e, hslice, -, hexp, -⟩ := tick_expires hw hrun
  obtain ⟨herror, hlists⟩ := tickSlice_calm hw.sched hslice
  have hw' : SchedWf e := (Waking.tickSlice hw.sched hslice).wf
  have hready : ∀ t, (e.thread t).stat = .ready → t ∉ Abs.expiring a := fun t ht =>
    h.not_expiring (tickSlice_ready hw.sched hslice ht)
  have hwake := Waking.tickSlice hw.sched hslice
  refine ⟨fun t ht => ?_, fun p => ?_⟩
  · rw [hexp.thread, if_neg (h.not_expiring ht)]
    exact herror t
  · have hstay : (e.readyList p).filter (· ∉ Abs.expiring a) = e.readyList p := by
      rw [List.filter_eq_self]
      intro t ht
      simpa using hready t ((hw'.ready_iff t p).mp ht).1
    refine ⟨(Abs.expiring a).filter fun t => (e.thread t).currentPriority = p,
      fun t ht hst => ?_, ?_⟩
    · exact h.not_expiring hst (List.mem_filter.mp ht).1
    · rw [hexp.readyList, hstay]
      rcases hlists p with heq | ⟨c, hcur, hone, hmem, heq⟩
      · exact .inl (by rw [heq])
      · exact .inr ⟨c, hcur, hone, hmem, by rw [heq]; simp⟩

/-- **Ready threads have no timer running**, in every run that wakes nobody whose
timer runs; and then a tick leaves their errors and their order alone, apart from
the current thread whose slice runs out. -/
theorem ready_thread_unarmed [Fintype τ] {idle : τ} {k : RtKernel τ σ Empty}
    (hk : Reachable idle WakesDisarmed k) :
    (∀ t, (k.env.thread t).stat = .ready → ¬ k.Armed t) ∧
      ∀ script k', kernelTick script k = some k' →
        (∀ t, (k.env.thread t).stat = .ready →
          (k'.env.thread t).error = (k.env.thread t).error) ∧
        ∀ p, ReadyAfterTick k.env.thread k.env.rtCurrentThread (k.readyList p)
          (k'.readyList p) := by
  obtain ⟨a, h, hw, hI⟩ := hk.invariant (I := Unarmed)
    (fun a ha _ t _ => by simp [(boot_spec ha).queue])
    fun k a op a' h hw hI hop hdis hrun => by
      refine hI.exec hw hop (fun t ht => ?_) hrun
      rw [← h.armed]
      refine hdis t ?_
      rw [h.env.thread, show k.waiters = a.env.waiters from funext h.waiters]
      exact ht
  refine ⟨fun t ht => ?_, fun script k' hk' => ?_⟩
  · rw [h.armed]
    rw [h.env.thread] at ht
    exact hI t ht
  · obtain ⟨a', ha', h'⟩ := Lockstep.exists_of_left (kernelTick_rel h hw script) hk'
    obtain ⟨herror, hlists⟩ := hI.tick hw ha'
    simp only [h.env.thread, h'.env.thread, h.env.current, h.readyList, h'.readyList]
    exact ⟨herror, hlists⟩

end Threads

/-- Starting, blocking, waking and yielding, after initialisation of what these
act on, and ticks. -/
def startBlockWake : Op τ σ υ → Bool
  | .call (.threadInit ..) | .call (.semInit ..) | .schedulerStart => true
  | .call (.threadStartup _) | .call (.threadSuspend _) | .call (.threadResume _) => true
  | .call (.semTrytake _) | .call (.semRelease _) | .call (.semControl ..) => true
  | .call (.semDetach _) | .call .threadYield => true
  | .threadSleep _ | .semTake .. | .tickIncrease _ => true
  | _ => false

/-- Thread 1, more urgent than thread 2, sleeps for ten ticks. -/
def sleeper : List (Op (Fin 3) (Fin 1) Empty) :=
  [.call (.threadInit 1 3 10), .call (.threadInit 2 5 10), .call (.threadStartup 1),
    .call (.threadStartup 2), .schedulerStart, .threadSleep 10]

theorem sleeper_unarmed : ∃ k, runFrom 0 WakesDisarmed sleeper = some k ∧
    ∀ t, (k.env.thread t).stat = .ready → ¬ k.Armed t := by
  obtain ⟨k, hk, hreach, -⟩ := reachable_of_runFrom 0 WakesDisarmed sleeper (fun _ => true)
    (by decide +kernel)
  exact ⟨k, hk, (ready_thread_unarmed hreach).1⟩

/-- `rt_thread_resume` of the sleeper leaves it ready with its timer running. -/
theorem resumed_sleeper_armed :
    ¬ ∀ k : RtKernel (Fin 3) (Fin 1) Empty, Reachable 0 (fun _ op => startBlockWake op) k →
      ∀ t, (k.env.thread t).stat = .ready → ¬ k.Armed t := by
  intro hclaim
  obtain ⟨k, -, hreach, hk⟩ := reachable_of_runFrom 0 (fun _ op => startBlockWake op)
    (sleeper ++ [.call (.threadResume 1)])
    (fun k => decide ((k.env.thread 1).stat = .ready) && decide (k.Armed 1)) (by decide +kernel)
  simp only [Bool.and_eq_true, decide_eq_true_eq] at hk
  exact hclaim k hreach 1 hk.1 hk.2

end WakeTimer

end SampleRtos
