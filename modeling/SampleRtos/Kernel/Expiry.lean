import SampleRtos.Kernel.Observe

/-!
# Ticks of a kernel whose timers are those of its threads

Without program timers no callback runs a program's calls, so which timers a
tick fires can be told beforehand: those at the front of the timer list that are
due at the new tick. `Expires` is their joint effect.
-/

namespace SampleRtos

open Intrusive

section Expiry
variable {τ σ L : Type}

/-- The thread a timer belongs to. -/
def timerThread : τ ⊕ Empty → τ
  | .inl t => t

@[simp] theorem inl_timerThread (x : τ ⊕ Empty) : .inl (timerThread x) = x := by
  rcases x with t | u
  · rfl
  · cases u

/-- The threads whose timers stand due at `now` at the front of `queue`. -/
def expired {γ : Type} (timer : τ ⊕ Empty → RtTimer γ) (now : Tick) (queue : List (τ ⊕ Empty)) :
    List τ :=
  (queue.takeWhile fun x => decide ((timer x).due now)).map timerThread

theorem eq_timerThread {t : τ} {x : τ ⊕ Empty} : t = timerThread x ↔ .inl t = x := by
  refine ⟨fun h => ?_, fun h => ?_⟩
  · rw [h, inl_timerThread]
  · rw [← h]
    rfl

variable [DecidableEq τ] [DecidableEq σ]

/-- The threads whose timers the next `rt_tick_increase` fires. -/
def RtKernel.expiring [Fintype τ] (k : RtKernel τ σ Empty) : List τ :=
  expired k.timers.timer (k.timers.rtTick + 1) k.queue

namespace Abs

/-- `RtKernel.expiring` on sequences. -/
def expiring (a : SeqKernel τ σ Empty) : List τ :=
  expired a.timers.timer (a.timers.rtTick + 1) a.timers.queue

end Abs

theorem expiring_rel [Fintype τ] {k : RtKernel τ σ Empty} {a : SeqKernel τ σ Empty}
    (h : KernelRel k a) : k.expiring = Abs.expiring a := by
  rw [RtKernel.expiring, Abs.expiring, h.queue, h.timers.timer, h.timers.rtTick]

section
omit [DecidableEq τ]

theorem mem_queue_of_expired {γ : Type} {timer : τ ⊕ Empty → RtTimer γ} {now : Tick}
    {queue : List (τ ⊕ Empty)} {t : τ} (ht : t ∈ expired timer now queue) : .inl t ∈ queue := by
  obtain ⟨x, hx, rfl⟩ := List.mem_map.mp ht
  rw [inl_timerThread]
  exact (List.takeWhile_sublist _).subset hx

/-- Only the records of the timers in the queue matter. -/
theorem expired_congr {γ : Type} {timer timer' : τ ⊕ Empty → RtTimer γ} {now : Tick}
    {queue : List (τ ⊕ Empty)} (h : ∀ x ∈ queue, timer x = timer' x) :
    expired timer now queue = expired timer' now queue := by
  unfold expired
  congr 1
  induction queue with
  | nil => rfl
  | cons x xs ih =>
    rw [List.takeWhile_cons, List.takeWhile_cons, h x (by simp), ih fun y hy => h y (by simp [hy])]

end

/-! ## The effect of the timeouts -/

/-- The threads `ts` time out one after the other: they leave whatever list they
are on and end up behind the ready threads of their priority. -/
structure Expires (e : SchedSys τ σ (ThreadRings τ σ)) (ts : List τ)
    (e' : SchedSys τ σ (ThreadRings τ σ)) : Prop where
  thread : ∀ u, e'.thread u = if u ∈ ts then (e.thread u).timedOut else e.thread u
  sem : e'.sem = e.sem
  lockNest : e'.rtSchedulerLockNest = e.rtSchedulerLockNest
  waiters : ∀ s, e'.waiters s = (e.waiters s).filter (· ∉ ts)
  readyList : ∀ p, e'.readyList p =
    (e.readyList p).filter (· ∉ ts) ++ ts.filter fun t => (e.thread t).currentPriority = p
  live : e'.list.live = e.list.live

namespace Expires
variable {e e₁ e' : SchedSys τ σ (ThreadRings τ σ)} {t : τ} {ts : List τ}

section
omit [DecidableEq σ]

theorem nil (e : SchedSys τ σ (ThreadRings τ σ)) : Expires e [] e := by
  constructor <;> simp

end

theorem filter_erase {α : Type} [DecidableEq α] {xs : List α} (hnd : xs.Nodup) (x : α)
    (ys : List α) : (xs.erase x).filter (· ∉ ys) = xs.filter (· ∉ x :: ys) := by
  rw [hnd.erase_eq_filter, List.filter_filter]
  refine List.filter_congr fun y _ => ?_
  by_cases hyx : y = x <;> simp [hyx]

/-- One more timeout in front. -/
theorem cons (hw : SchedWf e) (htimeout : Abs.timeout e t = some e₁) (h : Expires e₁ ts e')
    (ht : t ∉ ts) : Expires e (t :: ts) e' := by
  obtain ⟨-, hsched⟩ := timeout_spec htimeout
  have hsame := schedule_same hsched
  have hprio : ∀ u, (e₁.thread u).currentPriority = (e.thread u).currentPriority := fun u => by
    rw [hsame.thread]
    by_cases hut : u = t
    · subst hut; simp [RtThread.timedOut]
    · simp [hut]
  refine ⟨fun u => ?_, by rw [h.sem, hsame.sem]; rfl, by rw [h.lockNest, hsame.lockNest]; rfl,
    fun s => ?_, fun p => ?_, by rw [h.live, hsame.list]; rfl⟩
  · rw [h.thread, hsame.thread]
    by_cases hut : u = t
    · subst hut; simp [ht]
    · simp [hut]
  · rw [h.waiters, hsame.waiters, SchedSys.relistReady_waiters]
    exact filter_erase (hw.valid.nodup _) t ts
  · have hkept : ∀ xs : List τ, (xs ++ [t]).filter (· ∉ ts) = xs.filter (· ∉ ts) ++ [t] :=
      fun xs => by simp [List.filter_append, ht]
    have hfilter : (ts.filter fun u => decide ((e₁.thread u).currentPriority = p)) =
        ts.filter fun u => decide ((e.thread u).currentPriority = p) := by simp only [hprio]
    have hnd : (e.readyList p).Nodup := hw.valid.nodup _
    rw [h.readyList, hfilter, hsame.readyList, SchedSys.relistReady_readyList]
    by_cases hp : p = (e.thread t).currentPriority
    · have hp' : p = (e.thread t).timedOut.currentPriority := hp
      rw [if_pos hp', hkept, filter_erase hnd t ts, List.filter_cons,
        if_pos (by simp [hp])]
      simp
    · have hp' : ¬ p = (e.thread t).timedOut.currentPriority := hp
      rw [if_neg hp', filter_erase hnd t ts, List.filter_cons,
        if_neg (by simp [Ne.symm hp])]

end Expires

/-! ## A tick -/

variable {a a' : SeqKernel τ σ Empty} {t : τ}

/-- One firing is the timeout of the thread whose timer stands first. -/
theorem fire_expires [Fintype τ] (hw : KernelWf a) {x : τ ⊕ Empty}
    {c : List (Call τ σ Empty)} (hx : a.timers.queue.head? = some x)
    (hrun : Abs.timerFire Abs.callback c x a = some a') :
    Abs.timeout a.env (timerThread x) = some a'.env ∧
      a.timers.queue = x :: a'.timers.queue ∧ a'.timers.rtTick = a.timers.rtTick ∧
      ∀ y, y ≠ x → a'.timers.timer y = a.timers.timer y := by
  obtain ⟨hlive, f, a₁, hf, hcall, hend⟩ := Abs.timerFire_spec hrun
  obtain ⟨xs, hxs⟩ := List.head?_eq_some_iff.mp hx
  have hok := hw.timers.ok x hlive
  rcases x with t | u
  · obtain rfl : f = .rtThreadTimeout t := Option.some.inj (hf.symm.trans hok.1)
    obtain ⟨htimeout, htimers⟩ := onSched_spec (show (a.unlinked (.inl t)).onSched
      (fun e => Abs.timeout e t) = some a₁ from hcall)
    rcases hend with ⟨hper, -⟩ | ⟨-, rfl⟩
    · rw [htimers] at hper
      exact absurd hper hok.2
    · have hqueue : (a.timers.timerList.erase (.inl t)).seq .rtTimerList = xs :=
        Rings.erase_seq_head hxs
      refine ⟨htimeout, ?_, ?_, fun y hy => ?_⟩ <;> simp only [htimers]
      · rw [hxs, ← hqueue]
        rfl
      · rfl
      · simp [hy, Sys.unlinked]
  · cases u

/-- The timers a whole check fires are those due at the front of the list. -/
theorem check_expires [Fintype τ] (script : List (List (Call τ σ Empty))) :
    ∀ {a a' : SeqKernel τ σ Empty}, KernelWf a →
      Abs.timerCheck Abs.callback script a = some a' →
      Waking a.env a'.env ∧
        Expires a.env (expired a.timers.timer a.timers.rtTick a.timers.queue) a'.env ∧
        (∀ t, .inl t ∈ a'.timers.queue ↔ .inl t ∈ a.timers.queue ∧
          t ∉ expired a.timers.timer a.timers.rtTick a.timers.queue) := by
  have hquiet : ∀ {a : SeqKernel τ σ Empty}, Quiet a →
      expired a.timers.timer a.timers.rtTick a.timers.queue = [] := by
    intro a hq
    cases hqueue : a.timers.queue with
    | nil => rfl
    | cons x xs =>
      have hnot := hq x (by rw [hqueue]; rfl)
      simp [expired, hnot]
  induction script with
  | nil =>
    intro a a' hw hrun
    rcases Abs.timerCheck_cases hrun with ⟨rfl, hq⟩ | ⟨c, rest, x, a₁, hnil, -⟩
    · rw [hquiet hq]
      exact ⟨.refl hw.sched, .nil _, by simp⟩
    · cases hnil
  | cons c script ih =>
    intro a a' hw hrun
    rcases Abs.timerCheck_cases hrun with ⟨rfl, hq⟩ | ⟨c', rest, x, a₁, hcons, hx, hdue, hf, hrest⟩
    · rw [hquiet hq]
      exact ⟨.refl hw.sched, .nil _, by simp⟩
    · cases hcons
      obtain ⟨htimeout, hqueue, htick, htimer⟩ := fire_expires hw hx hf
      obtain ⟨hwake, hexp, hmem⟩ := ih (hw.fire hx hf) hrest
      have hlinked : (a.env.thread (timerThread x)).Active :=
        hw.linked _ (by rw [inl_timerThread, hqueue]; simp)
      have hnd : (x :: a₁.timers.queue).Nodup := hqueue ▸ hw.timers.valid.nodup .rtTimerList
      obtain ⟨hx₁, -⟩ := List.nodup_cons.mp hnd
      -- firing the first timer leaves the records of the others as they were
      have hcongr : expired a.timers.timer a.timers.rtTick a₁.timers.queue =
          expired a₁.timers.timer a₁.timers.rtTick a₁.timers.queue := by
        rw [htick]
        exact expired_congr fun y hy => (htimer y fun hyx => hx₁ (hyx ▸ hy)).symm
      have hsplit : expired a.timers.timer a.timers.rtTick a.timers.queue =
          timerThread x :: expired a₁.timers.timer a₁.timers.rtTick a₁.timers.queue := by
        rw [← hcongr, expired, hqueue, List.takeWhile_cons, if_pos (by simpa using hdue)]
        rfl
      rw [hsplit]
      refine ⟨(Waking.timeout hw.sched hlinked htimeout).trans hwake,
        hexp.cons hw.sched htimeout fun ht => hx₁ ?_, fun t => ?_⟩
      · rw [← inl_timerThread x]
        exact mem_queue_of_expired ht
      · rw [hmem, hqueue, List.mem_cons, List.mem_cons, not_or, eq_timerThread]
        refine ⟨fun ⟨hq, hnot⟩ => ⟨.inr hq, fun htx => hx₁ (htx ▸ hq), hnot⟩,
          fun ⟨hq, htx, hnot⟩ => ⟨hq.resolve_left htx, hnot⟩⟩

/-- **A tick.** The current thread is charged for its slice, then the timers due
at the front of the list fire. -/
theorem tick_expires [Fintype τ] (hw : KernelWf a) {script : List (List (Call τ σ Empty))}
    (hrun : Abs.tick script a = some a') :
    ∃ e, Abs.tickSlice a.env = some e ∧ Waking e a'.env ∧
      Expires e (Abs.expiring a) a'.env ∧
      ∀ t, .inl t ∈ a'.timers.queue ↔ .inl t ∈ a.timers.queue ∧ t ∉ Abs.expiring a := by
  obtain ⟨a₁, hstart, hcheck⟩ := Option.bind_eq_some_iff.mp hrun
  obtain ⟨hslice, htimers⟩ := onSched_spec hstart
  have h := check_expires script (hw.tickStart hstart) hcheck
  rw [htimers] at h
  exact ⟨a₁.env, hslice, h⟩

end Expiry

end SampleRtos
