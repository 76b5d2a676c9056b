import SampleRtos.Timer.Spec
import SampleRtos.Sched.Step
import SampleRtos.Kernel.Seq

/-!
# The kernel invariant

`KernelWf` adds the timers to `SchedWf`: a thread's timer carries
`rt_thread_timeout` for that thread, is one-shot, and is linked only while the
thread is ready or suspended. That a linked timer belongs to a suspended thread
is not part of it: `rt_thread_resume` leaves the timer of the thread it wakes
running. The invariant holds after initialisation and every operation keeps it.
-/

namespace SampleRtos

open Intrusive

section Wf
variable {τ σ υ : Type} [DecidableEq τ] [DecidableEq σ] [DecidableEq υ]

abbrev SeqTimers (τ υ : Type) := TimerSys (τ ⊕ υ) (TimerCallback τ) (TimerRings (τ ⊕ υ))

/-- The callback a timer must have, and that only program timers are periodic. -/
def TimerOk (x : τ ⊕ υ) (r : RtTimer (TimerCallback τ)) : Prop :=
  match x with
  | .inl t => r.timeoutFunc = some (.rtThreadTimeout t) ∧ ¬ r.periodic
  | .inr _ => r.timeoutFunc = some .user

structure TimersWf (m : SeqTimers τ υ) : Prop where
  valid : m.timerList.Valid
  head_live : m.timerList.live timerHead = true
  ok : ∀ x, m.timerList.live (.item x) = true → TimerOk x (m.timer x)
  activated : ∀ t, .inl t ∈ m.queue → (m.timer (.inl t)).activated

structure KernelWf (a : SeqKernel τ σ υ) : Prop where
  sched : SchedWf a.env
  timers : TimersWf a.timers
  linked : ∀ t, .inl t ∈ a.timers.queue → (a.env.thread t).Active
  node_live : ∀ t, a.timers.timerList.live (.item (.inl t)) = true →
    a.env.list.live (.item t) = true

/-! ## The timers -/

namespace TimersWf
variable {m m' : SeqTimers τ υ} {x : τ ⊕ υ} {r : RtTimer (TimerCallback τ)}

/-- One timer gets a new record and at most that timer is newly linked. -/
theorem update (h : TimersWf m) (hvalid : m'.timerList.Valid)
    (hhead : m'.timerList.live timerHead = true) (htimer : m'.timer = Function.update m.timer x r)
    (hlive : ∀ y, y ≠ x → m'.timerList.live (.item y) = true → m.timerList.live (.item y) = true)
    (hqueue : ∀ y ∈ m'.queue, y ≠ x → y ∈ m.queue)
    (hok : TimerOk x r) (hact : ∀ t, x = .inl t → x ∈ m'.queue → r.activated) :
    TimersWf m' where
  valid := hvalid
  head_live := hhead
  ok y hy := by
    rw [htimer]
    by_cases hyx : y = x
    · subst hyx; simpa using hok
    · simpa [hyx] using h.ok y (hlive y hyx hy)
  activated t ht := by
    rw [htimer]
    by_cases htx : .inl t = x
    · subst htx; simpa using hact t rfl ht
    · simpa [htx] using h.activated t (hqueue _ ht htx)

section
omit [DecidableEq τ] [DecidableEq υ]

/-- `rt_thread_timeout` is the callback of the thread's own timer only. -/
theorem callback_eq (h : TimersWf m) (hx : x ∈ m.queue) {t : τ}
    (hf : (m.timer x).timeoutFunc = some (.rtThreadTimeout t)) : x = .inl t := by
  have hok := h.ok x (h.valid.item_live hx)
  cases x with
  | inl u =>
    have heq := hf.symm.trans hok.1
    cases heq
    rfl
  | inr u =>
    have heq := hf.symm.trans hok
    cases heq

end

theorem erase (h : TimersWf m) (x : τ ⊕ υ) :
    TimersWf { m with timerList := m.timerList.erase x } where
  valid := h.valid.erase x
  head_live := h.head_live
  ok := h.ok
  activated t ht := h.activated t (Rings.mem_of_mem_erase ht)

theorem not_mem_erase (h : TimersWf m) (x : τ ⊕ υ) :
    x ∉ ({ m with timerList := m.timerList.erase x } : SeqTimers τ υ).queue :=
  h.valid.erase_free x _

/-- The record of a timer may change in the fields that no one relies on. -/
theorem setTimer (h : TimersWf m) (hlive : m.timerList.live (.item x) = true)
    (hfunc : r.timeoutFunc = (m.timer x).timeoutFunc)
    (hper : ∀ t, x = .inl t → (r.periodic ↔ (m.timer x).periodic))
    (hact : ∀ t, x = .inl t → x ∈ m.queue → r.activated) : TimersWf (m.setTimer x r) := by
  refine h.update h.valid h.head_live rfl (fun _ _ => id) (fun _ hy _ => hy) ?_ hact
  have hok := h.ok x hlive
  cases x with
  | inl t => exact ⟨hfunc.trans hok.1, fun hp => hok.2 ((hper t rfl).mp hp)⟩
  | inr u => exact hfunc.trans hok

theorem deactivate (h : TimersWf m) (hlive : m.timerList.live (.item x) = true)
    (hx : ∀ t, x = .inl t → x ∉ m.queue) : TimersWf (m.deactivate x) :=
  h.setTimer hlive rfl (fun _ _ => RtTimer.deactivate_periodic _)
    fun t ht hmem => absurd hmem (hx t ht)

theorem stopped (h : TimersWf m) (hlive : m.timerList.live (.item x) = true) :
    TimersWf (m.stopped x) :=
  (h.erase x).deactivate hlive fun _ _ => h.not_mem_erase x

theorem setTime (h : TimersWf m) (hlive : m.timerList.live (.item x) = true) (tick : Tick) :
    TimersWf (m.rtTimerControl x (.setTime tick)) :=
  h.setTimer hlive rfl (fun _ _ => Iff.rfl)
    fun t ht hmem => by subst ht; exact h.activated t hmem

/-- Program timers may be written to freely, initialised or not. -/
theorem setUser {u : υ} (h : TimersWf m) (hfunc : r.timeoutFunc = (m.timer (.inr u)).timeoutFunc) :
    TimersWf (m.setTimer (.inr u) r) where
  valid := h.valid
  head_live := h.head_live
  ok y hy := by
    by_cases hyu : y = .inr u
    · subst hyu
      have hok : (m.timer (.inr u)).timeoutFunc = some .user := h.ok _ hy
      simpa [TimerOk] using hfunc.trans hok
    · simpa [hyu] using h.ok y hy
  activated t ht := by simpa using h.activated t ht

theorem control {u : υ} (h : TimersWf m) (cmd : TimerCtrl) :
    TimersWf (m.rtTimerControl (.inr u) cmd) :=
  h.setUser (by cases cmd <;> rfl)

theorem start (h : TimersWf m) (hstart : Abs.timerStart m x = some m') :
    TimersWf m' ∧ (∀ y, y ∈ m'.queue ↔ y = x ∨ y ∈ m.queue) ∧
      m'.timerList.live = m.timerList.live := by
  obtain ⟨xs, ys, hm⟩ := Abs.timerStart_started h.valid hstart
  have hok : TimerOk x ((m.timer x).started m.rtTick) := by
    have hok := h.ok x hm.initialised
    cases x with
    | inl t => exact ⟨hok.1, fun hp => hok.2 ((RtTimer.started_periodic _ _).mp hp)⟩
    | inr u => exact hok
  refine ⟨h.update hm.valid_after ?_ hm.timer (fun y _ hy => ?_) (fun y hy hyx => ?_) hok
    fun _ _ _ => RtTimer.started_activated _ _, fun y => hm.mem_queue, hm.live⟩
  · rw [hm.live]; exact h.head_live
  · rwa [hm.live] at hy
  · exact (hm.mem_queue.mp hy).resolve_left hyx

theorem initThread {t : τ} (h : TimersWf m) (hfree : .inl t ∉ m.queue) :
    TimersWf (Abs.timerInit m (.inl t) (some (.rtThreadTimeout t)) 0 RT_TIMER_FLAG_ONE_SHOT) := by
  refine h.update (h.valid.mark _) ?_ rfl (fun y hy hlive => ?_) (fun _ hy _ => hy) ⟨rfl, ?_⟩
    fun _ _ hmem => absurd hmem hfree
  · simpa [Abs.timerInit, Rings.mark] using h.head_live
  · simpa [Abs.timerInit, Rings.mark, hy] using hlive
  · simp [RtTimer.periodic, RT_TIMER_FLAG_ONE_SHOT, RT_TIMER_FLAG_PERIODIC,
      RT_TIMER_FLAG_ACTIVATED]

theorem initUser {u : υ} (h : TimersWf m) (time : Tick) (flag : BitVec 8) :
    TimersWf (Abs.timerInit m (.inr u) (some .user) time flag) := by
  refine h.update (h.valid.mark _) ?_ rfl (fun y hy hlive => ?_) (fun _ hy _ => hy) rfl
    fun t ht _ => by cases ht
  · simpa [Abs.timerInit, Rings.mark] using h.head_live
  · simpa [Abs.timerInit, Rings.mark, hy] using hlive

end TimersWf

/-! ## The kernel -/

namespace KernelWf
variable {a a' : SeqKernel τ σ υ} {t : τ} {s : σ}

section
omit [DecidableEq τ] [DecidableEq σ] [DecidableEq υ]

theorem of_env (h : KernelWf a) {e : SchedSys τ σ (ThreadRings τ σ)} (hwf : SchedWf e)
    (hact : ∀ u, (a.env.thread u).Active → (e.thread u).Active)
    (hlive : ∀ n, a.env.list.live n = true → e.list.live n = true) :
    KernelWf { a with env := e } :=
  ⟨hwf, h.timers, fun u hu => hact u (h.linked u hu), fun u hu => hlive _ (h.node_live u hu)⟩

/-- The timers change, and none is newly linked or initialised. -/
theorem of_timers (h : KernelWf a) {m : SeqTimers τ υ} (hwf : TimersWf m)
    (hqueue : ∀ t, .inl t ∈ m.queue → .inl t ∈ a.timers.queue)
    (hlive : m.timerList.live = a.timers.timerList.live) : KernelWf { a with timers := m } :=
  ⟨h.sched, hwf, fun u hu => h.linked u (hqueue u hu), fun u hu => h.node_live u (hlive ▸ hu)⟩

theorem of_waking (h : KernelWf a) {e : SchedSys τ σ (ThreadRings τ σ)} (hwake : Waking a.env e) :
    KernelWf { a with env := e } :=
  h.of_env hwake.wf hwake.active fun n hn => by rw [hwake.live]; exact hn

/-- An operation of the scheduling part that wakes keeps the kernel invariant. -/
theorem onSched (h : KernelWf a)
    {f : SchedSys τ σ (ThreadRings τ σ) → Option (SchedSys τ σ (ThreadRings τ σ))}
    (hf : ∀ e, f a.env = some e → Waking a.env e) (hrun : a.onSched f = some a') :
    KernelWf a' := by
  obtain ⟨he, htimers⟩ := onSched_spec hrun
  have h' := h.of_waking (hf _ he)
  rw [← htimers] at h'
  exact h'

/-- A thread that is not in use has no linked timer. -/
theorem timer_free (h : KernelWf a)
    (hst : (a.env.thread t).stat = .init ∨ (a.env.thread t).stat = .close) :
    .inl t ∉ a.timers.queue := by
  intro hmem
  rcases h.linked t hmem with hact | hact <;> simp [hact] at hst

end

theorem threadInit (h : KernelWf a) {priority : Nat} {tick : BitVec 32}
    (hst : (a.env.thread t).stat = .init ∨ (a.env.thread t).stat = .close)
    (hprio : priority < RT_THREAD_PRIORITY_MAX) :
    KernelWf (Abs.threadInit a t priority tick) where
  sched := by
    have hmark := h.sched.mark (n := .item t) (by simp) (by simp)
    exact hmark.reset hst (by simp) (by simp) hprio rfl (.inr ⟨rfl, .inl rfl⟩)
  timers := h.timers.initThread (h.timer_free hst)
  linked u hu := by
    have hut : u ≠ t := by
      rintro rfl; exact h.timer_free hst hu
    simpa [Abs.threadInit, SchedSys.setThread, hut] using h.linked u hu
  node_live u hu := by
    by_cases hut : u = t
    · subst hut; simp [Abs.threadInit, SchedSys.setThread, Rings.mark]
    · have hu' : a.timers.timerList.live (.item (.inl u)) = true := by
        simpa [Abs.threadInit, Abs.timerInit, Rings.mark, hut] using hu
      simpa [Abs.threadInit, SchedSys.setThread, Rings.mark, hut] using h.node_live u hu'

section
omit [DecidableEq σ]

theorem startUser (h : KernelWf a) {u : υ}
    (hrun : a.onTimers (fun m => Abs.timerStart m (.inr u)) = some a') : KernelWf a' := by
  obtain ⟨hstart, henv⟩ := onTimers_spec hrun
  obtain ⟨hwf, hqueue, hlive⟩ := h.timers.start hstart
  have h' := h.of_timers hwf (fun t ht => by simpa using (hqueue _).mp ht) hlive
  rw [← henv] at h'
  exact h'

theorem startThread (h : KernelWf a) {tick : Tick} (hact : (a.env.thread t).Active)
    (hrun : Abs.threadTimerStart a t tick = some a') :
    KernelWf a' ∧ a'.env = a.env := by
  obtain ⟨henv, hstart⟩ := threadTimerStart_spec hrun
  obtain ⟨hlive, -⟩ := Abs.timerStart_spec hstart
  obtain ⟨hwf, hqueue, hlive'⟩ := (h.timers.setTime hlive tick).start hstart
  refine ⟨⟨henv ▸ h.sched, hwf, fun u hu => ?_, fun u hu => ?_⟩, henv⟩
  · rw [henv]
    rcases (hqueue _).mp hu with heq | hmem
    · cases heq; exact hact
    · exact h.linked u hmem
  · rw [henv]
    exact h.node_live u (hlive' ▸ hu)

theorem eraseTimer (h : KernelWf a) (x : τ ⊕ υ) :
    KernelWf { a with timers := { a.timers with timerList := a.timers.timerList.erase x } } :=
  h.of_timers (h.timers.erase x) (fun _ => Rings.mem_of_mem_erase) rfl

theorem stopTimer (h : KernelWf a) {x : τ ⊕ υ} (hlive : a.timers.timerList.live (.item x) = true) :
    KernelWf { a with timers := a.timers.stopped x } :=
  h.of_timers (h.timers.stopped hlive) (fun _ => Rings.mem_of_mem_erase) rfl

theorem deactivateTimer (h : KernelWf a) {x : τ ⊕ υ}
    (hlive : a.timers.timerList.live (.item x) = true) (hx : ∀ t, x = .inl t → x ∉ a.timers.queue) :
    KernelWf { a with timers := a.timers.deactivate x } :=
  h.of_timers (h.timers.deactivate hlive hx) (fun _ => id) rfl

/-- Suspension leaves the thread suspended and on no list. -/
theorem threadSuspend (h : KernelWf a) {e : Int} (hrun : Abs.threadSuspend a t = some (e, a')) :
    KernelWf a' ∧ (∀ u, u ≠ t → a'.env.thread u = a.env.thread u) ∧
      ((a.env.thread t).stat = .ready →
        a'.env.thread t = (a.env.thread t).suspended ∧ a'.env.list.Free t) := by
  rcases threadSuspend_spec h.sched hrun with ⟨hst, -, rfl⟩ | ⟨hst, -, henv, htimers⟩
  · exact ⟨h, fun _ _ => rfl, fun hr => absurd hr hst⟩
  · have hwf : SchedWf a'.env := henv ▸ suspend_wf h.sched hst
    have hactive : ∀ u, (a.env.thread u).Active → (a'.env.thread u).Active := by
      intro u hu
      rw [henv]
      by_cases hut : u = t
      · subst hut; simp [RtThread.Active, RtThread.suspended]
      · simpa [hut] using hu
    have henv' : KernelWf { a with env := a'.env } :=
      h.of_env hwf hactive fun n hn => by rw [henv]; exact hn
    refine ⟨?_, fun u hu => by simp [henv, hu], fun _ => ⟨by simp [henv], ?_⟩⟩
    · rcases htimers with ⟨-, htimers⟩ | ⟨-, hlive, htimers⟩
      · rw [← htimers] at henv'
        exact henv'
      · have h' := henv'.stopTimer hlive
        rw [← htimers] at h'
        exact h'
    · rw [henv]
      exact h.sched.valid.erase_free t

end

theorem threadDetach (h : KernelWf a) (hrun : Abs.threadDetach a t = some a') : KernelWf a' := by
  obtain ⟨htimers, hlive, henv⟩ := threadDetach_spec h.sched hrun
  have hqueue : ∀ u, .inl u ∈ a'.timers.queue → u ≠ t ∧ .inl u ∈ a.timers.queue := by
    intro u hu
    rw [htimers] at hu
    refine ⟨?_, Rings.mem_of_mem_erase hu⟩
    rintro rfl
    exact h.timers.not_mem_erase _ hu
  have hother : ∀ u, u ≠ t → a'.env.thread u = a.env.thread u := by
    intro u hu
    rcases henv with ⟨-, henv⟩ | ⟨-, henv⟩ <;> simp [henv, hu]
  refine ⟨?_, htimers ▸ h.timers.erase _, fun u hu => ?_, fun u hu => ?_⟩
  · rcases henv with ⟨hst, henv⟩ | ⟨hst, henv⟩ <;> rw [henv]
    · exact h.sched.reset (.inl hst) (by simp [RtThread.closed])
        (fun _ => h.node_live t hlive) (h.sched.prio_lt t) (h.sched.init_prio t)
        (h.sched.closed_mask t)
    · exact detach_wf h.sched hst
  · obtain ⟨hut, hmem⟩ := hqueue u hu
    rw [hother u hut]
    exact h.linked u hmem
  · have hu' := h.node_live u (by rw [htimers] at hu; exact hu)
    rcases henv with ⟨-, henv⟩ | ⟨-, henv⟩ <;> rw [henv] <;> exact hu'

section
omit [DecidableEq σ]

/-- Before it waits, the current thread is suspended and on no list. -/
theorem suspendCurrent (h : KernelWf a) {e : Int}
    (hmay : (a.env.thread t).stat = .ready ∨
      (a.env.thread t).stat = .suspend ∧ a.env.list.Free t)
    (hrun : Abs.threadSuspend a t = some (e, a')) :
    KernelWf a' ∧ (a'.env.thread t).stat = .suspend ∧ a'.env.list.Free t := by
  obtain ⟨hwf, -, hready⟩ := h.threadSuspend hrun
  rcases hmay with hst | ⟨hst, hfree⟩
  · obtain ⟨hself, hfree⟩ := hready hst
    exact ⟨hwf, by rw [hself]; rfl, hfree⟩
  · rcases threadSuspend_spec h.sched hrun with ⟨-, -, rfl⟩ | ⟨hst', -⟩
    · exact ⟨h, hst, hfree⟩
    · simp [hst] at hst'

theorem threadSleep (h : KernelWf a) {tick : Tick} (hmay : Abs.MayBlock a)
    (hrun : Abs.threadSleep a tick = some a') : KernelWf a' := by
  obtain ⟨t, e, a₁, a₂, hcur, hsusp, htimer, hsched⟩ := threadSleep_spec hrun
  obtain ⟨t', hcur', hmay⟩ := hmay
  obtain rfl : t = t' := Option.some.inj (hcur.symm.trans hcur')
  obtain ⟨h₁, hst₁, -⟩ := h.suspendCurrent hmay hsusp
  obtain ⟨h₂, -⟩ := h₁.startThread (.inr hst₁) htimer
  exact h₂.onSched (fun _ hs => Waking.schedule h₂.sched hs) hsched

end

section
omit [DecidableEq σ] [DecidableEq υ]

theorem setError (h : KernelWf a) (t : τ) (e : Int) :
    KernelWf { a with env := a.env.setError t e } :=
  h.of_waking (Waking.setThread h.sched rfl rfl rfl rfl)

end

section
omit [DecidableEq σ]

/-- A started thread is still started when it has been suspended. -/
theorem suspend_active (h : KernelWf a) {e : Int} (hact : (a.env.thread t).Active)
    (hrun : Abs.threadSuspend a t = some (e, a')) : (a'.env.thread t).Active := by
  obtain ⟨-, -, hready⟩ := h.threadSuspend hrun
  rcases hact with hst | hst
  · rw [(hready hst).1]
    exact .inr rfl
  · rcases threadSuspend_spec h.sched hrun with ⟨-, -, rfl⟩ | ⟨hst', -⟩
    · exact .inr hst
    · simp [hst] at hst'

end

/-- A started thread waits: all depends on what putting it on the waiting list does. -/
theorem takeWait_of_insert (h : KernelWf a) {time : BitVec 32} (hact : (a.env.thread t).Active)
    (hins : ∀ {e a₁ e₂}, Abs.threadSuspend { a with env := a.env.setError t RT_EOK } t =
      some (e, a₁) → Abs.ipcInsert a₁.env s t = some e₂ →
      SchedWf e₂ ∧ e₂.thread = a₁.env.thread ∧ e₂.list.live = a₁.env.list.live)
    (hrun : Abs.takeWait a s t time = some a') : KernelWf a' := by
  obtain ⟨e, a₁, a₂, a₃, hsusp, hinsert, htimer, hsched⟩ := takeWait_spec hrun
  have h₀ := h.setError t RT_EOK
  obtain ⟨h₁, -, -⟩ := h₀.threadSuspend hsusp
  have hact₁ : (a₁.env.thread t).Active :=
    h₀.suspend_active (by simpa [SchedSys.setError, RtThread.Active] using hact) hsusp
  obtain ⟨hinsert, htimers⟩ := onSched_spec hinsert
  obtain ⟨hwf₂, hthread₂, hlive₂⟩ := hins hsusp hinsert
  have h₂ : KernelWf a₂ := by
    have h' := h₁.of_env hwf₂ (fun u hu => by rwa [hthread₂]) fun n hn => by rwa [hlive₂]
    rw [← htimers] at h'
    exact h'
  have h₃ : KernelWf a₃ := by
    rcases htimer with ⟨-, htimer⟩ | ⟨-, rfl⟩
    · exact (h₂.startThread (by rw [hthread₂]; exact hact₁) htimer).1
    · exact h₂
  exact h₃.onSched (fun _ hs => Waking.schedule h₃.sched hs) hsched

theorem takeWait (h : KernelWf a) {time : BitVec 32}
    (hmay : (a.env.thread t).stat = .ready ∨
      (a.env.thread t).stat = .suspend ∧ a.env.list.Free t)
    (hrun : Abs.takeWait a s t time = some a') : KernelWf a' := by
  refine h.takeWait_of_insert (hmay.imp_right And.left) (fun hsusp hins => ?_) hrun
  obtain ⟨h₁, hst₁, hfree₁⟩ := (h.setError t RT_EOK).suspendCurrent
    (by simp only [SchedSys.setError, SchedSys.setThread_thread, Function.update_self]; exact hmay)
    hsusp
  exact ipcInsert_wf h₁.sched hfree₁ hst₁ hins

theorem semTake (h : KernelWf a) {time : BitVec 32} {o : TakeOutcome τ}
    (hmay : TakeBlocks a s time → Abs.MayBlock a)
    (hrun : Abs.semTake a s time = some (o, a')) : KernelWf a' := by
  rcases semTake_spec hrun with ⟨-, -, rfl⟩ | ⟨-, -, -, rfl⟩ | ⟨hblocks, t, hcur, -, hwait⟩
  · exact h.of_env (h.sched.congr rfl rfl rfl) (fun _ => id) fun _ => id
  · exact h
  · obtain ⟨t', hcur', hmay⟩ := hmay hblocks
    obtain rfl : t = t' := Option.some.inj (hcur.symm.trans hcur')
    exact h.takeWait hmay hwait

section
omit [DecidableEq σ]

theorem stopUser (h : KernelWf a) {u : υ}
    (hrun : a.onTimers (fun m => (Abs.timerStop m (.inr u)).map Prod.snd) = some a') :
    KernelWf a' := by
  obtain ⟨hstop, henv⟩ := onTimers_spec hrun
  obtain ⟨_, hstop⟩ := returned_of_map hstop
  have h' : KernelWf { a with timers := a'.timers } := by
    rcases Abs.timerStop_spec hstop with ⟨-, hm⟩ | ⟨-, hlive, hm⟩
    · rw [hm]; exact h
    · rw [hm]; exact h.stopTimer hlive
  rw [← henv] at h'
  exact h'

end

/-- Every call keeps the invariant. -/
theorem execCall [Fintype τ] (h : KernelWf a) {c : Call τ σ υ} (hc : Abs.CallAllowed a c)
    (hrun : Abs.execCall a c = some a') : KernelWf a' := by
  unfold Abs.execCall at hrun
  cases c with
  | threadInit t priority tick => cases hrun; exact h.threadInit hc.1 hc.2
  | threadStartup t => exact h.onSched (fun _ => Waking.startup h.sched) hrun
  | threadResume t =>
    refine h.onSched (fun e he => ?_) hrun
    obtain ⟨_, hr⟩ := returned_of_map he
    exact Waking.resume h.sched hr
  | threadSuspend t =>
    obtain ⟨_, hr⟩ := returned_of_map hrun
    exact (h.threadSuspend hr).1
  | threadYield => exact h.onSched (fun _ => Waking.yield h.sched) hrun
  | threadDetach t => exact h.threadDetach hrun
  | semInit s value flag =>
    cases hrun
    have hmark := h.sched.mark (n := .head (.suspend s)) (by simp) (by simp)
    exact h.of_env (hmark.congr rfl rfl rfl) (fun _ => id) fun _ hn => Rings.mark_live_mono hn
  | semTrytake s =>
    obtain ⟨_, hr⟩ := returned_of_map hrun
    exact h.semTake (fun hb => absurd rfl hb.2) hr
  | semRelease s => exact h.onSched (fun _ => Waking.semRelease h.sched) hrun
  | semControl s cmd arg =>
    refine h.onSched (fun e he => ?_) hrun
    obtain ⟨_, hr⟩ := returned_of_map he
    exact Waking.semControl h.sched hr
  | semDetach s => exact h.onSched (fun _ => Waking.semDetach h.sched) hrun
  | enterCritical => cases hrun; exact h.of_waking (Waking.enterCritical h.sched)
  | exitCritical => exact h.onSched (fun _ => Waking.exitCritical h.sched) hrun
  | schedule => exact h.onSched (fun _ => Waking.schedule h.sched) hrun
  | timerInit u time flag =>
    cases hrun
    refine ⟨h.sched, h.timers.initUser time flag, h.linked, fun t ht => h.node_live t ?_⟩
    simpa [Abs.timerInit, Rings.mark] using ht
  | timerStart u => exact h.startUser hrun
  | timerStop u => exact h.stopUser hrun
  | timerControl u cmd => cases hrun; exact h.of_timers (h.timers.control cmd) (fun _ => id) rfl
  | timerDetach u =>
    obtain ⟨hrem, henv⟩ := onTimers_spec hrun
    obtain ⟨-, hm⟩ := Abs.timerRemove_eq_some hrem
    have h' := h.eraseTimer (.inr u)
    rw [← hm, ← henv] at h'
    exact h'

theorem runCalls [Fintype τ] (cs : List (Call τ σ υ)) :
    ∀ {a a' : SeqKernel τ σ υ}, KernelWf a → Abs.runCalls cs a = some a' → KernelWf a' := by
  induction cs with
  | nil => intro a a' h hrun; cases hrun; exact h
  | cons c cs ih =>
    intro a a' h hrun
    obtain ⟨a₁, hc, hrest⟩ := Option.bind_eq_some_iff.mp hrun
    split at hc
    · rename_i hallowed
      exact ih (h.execCall hallowed hc) hrest
    · cases hc

/-! ## The tick -/

/-- Every firing keeps the invariant. -/
theorem fire [Fintype τ] (h : KernelWf a) {x : τ ⊕ υ} {c : List (Call τ σ υ)}
    (hx : a.timers.queue.head? = some x) (hrun : Abs.timerFire Abs.callback c x a = some a') :
    KernelWf a' := by
  have hmem : x ∈ a.timers.queue := List.mem_of_mem_head? hx
  obtain ⟨hlive, f, a₁, hf, hcall, hend⟩ := Abs.timerFire_spec hrun
  have h₀ : KernelWf (a.unlinked x) := h.eraseTimer x
  have hok := h.timers.ok x hlive
  cases x with
  | inl t =>
    obtain rfl : f = .rtThreadTimeout t := Option.some.inj (hf.symm.trans hok.1)
    have hcall : (a.unlinked (.inl t)).onSched (fun e => Abs.timeout e t) = some a₁ := hcall
    have h₁ : KernelWf a₁ := h₀.onSched (fun _ => Waking.timeout h₀.sched (h.linked t hmem)) hcall
    have htimers : a₁.timers = (a.unlinked (.inl t)).timers := (onSched_spec hcall).2
    rcases hend with ⟨hper, -⟩ | ⟨-, rfl⟩
    · rw [htimers] at hper
      exact absurd hper hok.2
    · refine h₁.deactivateTimer (by rw [htimers]; exact hlive) fun _ _ => ?_
      rw [htimers]
      exact h.timers.not_mem_erase _
  | inr u =>
    obtain rfl : f = .user := Option.some.inj (hf.symm.trans hok)
    have h₁ : KernelWf a₁ := h₀.runCalls c hcall
    have h₂ : KernelWf { a₁ with timers := a₁.timers.deactivate (.inr u) } :=
      h₁.of_timers (h₁.timers.setUser rfl) (fun _ => id) rfl
    rcases hend with ⟨-, -, hstart, henv⟩ | ⟨-, rfl⟩
    · obtain ⟨hwf, hqueue, hlive'⟩ := h₂.timers.start hstart
      have h₃ := h₂.of_timers hwf (fun t ht => by simpa using (hqueue _).mp ht) hlive'
      rw [← henv] at h₃
      exact h₃
    · exact h₂

theorem check [Fintype τ] (h : KernelWf a) {script : List (List (Call τ σ υ))}
    (hrun : Abs.timerCheck Abs.callback script a = some a') : KernelWf a' :=
  (Abs.timerCheck_invariant KernelWf script (fun _ _ _ _ _ h hx _ => h.fire hx) h hrun).1

section
omit [DecidableEq υ]

theorem tickStart (h : KernelWf a) (hrun : Abs.tickStart a = some a') : KernelWf a' := by
  have h₁ : KernelWf { a with timers := { a.timers with rtTick := a.timers.rtTick + 1 } } :=
    h.of_timers ⟨h.timers.valid, h.timers.head_live, h.timers.ok, h.timers.activated⟩
      (fun _ => id) rfl
  exact h₁.onSched (fun _ => Waking.tickSlice h₁.sched) hrun

end

theorem tick [Fintype τ] (h : KernelWf a) {script : List (List (Call τ σ υ))}
    (hrun : Abs.tick script a = some a') : KernelWf a' := by
  obtain ⟨a₁, hstart, hcheck⟩ := Option.bind_eq_some_iff.mp hrun
  exact (h.tickStart hstart).check hcheck

/-- **Every operation of the kernel keeps the invariant.** -/
theorem exec [Fintype τ] (h : KernelWf a) {op : Op τ σ υ} (hop : Abs.Allowed a op)
    (hrun : Abs.exec a op = some a') : KernelWf a' := by
  unfold Abs.exec at hrun
  cases op with
  | call c => exact h.execCall hop hrun
  | threadSleep tick => exact h.threadSleep hop hrun
  | semTake s time =>
    obtain ⟨_, hr⟩ := returned_of_map hrun
    exact h.semTake hop hr
  | tickIncrease script => exact h.tick hrun
  | schedulerStart => exact h.onSched (fun _ => Waking.schedStart h.sched) hrun

end KernelWf

/-! ## Initialisation -/

namespace Abs

/-- `systemInit` on sequences: nothing is listed, only the heads are initialised. -/
def systemInit : SeqKernel τ σ υ where
  timers :=
    let m : SeqTimers τ υ := zeroTimers { seq := fun _ => [], live := fun _ => false }
    { m with timerList := m.timerList.mark timerHead }
  env := schedInit (zeroSched { seq := fun _ => [], live := fun _ => false })

def boot (idle : τ) : Option (SeqKernel τ σ υ) :=
  (threadInit systemInit idle (RT_THREAD_PRIORITY_MAX - 1) 1).onSched fun e => startup e idle

end Abs

/-- The nodes initialised by a series of initialisations. -/
theorem foldl_mark_live {H α : Type} [DecidableEq H] [DecidableEq α] (ns : List (Node H α)) :
    ∀ (r : Rings H α) (n : Node H α),
      (ns.foldl Rings.mark r).live n = (decide (n ∈ ns) || r.live n) := by
  induction ns with
  | nil => intro r n; simp
  | cons m ns ih =>
    intro r n
    rw [List.foldl_cons, ih, Rings.mark]
    by_cases hnm : n = m
    · simp [hnm]
    · simp [hnm]

theorem foldl_mark_seq {H α : Type} [DecidableEq H] [DecidableEq α] (ns : List (Node H α)) :
    ∀ r : Rings H α, (ns.foldl Rings.mark r).seq = r.seq := by
  induction ns with
  | nil => exact fun _ => rfl
  | cons m ns ih => exact fun r => ih (r.mark m)

theorem systemInit_list : (Abs.systemInit : SeqKernel τ σ υ).env.list =
    ((List.range RT_THREAD_PRIORITY_MAX).map fun p => .head (.ready p)).foldl Rings.mark
      { seq := fun _ => [], live := fun _ => false } := by
  rw [List.foldl_map]
  rfl

theorem systemInit_seq (hd : ThreadHead σ) :
    (Abs.systemInit : SeqKernel τ σ υ).env.list.seq hd = [] := by
  rw [systemInit_list, foldl_mark_seq]

theorem systemInit_wf : KernelWf (Abs.systemInit : SeqKernel τ σ υ) := by
  have hlist := systemInit_list (τ := τ) (σ := σ) (υ := υ)
  have hseq := systemInit_seq (τ := τ) (σ := σ) (υ := υ)
  have hready : ∀ p, (Abs.systemInit : SeqKernel τ σ υ).env.readyList p = [] := fun p => hseq _
  have hstat : ∀ t, ((Abs.systemInit : SeqKernel τ σ υ).env.thread t).stat = .init := fun _ => rfl
  refine ⟨?_, ?_, ?_, ?_⟩
  · constructor
    · exact ⟨by simp [hseq], by simp [hseq], by simp [hseq], by simp [hseq]⟩
    · intro p; rw [hlist, foldl_mark_live]; simp
    · rw [hlist, foldl_mark_live]; simp
    · intro t p; simp [hready, hstat]
    · intro t s ht; simp [SchedSys.waiters, hseq] at ht
    · exact fun _ => rfl
    · exact fun _ => show 0 < 32 by decide
    · exact fun _ => .inr ⟨rfl, .inl rfl⟩
    · intro p _
      rw [hready]
      exact iff_of_false (by simp [Abs.systemInit, Abs.schedInit]) (by simp)
    · intro t ht; exact absurd (hstat t) ht
  · have hdead : ∀ x, (Abs.systemInit : SeqKernel τ σ υ).timers.timerList.live (.item x) = false :=
      fun x => by simp [Abs.systemInit, Rings.mark, zeroTimers]
    refine ⟨?_, ?_, ?_, ?_⟩
    · constructor <;> simp [Abs.systemInit, zeroTimers]
    · simp [Abs.systemInit, Rings.mark]
    · intro x hx; rw [hdead] at hx; cases hx
    · intro t ht; simp [Abs.systemInit, zeroTimers, TimerSys.queue] at ht
  · intro t ht
    simp [Abs.systemInit, zeroTimers, TimerSys.queue] at ht
  · intro t ht
    simp [Abs.systemInit, zeroTimers, Rings.mark] at ht

theorem boot_wf {idle : τ} {a : SeqKernel τ σ υ} (h : Abs.boot idle = some a) : KernelWf a := by
  have h₀ : KernelWf (Abs.systemInit : SeqKernel τ σ υ) := systemInit_wf
  have h₁ : KernelWf
      (Abs.threadInit (Abs.systemInit : SeqKernel τ σ υ) idle (RT_THREAD_PRIORITY_MAX - 1) 1) :=
    h₀.threadInit (.inl rfl) (by decide)
  exact h₁.onSched (fun _ => Waking.startup h₁.sched) h

theorem threadInit_waiters (a : SeqKernel τ σ υ) (t : τ) (priority : Nat) (tick : BitVec 32) :
    (Abs.threadInit a t priority tick).env.waiters = a.env.waiters := rfl

/-- The state after initialisation: nobody waits, no timer is linked, only the idle
thread is started and nothing has been dispatched. -/
structure Booted (idle : τ) (a : SeqKernel τ σ υ) : Prop where
  thread : a.env.thread = Function.update (Abs.systemInit : SeqKernel τ σ υ).env.thread idle
    ((Abs.threadInit (Abs.systemInit : SeqKernel τ σ υ) idle
      (RT_THREAD_PRIORITY_MAX - 1) 1).env.thread idle).started
  sem : a.env.sem = (Abs.systemInit : SeqKernel τ σ υ).env.sem
  waiters : ∀ s, a.env.waiters s = []
  current : a.env.rtCurrentThread = none
  lockNest : a.env.rtSchedulerLockNest = 0
  queue : a.timers.queue = []

theorem boot_spec {idle : τ} {a : SeqKernel τ σ υ} (h : Abs.boot idle = some a) :
    Booted idle a := by
  obtain ⟨hrun, htimers⟩ := onSched_spec h
  obtain ⟨-, ⟨-, henv⟩ | ⟨hcur, -⟩⟩ := startup_spec hrun
  · refine ⟨?_, by rw [henv]; rfl, fun s => ?_, by rw [henv]; rfl, by rw [henv]; rfl, ?_⟩
    · rw [henv]
      simp [Abs.threadInit]
    · rw [henv, SchedSys.relistReady_waiters, threadInit_waiters, SchedSys.waiters, systemInit_seq]
      rfl
    · rw [htimers]
      simp [Abs.threadInit, Abs.timerInit, Abs.systemInit, zeroTimers, TimerSys.queue]
  · exact absurd rfl hcur

end Wf

end SampleRtos
