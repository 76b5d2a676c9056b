import SampleRtos.Kernel.Pieces
import SampleRtos.Kernel.Deadlines

/-!
# What a piece does

Seen from the sequences, a piece that finds what it relies on tests, or amounts to a call of its
own, or does one of a few things that are no call: it takes a thread that is not ready off its
list, gives a thread on no list another record, fails the first waiter of a semaphore, takes the
timer of a thread off the list or sets a timer of the program. Each keeps the kernel in order.
-/

namespace SampleRtos

open Intrusive

section PieceEffect
variable {τ σ υ : Type} [DecidableEq τ] [DecidableEq σ] [DecidableEq υ]
  {k k' : RtKernel τ σ υ} {a a' : SeqKernel τ σ υ} {m m' : SeqTimers τ υ} {t : τ} {s : σ} {u : υ}
  {p : Piece τ σ υ} {n : Piece τ σ υ ⊕ Rest τ}

/-- The thread `t` off its list, and the bitmap `g`. -/
def SchedSys.offList (e : SchedSys τ σ (ThreadRings τ σ)) (t : τ) (g : BitVec 32) :
    SchedSys τ σ (ThreadRings τ σ) :=
  { e with list := e.list.erase t, rtThreadReadyPriorityGroup := g }

/-- The second section of `rt_timer_start`, on sequences. -/
def Abs.timerLink (m : SeqTimers τ υ) (x : τ ⊕ υ) : Option (SeqTimers τ υ) := do
  let l ← insertOrdered (fun x y => (m.timer x).precedes (m.timer y)) m.timerList .rtTimerList x
  let m := { m with randomNr := m.randomNr + 1, timerList := l }
  return m.setTimer x (m.timer x).activate

/-- What a piece of `rt_timer_start` or `rt_timer_stop` does to the timers. -/
inductive TimerEffect (u : υ) (m : SeqTimers τ υ) : TimerPoint → SeqTimers τ υ → Prop where
  | nothing {p : TimerPoint} : TimerEffect u m p m
  | erased {p : TimerPoint} : TimerEffect u m p { m with timerList := m.timerList.erase (.inr u) }
  | stopped {p : TimerPoint} (hlive : m.timerList.live (.item (.inr u)) = true) :
      TimerEffect u m p (m.stopped (.inr u))
  /-- The deadline or the flags of a timer off the list are written. -/
  | written {p : TimerPoint} {r : RtTimer (TimerCallback τ)} (hfree : .inr u ∉ m.queue)
      (hfunc : r.timeoutFunc = (m.timer (.inr u)).timeoutFunc)
      (hinit : r.initTick = (m.timer (.inr u)).initTick)
      (hact : r.activated → (m.timer (.inr u)).activated) :
      TimerEffect u m p (m.setTimer (.inr u) r)
  | linked {m' : SeqTimers τ υ} (hlive : m.timerList.live (.item (.inr u)) = true)
      (hfree : m.timerList.Free (.inr u)) (hlink : Abs.timerLink m (.inr u) = some m') :
      TimerEffect u m .startArmed m'

/-- What a piece does, given the next one or what is left when there is none. -/
inductive PieceEffect (a : SeqKernel τ σ υ) [Fintype τ] :
    Piece τ σ υ → Piece τ σ υ ⊕ Rest τ → SeqKernel τ σ υ → Prop where
  /-- It tests. -/
  | nothing {p : Piece τ σ υ} {n : Piece τ σ υ ⊕ Rest τ}
      (hnext : ∀ t, p.Hides t → (a.env.thread t).stat = .suspend →
        ∃ q, n = .inl q ∧ q.Hides t) : PieceEffect a p n a
  /-- A suspended thread on no list becomes ready. -/
  | resumes {t : τ} {b : Bool}
      (hwake : Waking a.env (a.env.relistReady t { a.env.thread t with stat := .ready })) :
      PieceEffect a (.resume t .unlinked b) (.inr (resumed b RT_EOK))
        { a with env := a.env.relistReady t { a.env.thread t with stat := .ready } }
  | suspends {t : τ} {a' : SeqKernel τ σ υ} (hrun : Abs.execCall a (.threadSuspend t) = some a') :
      PieceEffect a (.suspend t true) (.inr (.returned RT_EOK)) a'
  | timerDetached {u : υ} {n : Piece τ σ υ ⊕ Rest τ} :
      PieceEffect a (.timerDetach u) n
        { a with timers := { a.timers with timerList := a.timers.timerList.erase (.inr u) } }
  /-- A thread that is not ready goes off its list. -/
  | unlinks {p q : Piece τ σ υ} {t : τ} {g : BitVec 32} (hp : p.target = some t)
      (hq : q.Hides t) (hst : (a.env.thread t).stat ≠ .ready)
      (hwf : SchedWf (a.env.offList t g)) :
      PieceEffect a p (.inl q) { a with env := a.env.offList t g }
  /-- A thread on no list gets another record. -/
  | writes {p q : Piece τ σ υ} {t : τ} {r : RtThread} (hp : p.target = some t)
      (hq : r.stat = .suspend → q.Hides t) (hst : (a.env.thread t).stat ≠ .ready)
      (hr : r.stat ≠ .ready) (hunarmed : .inl t ∉ a.timers.queue)
      (hwf : SchedWf (a.env.setThread t r)) :
      PieceEffect a p (.inl q) { a with env := a.env.setThread t r }
  /-- The first waiter fails. -/
  | fails {s : σ} {t : τ} {ts : List τ} (hwaiters : a.env.waiters s = t :: ts)
      (hwake : Waking a.env (a.env.relistReady t (a.env.thread t).failed)) :
      PieceEffect a (.semDetach s .body) (.inl (.semDetach s .test))
        { a with env := a.env.relistReady t (a.env.thread t).failed }
  /-- The timer of a thread goes off the list. -/
  | disarms {t : τ} (hst : (a.env.thread t).stat ≠ .ready) :
      PieceEffect a (.detach t .removed) (.inl (.detach t .disarmed))
        { a with timers := { a.timers with timerList := a.timers.timerList.erase (.inl t) } }
  | sets {u : υ} {p : TimerPoint} {n : Piece τ σ υ ⊕ Rest τ} {m : SeqTimers τ υ}
      (heff : TimerEffect u a.timers p m) : PieceEffect a (.timer u p) n { a with timers := m }

/-! ## The timers -/

section Timers
variable {x : τ ⊕ υ}

/-- The timer goes between two others and is activated. -/
theorem timerLink_spec (hlive : m.timerList.live (.item x) = true)
    (hlink : Abs.timerLink m x = some m') :
    m.timerList.live timerHead = true ∧ ∃ xs ys, m.queue = xs ++ ys ∧
      m' = { m with
        randomNr := m.randomNr + 1
        timer := Function.update m.timer x (m.timer x).activate
        timerList := m.timerList.setSeq .rtTimerList (xs ++ x :: ys) } ∧
      (∀ y ∈ xs, ¬ (m.timer x).precedes (m.timer y)) ∧
      ∀ y ∈ ys.head?, (m.timer x).precedes (m.timer y) := by
  obtain ⟨l, hins, hret⟩ := Option.bind_eq_some_iff.mp hlink
  obtain ⟨hhead, xs, ys, hcut, hl, hpassed, hreached⟩ := insertOrdered_spec hins
  rw [Rings.mark_of_live hlive] at hl
  subst hl
  cases hret
  exact ⟨hhead, xs, ys, hcut, rfl, hpassed, hreached⟩

theorem timerLink_queue (hlive : m.timerList.live (.item x) = true)
    (hlink : Abs.timerLink m x = some m') (y : τ ⊕ υ) : y ∈ m'.queue ↔ y = x ∨ y ∈ m.queue := by
  obtain ⟨-, xs, ys, hcut, rfl, -, -⟩ := timerLink_spec hlive hlink
  simp only [TimerSys.queue, Rings.setSeq_seq, if_true, List.mem_append, List.mem_cons]
  rw [show m.timerList.seq .rtTimerList = xs ++ ys from hcut, List.mem_append]
  tauto

namespace TimerEffect
variable {q : TimerPoint}

/-- The timers of threads stay as they are. -/
theorem sameTimer (hv : m.timerList.Valid) (heff : TimerEffect u m q m') (t : τ) :
    SameTimer (.inl t) m m' := by
  have hne : (.inl t : τ ⊕ υ) ≠ .inr u := by simp
  cases heff with
  | nothing => exact .refl _ _
  | erased => exact .erase hv hne
  | stopped => exact (SameTimer.erase hv hne).trans (.setTimer hne)
  | written => exact .setTimer hne
  | linked hlive hfree hlink =>
    have hqueue := timerLink_queue hlive hlink (.inl t)
    obtain ⟨-, xs, ys, -, rfl, -, -⟩ := timerLink_spec hlive hlink
    exact ⟨rfl, hqueue.trans (or_iff_right hne), by simp⟩

theorem live (heff : TimerEffect u m q m') : m'.timerList.live = m.timerList.live := by
  cases heff with
  | linked hlive hfree hlink =>
    obtain ⟨-, xs, ys, -, rfl, -, -⟩ := timerLink_spec hlive hlink
    rfl
  | _ => rfl

theorem wf (h : TimersWf m) (heff : TimerEffect u m q m') : TimersWf m' := by
  cases heff with
  | nothing => exact h
  | erased => exact h.erase _
  | stopped hlive => exact h.stopped hlive
  | written hfree hfunc => exact h.setUser hfunc
  | linked hlive hfree hlink =>
    have hqueue := timerLink_queue hlive hlink
    obtain ⟨hhead, xs, ys, hcut, rfl, -, -⟩ := timerLink_spec hlive hlink
    refine h.update (r := (m.timer (.inr u)).activate) (h.valid.insert hcut hfree hlive hhead)
      h.head_live rfl (fun _ _ => id) (fun y hy hyu => ((hqueue y).mp hy).resolve_left hyu) ?_
      fun t ht => by cases ht
    exact h.ok _ hlive

end TimerEffect

end Timers

/-! ## One piece -/

section Effect
variable [Fintype τ] [Fintype υ]

section
omit [DecidableEq υ] [Fintype τ] [Fintype υ]

/-- What inserts a thread on no list makes it ready. -/
theorem insertThread_free (hw : SchedWf a.env) (hlive : a.env.list.live (.item t) = true)
    (hfree : a.env.list.Free t) : Abs.insertThread a.env t =
      some (a.env.relistReady t { a.env.thread t with stat := .ready }) := by
  have herase : a.env.list.erase t = a.env.list := Rings.erase_of_free hfree
  rw [← makeReady_eq hw hlive]
  simp [Abs.makeReady, remove, hlive, herase]

end

theorem resume_effect (hk : KernelRel k a) (hw : KernelWf a) {q : ResumePoint}
    {b : Bool} (hp : (Piece.resume t q b).Apt k)
    (hrun : (Piece.resume t q b).step k = some (n, k')) :
    ∃ a', KernelRel k' a' ∧ PieceEffect a (.resume t q b) n a' := by
  cases q with
  | entry =>
    rw [Piece.step] at hrun
    split at hrun <;> cases hrun
    · refine ⟨a, hk, .nothing fun u hu _ => ⟨_, rfl, ?_⟩⟩
      cases b with
      | false => exact hu.elim
      | true => exact hu
    · rename_i hst
      refine ⟨a, hk, .nothing fun u hu hsusp => ?_⟩
      obtain rfl : t = u := Option.some.inj hu.target
      rw [hk.env.thread] at hst
      exact absurd hsusp hst
  | checked =>
    obtain ⟨k₁, hk₁, hret⟩ := Option.bind_eq_some_iff.mp hrun
    cases hret
    obtain ⟨e, he, hret⟩ := Option.bind_eq_some_iff.mp hk₁
    cases hret
    obtain ⟨l, hl, hret⟩ := Option.bind_eq_some_iff.mp he
    cases hret
    obtain ⟨l', hl', hrep⟩ := Lockstep.exists_of_left (rtListRemove_rep hk.env.rep t) hl
    have hst : (a.env.thread t).stat ≠ .ready := by
      rw [← hk.env.thread, show (k.env.thread t).stat = .suspend from hp]
      simp
    obtain rfl : a.env.list.erase t = l' := by
      unfold remove at hl'
      split at hl'
      · exact Option.some.inj hl'
      · cases hl'
    exact ⟨{ a with env := a.env.offList t a.env.rtThreadReadyPriorityGroup },
      ⟨hk.timers, hk.env.setList hrep⟩, .unlinks rfl rfl hst (hw.sched.drop hst)⟩
  | unlinked =>
    obtain ⟨k₁, hk₁, hret⟩ := Option.bind_eq_some_iff.mp hrun
    cases hret
    obtain ⟨e, he, hret⟩ := Option.bind_eq_some_iff.mp hk₁
    cases hret
    obtain ⟨hst, hoff⟩ := hp
    rw [hk.env.thread] at hst
    obtain ⟨hlive, hfree⟩ := (next_self_iff hk.env.rep t).mp hoff
    obtain ⟨e', he', hrel⟩ :=
      Lockstep.exists_of_left (rtScheduleInsertThread_rel hk.env hfree) he
    rw [insertThread_free hw.sched hlive hfree] at he'
    cases he'
    have hwake : Waking a.env (a.env.relistReady t { a.env.thread t with stat := .ready }) :=
      Waking.wake hw.sched (.inr hst) rfl rfl rfl rfl
    exact ⟨{ a with env := a.env.relistReady t { a.env.thread t with stat := .ready } },
      ⟨hk.timers, hrel⟩, .resumes hwake⟩
  | inserted =>
    cases hrun
    exact ⟨a, hk, .nothing fun u hu _ => hu.elim⟩

section
omit [DecidableEq τ] [DecidableEq σ] [DecidableEq υ] [Fintype τ] [Fintype υ]

/-- The writes of `rt_thread_startup` leave a thread that is not in use as well-formed as it was,
and the last of them leaves it suspended for `rt_thread_resume` to find. -/
theorem startup_write (hw : SchedWf a.env) (q : StartupPoint)
    (hst : (a.env.thread t).stat = .init ∨ (a.env.thread t).stat = .close)
    (hmask : q = .stat →
      (a.env.thread t).numberMask = 1#32 <<< (a.env.thread t).currentPriority) :
    (q.write (a.env.thread t)).initPriority = (a.env.thread t).initPriority ∧
      (q.write (a.env.thread t)).currentPriority = (a.env.thread t).currentPriority ∧
      (q.write (a.env.thread t)).MaskOk ∧ (q.write (a.env.thread t)).stat ≠ .ready ∧
      ((q.write (a.env.thread t)).stat = .suspend → (q.next t : Piece τ σ υ).Hides t) := by
  have hready : (a.env.thread t).stat ≠ .ready := by rcases hst with hst | hst <;> simp [hst]
  have hsusp : (a.env.thread t).stat ≠ .suspend := by rcases hst with hst | hst <;> simp [hst]
  have hinit := hw.init_prio t
  cases q with
  | priority =>
    refine ⟨rfl, hinit, ?_, hready, fun hs => absurd hs hsusp⟩
    simpa [RtThread.MaskOk, StartupPoint.write, hinit] using hw.mask t
  | mask => exact ⟨rfl, rfl, .inl rfl, hready, fun hs => absurd hs hsusp⟩
  | stat => exact ⟨rfl, rfl, .inl (hmask rfl), by simp [StartupPoint.write], fun _ => rfl⟩

end

theorem startup_effect (hk : KernelRel k a) (hw : KernelWf a) {q : StartupPoint}
    (hp : (Piece.startup t q).Apt k) (hrun : (Piece.startup t q).step k = some (n, k')) :
    ∃ a', KernelRel k' a' ∧ PieceEffect a (.startup t q) n a' := by
  cases hrun
  obtain ⟨hst, hoff, hmask⟩ := hp
  obtain ⟨hlive, hfree⟩ := (next_self_iff hk.env.rep t).mp hoff
  rw [hk.env.thread] at hst hmask ⊢
  obtain ⟨hinit, hprio, hok, hready, hhides⟩ := startup_write (υ := υ) hw.sched q hst hmask
  have hwf : SchedWf (a.env.setThread t (q.write (a.env.thread t))) :=
    hw.sched.rewrite hfree hready (fun _ => hlive) (hprio ▸ hw.sched.prio_lt t)
      (by rw [hinit, hprio, hw.sched.init_prio]) hok
  have hold : (a.env.thread t).stat ≠ .ready := by rcases hst with hst | hst <;> simp [hst]
  exact ⟨{ a with env := a.env.setThread t (q.write (a.env.thread t)) },
    ⟨hk.timers, hk.env.setThread t _⟩, .writes rfl hhides hold hready (hw.timer_free hst) hwf⟩

theorem suspend_effect (hk : KernelRel k a) {tested : Bool}
    (hp : (Piece.suspend t tested : Piece τ σ υ).Apt k)
    (hrun : (Piece.suspend t tested).step k = some (n, k')) :
    ∃ a', KernelRel k' a' ∧ PieceEffect a (.suspend t tested) n a' := by
  cases tested with
  | false =>
    rw [Piece.step] at hrun
    split at hrun <;> cases hrun <;> exact ⟨a, hk, .nothing fun u hu _ => hu.elim⟩
  | true =>
    obtain ⟨k₁, hrun, hret⟩ := Option.map_eq_some_iff.mp hrun
    cases hret
    have hsusp : rtThreadSuspend k t = some (RT_EOK, k') := by
      rw [rtThreadSuspend_ready hp, hrun]
      rfl
    obtain ⟨⟨_, a'⟩, ha', -, hk'⟩ := Lockstep.exists_of_left (rtThreadSuspend_rel hk t) hsusp
    exact ⟨a', hk', .suspends (by simp [Abs.execCall, ha'])⟩

theorem detach_effect (hk : KernelRel k a) (hw : KernelWf a) {q : DetachPoint}
    (hp : (Piece.detach t q).Apt k) (hrun : (Piece.detach t q).step k = some (n, k')) :
    ∃ a', KernelRel k' a' ∧ PieceEffect a (.detach t q) n a' := by
  cases q with
  | entry =>
    cases hrun
    exact ⟨a, hk, .nothing fun u hu _ => hu.elim⟩
  | checked =>
    obtain ⟨k₁, hk₁, hret⟩ := Option.map_eq_some_iff.mp hrun
    cases hret
    obtain ⟨e, he, hret⟩ := Option.bind_eq_some_iff.mp hk₁
    cases hret
    obtain ⟨e', hrem, hrel⟩ := Lockstep.exists_of_left (rtScheduleRemoveThread_rel hk.env t) he
    obtain ⟨hlive, rfl⟩ := removeThread_spec hw.sched.head_live (hw.sched.prio_lt t) hrem
    have hst : (a.env.thread t).stat ≠ .ready := by rw [← hk.env.thread]; exact hp
    have hwf := hw.sched.unlist hlive hst rfl rfl rfl (hw.sched.mask t)
    have hoff : a.env.unlist t (a.env.thread t) =
        a.env.offList t (a.env.unlist t (a.env.thread t)).rtThreadReadyPriorityGroup := by
      simp [SchedSys.unlist, SchedSys.offList]
    rw [hoff] at hrel hwf
    exact ⟨{ a with env := a.env.offList t _ }, ⟨hk.timers, hrel⟩, .unlinks rfl rfl hst hwf⟩
  | removed =>
    obtain ⟨k₁, hk₁, hret⟩ := Option.map_eq_some_iff.mp hrun
    cases hret
    obtain ⟨m, hm, hret⟩ := Option.bind_eq_some_iff.mp hk₁
    cases hret
    obtain ⟨m', hm', hrel⟩ := Lockstep.exists_of_left (rtTimerRemove_rel hk.timers _) hm
    obtain ⟨-, rfl⟩ := Abs.timerRemove_eq_some hm'
    have hst : (a.env.thread t).stat ≠ .ready := by rw [← hk.env.thread]; exact hp.1
    exact ⟨{ a with timers := { a.timers with timerList := a.timers.timerList.erase (.inl t) } },
      ⟨hrel, hk.env⟩, .disarms hst⟩
  | disarmed =>
    cases hrun
    obtain ⟨hst, hoff, harmed⟩ := hp
    obtain ⟨hlive, hfree⟩ := (next_self_iff hk.env.rep t).mp hoff
    rw [hk.env.thread] at hst
    have hwf : SchedWf (a.env.setStat t .close) :=
      hw.sched.rewrite hfree (by simp) (fun _ => hlive) (hw.sched.prio_lt t) (hw.sched.init_prio t)
        ?_
    · exact ⟨{ a with env := a.env.setStat t .close }, ⟨hk.timers, hk.env.setStat t .close⟩,
        .writes rfl (by simp) hst (by simp) (fun hmem => harmed ((hk.armed t).mpr hmem)) hwf⟩
    · exact (hw.sched.mask t).imp id fun h => ⟨h.1, .inr rfl⟩
  | closed =>
    obtain ⟨k₁, hk₁, hret⟩ := Option.map_eq_some_iff.mp hrun
    cases hret
    -- there is no list of defunct threads to be put into
    have hdefunct : k.env.list.next (.head .defunct) = none :=
      (hk.env.rep.null _ hw.sched.defunct).1
    unfold rtThreadDetachFinish at hk₁
    split at hk₁
    · cases hk₁
      exact ⟨a, hk, .nothing fun u hu _ => hu.elim⟩
    · simp [rtListInsertAfter, hdefunct] at hk₁

theorem semDetach_effect (hk : KernelRel k a) (hw : KernelWf a) {q : LoopPoint}
    (hp : (Piece.semDetach s q).Apt k) (hrun : (Piece.semDetach s q).step k = some (n, k')) :
    ∃ a', KernelRel k' a' ∧ PieceEffect a (.semDetach s q) n a' := by
  cases q with
  | test =>
    rw [Piece.step] at hrun
    split at hrun <;> cases hrun <;> exact ⟨a, hk, .nothing fun u hu _ => hu.elim⟩
  | body =>
    obtain ⟨k₁, hk₁, hret⟩ := Option.bind_eq_some_iff.mp hrun
    cases hret
    obtain ⟨e, he, hret⟩ := Option.bind_eq_some_iff.mp hk₁
    cases hret
    have hne : a.env.waiters s ≠ [] := by rw [← hk.waiters]; exact hp
    obtain ⟨t, ts, hts⟩ := List.exists_cons_of_ne_nil hne
    have hst : (a.env.thread t).stat = .suspend := hw.sched.waiting t s (by simp [hts])
    have hwake : Waking a.env (a.env.relistReady t (a.env.thread t).failed) :=
      Waking.wake hw.sched (.inr hst) rfl rfl rfl rfl
    obtain ⟨e', he', hrel⟩ := Lockstep.exists_of_left (rtIpcListResumeNext_rel hk s) he
    simp only [hts, List.head?_cons, Option.bind_eq_bind, Option.bind_some,
      failOne_eq hw.sched hst, Option.pure_def, Option.some.injEq] at he'
    subst he'
    exact ⟨{ a with env := a.env.relistReady t (a.env.thread t).failed }, ⟨hk.timers, hrel⟩,
      .fails hts hwake⟩
  | left =>
    cases hrun
    exact ⟨a, hk, .nothing fun u hu _ => hu.elim⟩

theorem timer_effect (hk : KernelRel k a) {q : TimerPoint}
    (hp : (Piece.timer u q : Piece τ σ υ).Apt k)
    (hrun : (Piece.timer u q).step k = some (n, k')) :
    ∃ a', KernelRel k' a' ∧ PieceEffect a (.timer u q) n a' := by
  have hnone : KernelRel k a ∧ PieceEffect a (.timer u q) n a :=
    ⟨hk, .sets .nothing⟩
  have hoff : OffList k.timers.timerList (.inr u) →
      a.timers.timerList.live (.item (.inr u)) = true ∧ a.timers.timerList.Free (.inr u) :=
    (next_self_iff hk.timers.rep _).mp
  have hwritten : ∀ {r : RtTimer (TimerCallback τ)}, OffList k.timers.timerList (.inr u) →
      r.timeoutFunc = (k.timers.timer (.inr u)).timeoutFunc →
      r.initTick = (k.timers.timer (.inr u)).initTick →
      (r.activated → (k.timers.timer (.inr u)).activated) →
        ∃ a', KernelRel { k with timers := k.timers.setTimer (.inr u) r } a' ∧
          PieceEffect a (.timer u q) n a' := by
    intro r hoff' hfunc hinit hact
    rw [hk.timers.timer] at hfunc hinit hact
    exact ⟨{ a with timers := a.timers.setTimer (.inr u) r }, ⟨hk.timers.setTimer _ r, hk.env⟩,
      .sets (.written ((hoff hoff').2 .rtTimerList) hfunc hinit hact)⟩
  cases q with
  | stop =>
    rw [Piece.step] at hrun
    split at hrun <;> cases hrun <;> exact ⟨a, hnone⟩
  | done =>
    cases hrun
    exact ⟨a, hnone⟩
  | startUnlinked => cases hrun; exact ⟨a, hnone⟩
  | startTick now => cases hrun; exact ⟨a, hnone⟩
  | stopUnlinked => cases hrun; exact ⟨a, hnone⟩
  | startSum timeout => cases hrun; exact hwritten hp rfl rfl id
  | stopFlag flag =>
    cases hrun
    refine hwritten hp rfl rfl fun hact => absurd hact ?_
    simpa [RtTimer.activated] using (flag_bits flag).2.2.1
  | start =>
    obtain ⟨⟨q, tm⟩, htm, hret⟩ := Option.bind_eq_some_iff.mp hrun
    cases hret
    obtain ⟨m, hstart, hret⟩ := Option.bind_eq_some_iff.mp htm
    cases hret
    obtain ⟨m, hm, hret⟩ := Option.bind_eq_some_iff.mp hstart
    cases hret
    obtain ⟨m', hm', hrel⟩ := Lockstep.exists_of_left (rtTimerRemove_rel hk.timers _) hm
    obtain ⟨hlive, rfl⟩ := Abs.timerRemove_eq_some hm'
    exact ⟨{ a with timers := a.timers.stopped (.inr u) }, ⟨hrel.deactivate _, hk.env⟩,
      .sets (.stopped hlive)⟩
  | stopTested =>
    obtain ⟨⟨q, tm⟩, htm, hret⟩ := Option.bind_eq_some_iff.mp hrun
    cases hret
    obtain ⟨m, hm, hret⟩ := Option.bind_eq_some_iff.mp htm
    cases hret
    obtain ⟨m', hm', hrel⟩ := Lockstep.exists_of_left (rtTimerRemove_rel hk.timers _) hm
    obtain ⟨-, rfl⟩ := Abs.timerRemove_eq_some hm'
    exact ⟨{ a with timers := _ }, ⟨hrel, hk.env⟩, .sets .erased⟩
  | startArmed =>
    obtain ⟨⟨q, tm⟩, htm, hret⟩ := Option.bind_eq_some_iff.mp hrun
    cases hret
    obtain ⟨m, hm, hret⟩ := Option.bind_eq_some_iff.mp htm
    cases hret
    obtain ⟨hlive, hfree⟩ := hoff hp
    obtain ⟨m', hm', hrel⟩ :=
      Lockstep.exists_of_left (rtTimerStartLink_rel hk.timers hfree) hm
    exact ⟨{ a with timers := m' }, ⟨hrel, hk.env⟩, .sets (.linked hlive hfree hm')⟩

/-- **One piece** that finds what it relies on does one of these. -/
theorem Piece.effect (hk : KernelRel k a) (hw : KernelWf a) (hp : p.Apt k)
    (hrun : p.step k = some (n, k')) : ∃ a', KernelRel k' a' ∧ PieceEffect a p n a' := by
  cases p with
  | resume t q r => exact resume_effect hk hw hp hrun
  | startup t q => exact startup_effect hk hw hp hrun
  | suspend t tested => exact suspend_effect hk hp hrun
  | detach t q => exact detach_effect hk hw hp hrun
  | semDetach s q => exact semDetach_effect hk hw hp hrun
  | timer u q => exact timer_effect hk hp hrun
  | timerDetach u =>
    obtain ⟨k₁, hk₁, hret⟩ := Option.bind_eq_some_iff.mp hrun
    cases hret
    obtain ⟨m, hm, hret⟩ := Option.bind_eq_some_iff.mp hk₁
    cases hret
    obtain ⟨m', hm', hrel⟩ := Lockstep.exists_of_left (rtTimerRemove_rel hk.timers _) hm
    obtain ⟨-, rfl⟩ := Abs.timerRemove_eq_some hm'
    exact ⟨⟨_, a.env⟩, ⟨hrel, hk.env⟩, .timerDetached⟩

end Effect

end PieceEffect

end SampleRtos
