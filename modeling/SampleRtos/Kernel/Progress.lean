import SampleRtos.Kernel.Returns

/-!
# The kernel never gets stuck

Whatever threads, ticks and handlers interleave, the next move returns, if it relies only on what
the moves before it have set up: operations and sections, and the pieces of the other functions
that find what they rely on.
-/

namespace SampleRtos

open Intrusive

section Progress
variable {τ σ υ : Type} [DecidableEq τ] [DecidableEq σ] [DecidableEq υ] [Fintype τ] [Fintype υ]
  {k k' : RtKernel τ σ υ} {a a' : SeqKernel τ σ υ} {idle t : τ} {s : σ} {x : τ ⊕ υ}

/-! ## Operations and moves -/

/-- What an operation relies on. The script of a tick has an entry for every timer. -/
def Op.Prepared (idle : τ) (k : RtKernel τ σ υ) : Op τ σ υ → Prop
  | .call c => c.Prepared idle k
  | .threadSleep _ => k.env.rtCurrentThread ≠ some idle
  | .semTake s time =>
      TakeBlocks k s time → k.env.rtCurrentThread ≠ some idle ∧ SemInitialised k s
  | .tickIncrease script =>
      k.env.rtCurrentThread ≠ none ∧ Fintype.card (τ ⊕ υ) ≤ script.length ∧
        tickMeets (MayCall idle) script k
  | .schedulerStart => True

instance (k : RtKernel τ σ υ) (op : Op τ σ υ) : Decidable (op.Prepared idle k) := by
  rcases op <;> dsimp only [Op.Prepared] <;> infer_instance

/-- **An operation returns** and leaves the kernel sound. -/
theorem Sound.exec (hk : KernelRel k a) (h : Sound idle a) {op : Op τ σ υ} (hop : op.Allowed k)
    (hp : op.Prepared idle k) : ∃ a', Abs.exec a op = some a' ∧ Sound idle a' := by
  have hop := (allowed_iff hk h.wf.sched op).mp hop
  cases op with
  | call c =>
    have hc := (callPrepared_iff hk c).mp hp
    obtain ⟨a', ha'⟩ := h.call_returns hc
    exact ⟨a', ha', (h.call hop hc ha').1⟩
  | threadSleep tick =>
    rw [Op.Prepared, hk.env.current] at hp
    exact h.sleep hop hp tick
  | semTake s time =>
    by_cases hpos : 0 < (a.env.sem s).value
    · let r := { a.env.sem s with value := (a.env.sem s).value - 1 }
      have hw : SchedWf (a.env.setSem s r) := h.wf.sched.congr rfl rfl rfl
      exact ⟨{ a with env := a.env.setSem s r }, by rw [Abs.exec, Abs.semTake, if_pos hpos]; rfl,
        h.wf.of_env hw (fun _ => id) fun _ => id, h.idle, h.fit, h.timer_live⟩
    · by_cases htime : time = 0
      · exact ⟨a, by rw [Abs.exec, Abs.semTake, if_neg hpos, if_pos htime]; rfl, h⟩
      · have hblocks : TakeBlocks a s time := ⟨by bv_omega, htime⟩
        obtain ⟨hidle, hinit⟩ := hp ((takeBlocks_iff hk s time).mpr hblocks)
        obtain ⟨t, hcur, hcan⟩ := hop hblocks
        have hcur' : a.env.rtCurrentThread = some t := hcur
        have ht : t ≠ idle := by
          rintro rfl
          exact hidle (hk.env.current.trans hcur')
        obtain ⟨a', ha', hs'⟩ := h.wait hcan ht ((next_ne_none_iff hk.env.rep _).mp hinit) time
        refine ⟨a', ?_, hs'⟩
        rw [Abs.exec, Abs.semTake, if_neg hpos, if_neg htime, hcur']
        simp [ha']
  | tickIncrease script =>
    obtain ⟨hcur, hlength, hmeet⟩ := hp
    exact Sound.tick hk h (by rwa [← hk.env.current]) hlength hmeet
  | schedulerStart =>
    obtain ⟨_, hsched⟩ := schedule_returns h.wf.sched h.idle
    obtain ⟨u, hu, -⟩ := schedule_spec hsched
    have he : Abs.schedStart a.env = some (a.env.startAt u) := by simp [Abs.schedStart, hu]
    have hwake := Waking.schedStart h.wf.sched he
    refine ⟨{ a with env := a.env.startAt u }, by simp [Abs.exec, Sys.onSched, he],
      h.wf.of_waking hwake, hwake.ready idle h.idle, h.fit, fun v hv => ?_⟩
    exact h.timer_live v (hwake.live _ ▸ hv)

/-- What a piece relies on besides what the pieces before it have found or left. -/
def Piece.Prepared (idle : τ) (k : RtKernel τ σ υ) : Piece τ σ υ → Prop
  | .suspend t _ => t ≠ idle
  | .detach t .checked => Initialised k t
  | .detach t .closed => (k.env.thread t).static ∧ ¬ (k.env.thread t).cleanup
  | .timer u .start | .timer u .stopTested | .timerDetach u => TimerInitialised k u
  | _ => True

instance (k : RtKernel τ σ υ) (p : Piece τ σ υ) : Decidable (p.Prepared idle k) := by
  rcases p with ⟨t, p, r⟩ | ⟨t, p⟩ | ⟨t, b⟩ | ⟨t, p⟩ | ⟨s, p⟩ | ⟨u, p⟩ | u
  case detach => rcases p <;> dsimp only [Piece.Prepared] <;> infer_instance
  case timer => rcases p <;> dsimp only [Piece.Prepared] <;> infer_instance
  all_goals dsimp only [Piece.Prepared]; infer_instance

/-- What a move relies on. -/
def KernelMove.Prepared (idle : τ) (s : Interleaved τ σ υ) : KernelMove τ σ υ → Prop
  | .enter f => s.kernel.env.rtCurrentThread ≠ none ∧ f.op.Prepared idle s.kernel
  | .finish => ∃ t ∈ s.kernel.env.rtCurrentThread, s.pending t ≠ none
  | .invoke c => s.kernel.env.rtCurrentThread ≠ none ∧ c.first ≠ none
  | .piece => ∃ t ∈ s.kernel.env.rtCurrentThread, ∃ p ∈ s.errand t, p.Prepared idle s.kernel
  | .masked c => c.Prepared idle s.kernel
  | .tick script => (Op.tickIncrease script).Prepared idle s.kernel
  | .handler cs => callsMeet (MayCall idle) cs s.kernel
  | .start => True

instance (s : Interleaved τ σ υ) (m : KernelMove τ σ υ) : Decidable (m.Prepared idle s) := by
  rcases m <;> dsimp only [KernelMove.Prepared] <;> infer_instance

section
omit [Fintype τ] [Fintype υ]

theorem TimerEffect.fit {m m' : SeqTimers τ υ} {u : υ} {q : TimerPoint} (h : Fit m)
    (heff : TimerEffect u m q m') : Fit m' := by
  cases heff with
  | nothing => exact h
  | erased => exact h.erase _
  | stopped => exact (h.erase _).deactivate _
  | written hfree hfunc hinit hact =>
    exact h.setTimer (fun hact' => h.live _ (hact hact')) fun _ _ => .inr hinit
  | linked hlive hfree hlink =>
    obtain ⟨-, xs, ys, -, rfl, -, -⟩ := timerLink_spec hlive hlink
    have hset : Fit (m.setTimer (.inr u) (m.timer (.inr u)).activate) :=
      h.setTimer (fun _ => hlive) fun _ _ => .inr rfl
    exact ⟨hset.live, hset.timed⟩

end

section
omit [Fintype υ]

/-- **A piece leaves the kernel sound.** -/
theorem Sound.pieces {p : Piece τ σ υ} {n : Piece τ σ υ ⊕ Rest τ} (h : Sound idle a)
    (hp : p.Prepared idle k) (heff : PieceEffect a p n a') : Sound idle a' := by
  have hleaves := heff.leaves h.wf
  have hother : ∀ {t : τ}, (a.env.thread t).stat ≠ .ready → idle ≠ t := by
    rintro t ht rfl
    exact ht h.idle
  have htimer : ∀ {m : SeqTimers τ υ}, m.timerList.live = a.timers.timerList.live →
      ∀ t, a'.env.list.live (.item t) = true → m.timerList.live (.item (threadTimer t)) = true := by
    intro m hm t ht
    rw [hleaves.live] at ht
    rw [hm]
    exact h.timer_live t ht
  cases heff with
  | nothing => exact h
  | resumes hwake => exact ⟨hleaves.wf, hwake.ready idle h.idle, h.fit, htimer rfl⟩
  | suspends hrun => exact (h.call (c := .threadSuspend _) trivial hp hrun).1
  | timerDetached => exact ⟨hleaves.wf, h.idle, h.fit.erase _, htimer rfl⟩
  | unlinks => exact ⟨hleaves.wf, h.idle, h.fit, htimer rfl⟩
  | writes hp hq hst =>
    refine ⟨hleaves.wf, ?_, h.fit, htimer rfl⟩
    simpa [SchedSys.setThread, hother hst] using h.idle
  | fails hwaiters hwake => exact ⟨hleaves.wf, hwake.ready idle h.idle, h.fit, htimer rfl⟩
  | disarms => exact ⟨hleaves.wf, h.idle, h.fit.erase _, htimer rfl⟩
  | sets heff => exact ⟨hleaves.wf, h.idle, heff.fit h.fit, htimer heff.live⟩

end

section
omit [Fintype τ] [Fintype υ]

/-- Taking a timer off the list returns. -/
theorem timerRemove_returns (hk : KernelRel k a)
    (hlive : a.timers.timerList.live (.item x) = true) :
    ∃ m, rtTimerRemove k.timers x = some m := by
  obtain ⟨m, hm, -⟩ :=
    Lockstep.exists_of_right (rtTimerRemove_rel hk.timers x) (Abs.timerRemove_of_live hlive)
  exact ⟨m, hm⟩

end

theorem Sound.resume_returns {q : ResumePoint} {b : Bool} (hk : KernelRel k a) (h : Sound idle a)
    (hapt : (Piece.resume t q b).Apt k) : ∃ n k', (Piece.resume t q b).step k = some (n, k') := by
  cases q with
  | entry =>
    rw [Piece.step]
    split <;> exact ⟨_, _, rfl⟩
  | checked =>
    have hst : (a.env.thread t).stat = .suspend := by rw [← hk.env.thread]; exact hapt
    have hlive := h.wf.sched.live t (by simp [hst])
    obtain ⟨l, hl, -⟩ := Lockstep.exists_of_right (rtListRemove_rep hk.env.rep t)
      (show remove a.env.list t = some (a.env.list.erase t) by simp [remove, hlive])
    exact ⟨.inl (.resume t .unlinked b), { k with env := { k.env with list := l } },
      by simp [Piece.step, Sys.onSched, rtThreadResumeUnlink, hl]⟩
  | unlinked =>
    obtain ⟨hlive, hfree⟩ := (next_self_iff hk.env.rep t).mp hapt.2
    obtain ⟨e, he, -⟩ := Lockstep.exists_of_right (rtScheduleInsertThread_rel hk.env hfree)
      (insertThread_free h.wf.sched hlive hfree)
    exact ⟨.inr (resumed b RT_EOK), { k with env := e }, by simp [Piece.step, Sys.onSched, he]⟩
  | inserted => exact ⟨_, _, rfl⟩

theorem Sound.suspend_returns {tested : Bool} (hk : KernelRel k a) (h : Sound idle a)
    (hapt : (Piece.suspend t tested : Piece τ σ υ).Apt k) :
    ∃ n k', (Piece.suspend t tested).step k = some (n, k') := by
  cases tested with
  | false =>
    rw [Piece.step]
    split <;> exact ⟨_, _, rfl⟩
  | true =>
    obtain ⟨r, a', ha'⟩ := threadSuspend_returns h t
    obtain ⟨⟨_, k'⟩, hk', -⟩ := Lockstep.exists_of_right (rtThreadSuspend_rel hk t) ha'
    rw [rtThreadSuspend_ready hapt] at hk'
    obtain ⟨k', hsection, -⟩ := Option.map_eq_some_iff.mp hk'
    exact ⟨.inr (.returned RT_EOK), k', by rw [Piece.step, hsection]; rfl⟩

theorem Sound.detach_returns {q : DetachPoint} (hk : KernelRel k a) (h : Sound idle a)
    (hapt : (Piece.detach t q).Apt k) (hp : (Piece.detach t q).Prepared idle k) :
    ∃ n k', (Piece.detach t q).step k = some (n, k') := by
  cases q with
  | entry => exact ⟨_, _, rfl⟩
  | checked =>
    obtain ⟨e', he'⟩ := removeThread_returns ((initialised_iff hk t).mp hp)
    obtain ⟨e, he, -⟩ := Lockstep.exists_of_right (rtScheduleRemoveThread_rel hk.env t) he'
    exact ⟨.inl (.detach t .removed), { k with env := e },
      by simp [Piece.step, rtThreadDetachUnlist, Sys.onSched, he]⟩
  | removed =>
    obtain ⟨hlive, -⟩ := (next_self_iff hk.env.rep t).mp hapt.2
    obtain ⟨m, hm⟩ := timerRemove_returns hk (h.timer_live t hlive)
    exact ⟨.inl (.detach t .disarmed), { k with timers := m },
      by simp [Piece.step, rtThreadDetachDisarm, Sys.onTimers, rtTimerDetach, hm]⟩
  | disarmed => exact ⟨_, _, rfl⟩
  | closed =>
    have hplain : (k.env.thread t).static ∧ ¬ (k.env.thread t).cleanup := hp
    exact ⟨.inr (.returned RT_EOK), k,
      by rw [Piece.step, rtThreadDetachFinish, if_pos hplain]; rfl⟩

theorem Sound.semDetach_returns {q : LoopPoint} (hk : KernelRel k a) (h : Sound idle a)
    (hapt : (Piece.semDetach s q).Apt k) : ∃ n k', (Piece.semDetach s q).step k = some (n, k') := by
  cases q with
  | test =>
    rw [Piece.step]
    split <;> exact ⟨_, _, rfl⟩
  | body =>
    have hne : a.env.waiters s ≠ [] := by rw [← hk.waiters]; exact hapt
    obtain ⟨t, ts, hts⟩ := List.exists_cons_of_ne_nil hne
    have hst : (a.env.thread t).stat = .suspend := h.wf.sched.waiting t s (by simp [hts])
    obtain ⟨e, he, -⟩ := Lockstep.exists_of_right (rtIpcListResumeNext_rel hk s)
      (show _ = some (a.env.relistReady t (a.env.thread t).failed) by
        simp [hts, failOne_eq h.wf.sched hst])
    exact ⟨.inl (.semDetach s .test), { k with env := e }, by simp [Piece.step, Sys.onSched, he]⟩
  | left => exact ⟨_, _, rfl⟩

theorem Sound.timer_returns {u : υ} {q : TimerPoint} (hk : KernelRel k a) (h : Sound idle a)
    (hapt : (Piece.timer u q : Piece τ σ υ).Apt k)
    (hp : (Piece.timer u q : Piece τ σ υ).Prepared idle k) :
    ∃ n k', (Piece.timer u q).step k = some (n, k') := by
  cases q with
  | stop =>
    rw [Piece.step]
    split <;> exact ⟨_, _, rfl⟩
  | start =>
    obtain ⟨m, hm⟩ := timerRemove_returns hk ((next_ne_none_iff hk.timers.rep _).mp hp)
    exact ⟨.inl (.timer u .startUnlinked), { k with timers := m.deactivate (.inr u) },
      by simp [Piece.step, timerStep, rtTimerStartUnlink, hm]⟩
  | stopTested =>
    obtain ⟨m, hm⟩ := timerRemove_returns hk ((next_ne_none_iff hk.timers.rep _).mp hp)
    exact ⟨.inl (.timer u .stopUnlinked), { k with timers := m },
      by simp [Piece.step, timerStep, hm]⟩
  | startArmed =>
    obtain ⟨hlive, hfree⟩ := (next_self_iff hk.timers.rep _).mp hapt
    obtain ⟨m', hm'⟩ : ∃ m', Abs.timerLink a.timers (.inr u) = some m' :=
      ⟨_, by simp [Abs.timerLink, insertOrdered, insertAt, h.wf.timers.head_live]; rfl⟩
    obtain ⟨m, hm, -⟩ := Lockstep.exists_of_right (rtTimerStartLink_rel hk.timers hfree) hm'
    exact ⟨.inr (.returned RT_EOK), { k with timers := m },
      by simp [Piece.step, timerStep, hm]⟩
  | _ => exact ⟨_, _, rfl⟩

/-- **A piece returns** that finds what it relies on. -/
theorem Sound.piece_returns {p : Piece τ σ υ} (hk : KernelRel k a) (h : Sound idle a)
    (hapt : p.Apt k) (hp : p.Prepared idle k) : ∃ n k', p.step k = some (n, k') := by
  cases p with
  | resume t q b => exact Sound.resume_returns hk h hapt
  | startup t q => exact ⟨_, _, rfl⟩
  | suspend t tested => exact Sound.suspend_returns hk h hapt
  | detach t q => exact Sound.detach_returns hk h hapt hp
  | semDetach s q => exact Sound.semDetach_returns hk h hapt
  | timer u q => exact Sound.timer_returns hk h hapt hp
  | timerDetach u =>
    obtain ⟨m, hm⟩ := timerRemove_returns hk ((next_ne_none_iff hk.timers.rep _).mp hp)
    exact ⟨.inr (.returned RT_EOK), { k with timers := m },
      by simp [Piece.step, Sys.onTimers, rtTimerDetach, hm]⟩

/-- Links stand for no more than one family of sequences. -/
theorem rings_unique {H α : Type} [DecidableEq H] [DecidableEq α] {l : Links (Node H α)}
    {r r' : Rings H α} (h : Rep l r) (h' : Rep l r') : r = r' := by
  have hseq : r.seq = r'.seq := by
    funext hd
    have hle : (r.seq hd).length ≤ (r.seq hd).length + (r'.seq hd).length := by omega
    have hle' : (r'.seq hd).length ≤ (r.seq hd).length + (r'.seq hd).length := by omega
    rw [← h.read_eq hd hle, h'.read_eq hd hle']
  have hlive : r.live = r'.live := by
    funext n
    rw [Bool.eq_iff_iff, ← next_ne_none_iff h, next_ne_none_iff h']
  cases r
  cases r'
  cases hseq
  cases hlive
  rfl

section
omit [Fintype τ] [Fintype υ]

/-- What makes a kernel sound is in its records and its links, and `rt_schedule` changes
neither. -/
theorem Sound.before_schedule {a₁ a₂ : SeqKernel τ σ υ} (h : Sound idle a₂) (hk₂ : KernelRel k a₂)
    (hk₁ : KernelRel k a₁) (hw : KernelWf a) (hsame : SameLists a.env a₁.env)
    (htimers : a₁.timers = a.timers) : Sound idle a := by
  have hthread : a.env.thread = a₂.env.thread := by
    rw [← hsame.thread, ← hk₁.env.thread, hk₂.env.thread]
  have hlist : a.env.list = a₂.env.list := by
    rw [← hsame.list]
    exact rings_unique hk₁.env.rep hk₂.env.rep
  have htimer : a.timers.timer = a₂.timers.timer := by
    rw [← htimers, ← hk₁.timers.timer, hk₂.timers.timer]
  have hrows : a.timers.timerList = a₂.timers.timerList := by
    rw [← htimers]
    exact rings_unique hk₁.timers.rep hk₂.timers.rep
  refine ⟨hw, by rw [hthread]; exact h.idle, ⟨fun x hx => ?_, fun u hu => ?_⟩, fun t ht => ?_⟩
  · rw [htimer] at hx
    rw [hrows]
    exact h.fit.live x hx
  · rw [hrows] at hu
    rw [htimer]
    exact h.fit.timed u hu
  · rw [hlist] at ht
    rw [hrows]
    exact h.timer_live t ht

end

/-- **The section of a function returns**, and leaves the kernel sound. -/
theorem Sound.enter (hk : KernelRel k a) (h : Sound idle a) {f : Service σ}
    (hf : f.op.Allowed k) (hp : f.op.Prepared idle k) (hcur : k.env.rtCurrentThread ≠ none) :
    ∃ r k' a', f.enter k = some (r, k') ∧ KernelRel k' a' ∧ Sound idle a' := by
  have hop := (allowed_iff hk h.wf.sched f.op).mp hf
  obtain ⟨a₂, ha₂, hs₂⟩ := h.exec hk hf hp
  obtain ⟨k₂, hk₂, hrel₂⟩ := Lockstep.exists_of_right (exec_rel hk h.wf hop) ha₂
  -- the function returns, so its section does
  rw [← section_finish] at hk₂
  obtain ⟨⟨r, k'⟩, henter, hfin⟩ := Option.bind_eq_some_iff.mp hk₂
  by_cases hr : r.left = none
  · have hdone : k' = k₂ := by
      cases r with
      | returned e => exact Option.some.inj hfin
      | _ => cases hr
    exact ⟨r, k', a₂, henter, hdone ▸ hrel₂, hs₂⟩
  · obtain ⟨a', hrel, heff⟩ := enter_effect hk h.wf hf henter hr
    have hleaves := heff.leaves h.wf
    have hcur' : k'.env.rtCurrentThread ≠ none := by
      rw [hrel.env.current, hleaves.current, ← hk.env.current]
      exact hcur
    have hret : ∀ e, r ≠ .returned e := by
      rintro e rfl
      exact hr rfl
    have hsched : k'.onSched rtSchedule = some k₂ := by
      rw [← finish_schedule hret hcur']
      exact hfin
    obtain ⟨a₁, ha₁, hrel₁⟩ :=
      Lockstep.exists_of_left (onSched_rel hrel (rtSchedule_rel hrel.env)) hsched
    obtain ⟨he, htimers⟩ := onSched_spec ha₁
    exact ⟨r, k', a', henter, hrel,
      hs₂.before_schedule hrel₂ hrel₁ hleaves.wf (schedule_same he) htimers⟩

/-- The state between any two moves. -/
def Interleaved.Sound (idle : τ) (s : Interleaved τ σ υ) : Prop :=
  ∃ a, s.InOrder a ∧ SampleRtos.Sound idle a

/-- **A move returns** and leaves the system sound. -/
theorem Interleaved.Sound.move {s : Interleaved τ σ υ} (h : s.Sound idle) {m : KernelMove τ σ υ}
    (hm : m.Allowed s) (hp : m.Prepared idle s) : ∃ s', m.exec s = some s' ∧ s'.Sound idle := by
  obtain ⟨a, ⟨hk, hw, hpend⟩, hs⟩ := h
  have hop : ∀ op : Op τ σ υ, op.Allowed s.kernel → op.Prepared idle s.kernel →
      ∃ k' a', op.exec s.kernel = some k' ∧ KernelRel k' a' ∧ SampleRtos.Sound idle a' := by
    intro op hallowed hprepared
    obtain ⟨a', ha', hs'⟩ := hs.exec hk hallowed hprepared
    obtain ⟨k', hk', hrel'⟩ := Lockstep.exists_of_right
      (exec_rel hk hw ((allowed_iff hk hw.sched op).mp hallowed)) ha'
    exact ⟨k', a', hk', hrel', hs'⟩
  cases m with
  | enter f =>
    obtain ⟨t, ht⟩ := Option.ne_none_iff_exists'.mp hp.1
    obtain ⟨r, k', a', henter, hrel, hs'⟩ := hs.enter hk hm.2 hp.2 hp.1
    refine ⟨{ s with kernel := k', pending := Function.update s.pending t r.left },
      by simp [KernelMove.exec, ht, henter], a', ⟨hrel, hs'.wf, ?_⟩, hs'⟩
    exact pending_update hpend t r.left_ne_returned
  | finish =>
    obtain ⟨t, ht, hrest⟩ := hp
    have hcur : s.kernel.env.rtCurrentThread = some t := ht
    obtain ⟨r, hr⟩ := Option.ne_none_iff_exists'.mp hrest
    have hfin := finish_schedule (r := r) (k := s.kernel) (fun e he => hpend t e (he ▸ hr))
      (by rw [hcur]; simp)
    obtain ⟨a', ha', hs'⟩ := hs.schedule
    obtain ⟨k', hk', hrel⟩ :=
      Lockstep.exists_of_right (onSched_rel hk (rtSchedule_rel hk.env)) ha'
    rw [hk'] at hfin
    refine ⟨{ s with kernel := k', pending := Function.update s.pending t none },
      by simp [KernelMove.exec, hcur, hr, hfin], a', ⟨hrel, hs'.wf, ?_⟩, hs'⟩
    exact pending_update hpend t (by simp)
  | invoke c =>
    obtain ⟨t, ht⟩ := Option.ne_none_iff_exists'.mp hp.1
    obtain ⟨p, hfirst⟩ := Option.ne_none_iff_exists'.mp hp.2
    exact ⟨{ s with errand := Function.update s.errand t (some p) },
      by simp [KernelMove.exec, ht, hfirst], a, ⟨hk, hw, hpend⟩, hs⟩
  | piece =>
    obtain ⟨t, ht, p, hp, hprepared⟩ := hp
    have hapt := hm t ht p hp
    obtain ⟨n, k', hstep⟩ := hs.piece_returns hk hapt hprepared
    obtain ⟨a', hrel, heff⟩ := Piece.effect hk hw hapt hstep
    have hcur : s.kernel.env.rtCurrentThread = some t := ht
    have herrand : s.errand t = some p := hp
    have hs' := hs.pieces hprepared heff
    refine ⟨_, by simp [KernelMove.exec, hcur, herrand, hstep]; rfl, a', ⟨hrel, hs'.wf, ?_⟩, hs'⟩
    exact pending_update hpend t (leftAfter_ne_returned n)
  | masked c =>
    obtain ⟨k', a', hc, hrel, hs'⟩ := hop (.call c) hm.2.1 hp
    have hc : c.exec s.kernel = some k' := hc
    exact ⟨{ s with kernel := k' }, by simp [KernelMove.exec, hc], a', ⟨hrel, hs'.wf, hpend⟩, hs'⟩
  | tick script =>
    obtain ⟨k', a', htick, hrel, hs'⟩ := hop (.tickIncrease script) trivial hp
    have htick : kernelTick script s.kernel = some k' := htick
    exact ⟨{ s with kernel := k' }, by simp [KernelMove.exec, htick], a', ⟨hrel, hs'.wf, hpend⟩,
      hs'⟩
  | handler cs =>
    obtain ⟨a', ha', hs', -⟩ := SampleRtos.Sound.runCalls cs hk hs hp
    obtain ⟨k', hk', hrel⟩ := Lockstep.exists_of_right (runCalls_rel cs hk hw) ha'
    exact ⟨{ s with kernel := k' }, by simp [KernelMove.exec, hk'], a', ⟨hrel, hs'.wf, hpend⟩, hs'⟩
  | start =>
    obtain ⟨k', a', hstart, hrel, hs'⟩ := hop .schedulerStart hm trivial
    have hstart : s.kernel.onSched rtSystemSchedulerStart = some k' := hstart
    exact ⟨{ s with kernel := k' }, by simp [KernelMove.exec, hstart], a', ⟨hrel, hs'.wf, hpend⟩,
      hs'⟩

section
omit [Fintype τ] [Fintype υ]

theorem Sound.boot (h : Abs.boot idle = some a) : Sound idle a := by
  obtain ⟨hrun, htimers⟩ := onSched_spec h
  have hzero : Fit (Abs.systemInit : SeqKernel τ σ υ).timers := by
    constructor
    · intro x hx
      simp [Abs.systemInit, zeroTimers, RtTimer.activated] at hx
    · intro u hu
      simp [Abs.systemInit, zeroTimers, Rings.mark] at hu
  refine ⟨boot_wf h, ?_, ?_, fun t ht => ?_⟩
  · rw [(boot_spec h).thread]
    simp [RtThread.started]
  · rw [htimers]
    exact hzero.init fun u hu => by cases hu
  · have h₁ : KernelWf
        (Abs.threadInit (Abs.systemInit : SeqKernel τ σ υ) idle (RT_THREAD_PRIORITY_MAX - 1) 1) :=
      systemInit_wf.threadInit (.inl rfl) (by decide)
    have hwake := Waking.startup h₁.sched hrun
    rw [hwake.live] at ht
    rw [htimers]
    by_cases hti : t = idle
    · subst hti
      simp [Abs.threadInit, Abs.timerInit, Rings.mark]
    · have hold : (Abs.systemInit : SeqKernel τ σ υ).env.list.live (.item t) = true := by
        simpa [Abs.threadInit, SchedSys.setThread, Rings.mark, hti] using ht
      rw [systemInit_list, foldl_mark_live] at hold
      simp at hold

theorem Interleaved.Sound.boot {k₀ : RtKernel τ σ υ} (hboot : k₀ ∈ boot idle) :
    Interleaved.Sound idle (.booted k₀) := by
  obtain ⟨a, h, ha⟩ := Interleaved.InOrder.boot hboot
  exact ⟨a, h, SampleRtos.Sound.boot ha⟩

end

end Progress

/-- Thread 1 waits for a semaphore while a periodic timer is running. -/
def waitingForTimer : List (KernelMove (Fin 3) (Fin 1) (Fin 1)) :=
  [.masked (.semInit 0 0 0), .masked (.timerInit 0 2 RT_TIMER_FLAG_PERIODIC),
    .masked (.timerStart 0), .masked (.threadInit 1 3 10), .masked (.threadStartup 1), .start,
    .enter (.semTake 0 0xffffffff), .finish, .tick [[], [], [], []]]

end SampleRtos
