import SampleRtos.Timer.Queue

/-!
# What each timer operation does

Inversion lemmas for the timer operations on sequences, and the induction over
the firings of one `rt_timer_check`.
-/

namespace SampleRtos

open Intrusive

section Spec
variable {ι γ E κ : Type} [DecidableEq ι]

/-- The record of a timer that `rt_timer_start` has started at `now`. -/
def RtTimer.started (r : RtTimer γ) (now : Tick) : RtTimer γ :=
  { r with
    flag := (r.flag &&& ~~~RT_TIMER_FLAG_ACTIVATED) ||| RT_TIMER_FLAG_ACTIVATED
    timeoutTick := now + r.initTick }

/-- Setting and testing the flag bits, on all flags at once. -/
theorem flag_bits : ∀ f : BitVec 8,
    ((f &&& ~~~RT_TIMER_FLAG_ACTIVATED) ||| RT_TIMER_FLAG_ACTIVATED) &&&
        RT_TIMER_FLAG_ACTIVATED ≠ 0 ∧
      ((f &&& ~~~RT_TIMER_FLAG_ACTIVATED) ||| RT_TIMER_FLAG_ACTIVATED) &&&
        RT_TIMER_FLAG_PERIODIC = f &&& RT_TIMER_FLAG_PERIODIC ∧
      (f &&& ~~~RT_TIMER_FLAG_ACTIVATED) &&& RT_TIMER_FLAG_ACTIVATED = 0 ∧
      (f &&& ~~~RT_TIMER_FLAG_ACTIVATED) &&& RT_TIMER_FLAG_PERIODIC =
        f &&& RT_TIMER_FLAG_PERIODIC := by
  decide +kernel

theorem flag_set : ∀ f : BitVec 8,
    (f ||| RT_TIMER_FLAG_ACTIVATED) &&& RT_TIMER_FLAG_ACTIVATED ≠ 0 := by
  decide +kernel

@[simp] theorem RtTimer.started_activated (r : RtTimer γ) (now : Tick) :
    (r.started now).activated := (flag_bits r.flag).1

@[simp] theorem RtTimer.started_periodic (r : RtTimer γ) (now : Tick) :
    (r.started now).periodic ↔ r.periodic := by
  rw [periodic, periodic, started, (flag_bits r.flag).2.1]

theorem RtTimer.activate_activated (r : RtTimer γ) : r.activate.activated :=
  flag_set r.flag

@[simp] theorem RtTimer.deactivate_activated (r : RtTimer γ) : ¬ r.deactivate.activated :=
  not_not.mpr (flag_bits r.flag).2.2.1

@[simp] theorem RtTimer.deactivate_periodic (r : RtTimer γ) :
    r.deactivate.periodic ↔ r.periodic := by
  rw [periodic, periodic, deactivate, (flag_bits r.flag).2.2.2]

namespace TimerSys
variable {L : Type} (k : TimerSys ι γ L) (t : ι) (r : RtTimer γ)

@[simp] theorem setTimer_timer : (k.setTimer t r).timer = Function.update k.timer t r := rfl
@[simp] theorem setTimer_rtTick : (k.setTimer t r).rtTick = k.rtTick := rfl
@[simp] theorem setTimer_timerList : (k.setTimer t r).timerList = k.timerList := rfl

@[simp] theorem deactivate_timer :
    (k.deactivate t).timer = Function.update k.timer t (k.timer t).deactivate := rfl
@[simp] theorem deactivate_rtTick : (k.deactivate t).rtTick = k.rtTick := rfl
@[simp] theorem deactivate_timerList : (k.deactivate t).timerList = k.timerList := rfl

@[simp] theorem deactivate_queue (a : TimerSys ι γ (TimerRings ι)) (t : ι) :
    (a.deactivate t).queue = a.queue := rfl

@[simp] theorem control_timer (cmd : TimerCtrl) :
    (k.rtTimerControl t cmd).timer = Function.update k.timer t ((k.timer t).control cmd) := rfl

@[simp] theorem control_timerList (cmd : TimerCtrl) :
    (k.rtTimerControl t cmd).timerList = k.timerList := rfl

@[simp] theorem control_rtTick (cmd : TimerCtrl) :
    (k.rtTimerControl t cmd).rtTick = k.rtTick := rfl

end TimerSys

variable {a a' : TimerSys ι γ (TimerRings ι)} {t : ι}

/-- The queue without `t`. -/
def TimerSys.others (a : TimerSys ι γ (TimerRings ι)) (t : ι) : List ι :=
  (a.timerList.erase t).seq .rtTimerList

theorem TimerSys.mem_others (hv : a.timerList.Valid) {u : ι} :
    u ∈ a.others t ↔ u ∈ a.queue ∧ u ≠ t := by
  by_cases hu : u = t
  · subst hu
    exact iff_of_false (hv.erase_free u _) (by simp)
  · simp [others, queue, List.mem_erase_of_ne hu, hu]

/-- The timer `t` taken off the list and marked stopped. -/
def TimerSys.stopped (a : TimerSys ι γ (TimerRings ι)) (t : ι) : TimerSys ι γ (TimerRings ι) :=
  { a with timerList := a.timerList.erase t }.deactivate t

/-- An operation whose return code is dropped has returned one. -/
theorem returned_of_map {α β : Type} {x : Option (α × β)} {b : β}
    (h : x.map Prod.snd = some b) : ∃ c, x = some (c, b) := by
  obtain ⟨⟨c, _⟩, hx, rfl⟩ := Option.map_eq_some_iff.mp h
  exact ⟨c, hx⟩

theorem Abs.timerStop_spec {e : Int} (h : Abs.timerStop a t = some (e, a')) :
    (¬ (a.timer t).activated ∧ a' = a) ∨
      ((a.timer t).activated ∧ a.timerList.live (.item t) = true ∧ a' = a.stopped t) := by
  unfold Abs.timerStop at h
  split at h
  · rename_i hact
    cases h
    exact .inl ⟨hact, rfl⟩
  · rename_i hact
    obtain ⟨m, hrem, hret⟩ := Option.bind_eq_some_iff.mp h
    obtain ⟨hlive, rfl⟩ := Abs.timerRemove_eq_some hrem
    cases hret
    exact .inr ⟨not_not.mp hact, hlive, rfl⟩

/-- A start puts the timer, freshly stamped, behind every timer it does not
precede up to the first that it does. -/
theorem Abs.timerStart_spec (h : Abs.timerStart a t = some a') :
    a.timerList.live (.item t) = true ∧ a.timerList.live timerHead = true ∧
      ∃ xs ys, a.others t = xs ++ ys ∧
        a' = { a with
          randomNr := a.randomNr + 1
          timer := Function.update a.timer t ((a.timer t).started a.rtTick)
          timerList := (a.timerList.erase t).setSeq .rtTimerList (xs ++ t :: ys) } ∧
        (∀ u ∈ xs, u ≠ t → ¬ ((a.timer t).started a.rtTick).precedes (a.timer u)) ∧
        (∀ u ∈ ys.head?, u ≠ t → ((a.timer t).started a.rtTick).precedes (a.timer u)) := by
  unfold Abs.timerStart at h
  obtain ⟨a₁, hrem, h⟩ := Option.bind_eq_some_iff.mp h
  obtain ⟨hlive, rfl⟩ := Abs.timerRemove_eq_some hrem
  obtain ⟨l, hins, hret⟩ := Option.bind_eq_some_iff.mp h
  obtain ⟨hhead, xs, ys, hcut, rfl, hxs, hys⟩ := insertOrdered_spec hins
  have hmark : (a.timerList.erase t).mark (.item t) = a.timerList.erase t :=
    Rings.mark_of_live hlive
  cases hret
  refine ⟨hlive, hhead, xs, ys, hcut, ?_, fun u hu hut => ?_, fun u hu hut => ?_⟩
  · simp [rtTimerStartArm, RtTimer.activate, RtTimer.deactivate, RtTimer.started,
      TimerSys.setTimer, TimerSys.deactivate, hmark]
  · simpa [rtTimerStartArm, RtTimer.precedes, RtTimer.started, RtTimer.deactivate, hut]
      using hxs u hu
  · simpa [rtTimerStartArm, RtTimer.precedes, RtTimer.started, RtTimer.deactivate, hut]
      using hys u hu

/-- An initialised timer can be started. -/
theorem Abs.timerStart_of_live (hlive : a.timerList.live (.item t) = true)
    (hhead : a.timerList.live timerHead = true) : ∃ a', Abs.timerStart a t = some a' := by
  refine Option.isSome_iff_exists.mp ?_
  rw [Abs.timerStart, Abs.timerRemove_of_live hlive]
  simp [insertOrdered, insertAt, rtTimerStartArm, hhead]

/-- `a'` comes of a start of `t` in `a`, which has put it between `xs` and `ys`. -/
structure Started (a a' : TimerSys ι γ (TimerRings ι)) (t : ι) (xs ys : List ι) : Prop where
  valid : a.timerList.Valid
  initialised : a.timerList.live (.item t) = true
  head : a.timerList.live timerHead = true
  others : a.others t = xs ++ ys
  list : a'.timerList = (a.timerList.erase t).setSeq .rtTimerList (xs ++ t :: ys)
  rtTick : a'.rtTick = a.rtTick
  self : a'.timer t = (a.timer t).started a.rtTick
  other : ∀ u, u ≠ t → a'.timer u = a.timer u
  passed : ∀ u ∈ xs, ¬ ((a.timer t).started a.rtTick).precedes (a.timer u)
  reached : ∀ u ∈ ys.head?, ((a.timer t).started a.rtTick).precedes (a.timer u)

namespace Started
variable {xs ys : List ι} {u : ι}

theorem queue (h : Started a a' t xs ys) : a'.queue = xs ++ t :: ys := by
  simp [TimerSys.queue, h.list]

theorem live (h : Started a a' t xs ys) : a'.timerList.live = a.timerList.live := by
  rw [h.list]
  rfl

theorem timer (h : Started a a' t xs ys) :
    a'.timer = Function.update a.timer t ((a.timer t).started a.rtTick) := by
  funext u
  by_cases hut : u = t
  · subst hut
    rw [Function.update_self, h.self]
  · rw [Function.update_of_ne hut, h.other u hut]

theorem valid_after (h : Started a a' t xs ys) : a'.timerList.Valid := by
  rw [h.list]
  exact (h.valid.erase t).insert h.others (h.valid.erase_free t) h.initialised h.head

theorem mem_rest (h : Started a a' t xs ys) : u ∈ xs ++ ys ↔ u ∈ a.queue ∧ u ≠ t := by
  rw [← h.others]
  exact TimerSys.mem_others h.valid

theorem mem_queue (h : Started a a' t xs ys) : u ∈ a'.queue ↔ u = t ∨ u ∈ a.queue := by
  have hrest := h.mem_rest (u := u)
  rw [h.queue]
  simp only [List.mem_append, List.mem_cons] at hrest ⊢
  by_cases hut : u = t
  · simp [hut]
  · simpa [hut] using hrest

theorem sublist (h : Started a a' t xs ys) : (xs ++ ys).Sublist a.queue := by
  rw [← h.others]
  exact List.erase_sublist

end Started

theorem Abs.timerStart_started (hv : a.timerList.Valid) (h : Abs.timerStart a t = some a') :
    ∃ xs ys, Started a a' t xs ys := by
  obtain ⟨hlive, hhead, xs, ys, hcut, rfl, hxs, hys⟩ := Abs.timerStart_spec h
  have hother : ∀ u ∈ xs ++ ys, u ≠ t := fun u hu =>
    ((TimerSys.mem_others hv).mp (hcut ▸ hu)).2
  refine ⟨xs, ys, hv, hlive, hhead, hcut, rfl, rfl, by simp, fun u hu => by simp [hu],
    fun u hu => hxs u hu (hother u ?_), fun u hu => hys u hu (hother u ?_)⟩
  · exact List.mem_append_left _ hu
  · exact List.mem_append_right _ (List.mem_of_mem_head? hu)

/-! ## One firing and a whole check -/

variable {call : ι → γ → κ → Sys ι γ (TimerRings ι) E → Option (Sys ι γ (TimerRings ι) E)}
  {b b' : Sys ι γ (TimerRings ι) E}

/-- The state in which a firing timer's callback runs. -/
def Sys.unlinked (b : Sys ι γ (TimerRings ι) E) (t : ι) : Sys ι γ (TimerRings ι) E :=
  { b with timers := { b.timers with timerList := b.timers.timerList.erase t } }

theorem Abs.timerFire_spec {c : κ} (h : Abs.timerFire call c t b = some b') :
    b.timers.timerList.live (.item t) = true ∧
      ∃ f b₁, (b.timers.timer t).timeoutFunc = some f ∧ call t f c (b.unlinked t) = some b₁ ∧
        ((b₁.timers.timer t).periodic ∧ (b₁.timers.timer t).activated ∧
            Abs.timerStart (b₁.timers.deactivate t) t = some b'.timers ∧ b'.env = b₁.env ∨
          ¬ ((b₁.timers.timer t).periodic ∧ (b₁.timers.timer t).activated) ∧
            b' = { b₁ with timers := b₁.timers.deactivate t }) := by
  unfold Abs.timerFire at h
  obtain ⟨k, hrem, h⟩ := Option.bind_eq_some_iff.mp h
  obtain ⟨hlive, rfl⟩ := Abs.timerRemove_eq_some hrem
  obtain ⟨f, hf, h⟩ := Option.bind_eq_some_iff.mp h
  obtain ⟨b₁, hcall, h⟩ := Option.bind_eq_some_iff.mp h
  refine ⟨hlive, f, b₁, hf, hcall, ?_⟩
  split at h
  · rename_i hc
    obtain ⟨k, hstart, hret⟩ := Option.bind_eq_some_iff.mp h
    cases hret
    exact .inl ⟨hc.1, hc.2, hstart, rfl⟩
  · rename_i hc
    exact .inr ⟨hc, (Option.some.inj h).symm⟩

/-- An iteration whose callback has returned. -/
theorem Abs.timerFire_eq {c : κ} {t : ι} {f : γ} {b₁ : Sys ι γ (TimerRings ι) E}
    (hlive : b.timers.timerList.live (.item t) = true)
    (hf : (b.timers.timer t).timeoutFunc = some f) (hcall : call t f c (b.unlinked t) = some b₁) :
    Abs.timerFire call c t b =
      if (b₁.timers.timer t).periodic ∧ (b₁.timers.timer t).activated then
        (Abs.timerStart (b₁.timers.deactivate t) t).map fun k => { b₁ with timers := k }
      else some { b₁ with timers := b₁.timers.deactivate t } := by
  have hcall' : call t f c
      { b with timers := { b.timers with timerList := b.timers.timerList.erase t } } = some b₁ :=
    hcall
  rw [Abs.timerFire, Abs.timerRemove_of_live hlive]
  simp only [Option.bind_eq_bind, Option.bind_some, hf, hcall', Option.pure_def, Option.map_eq_bind,
    Function.comp_def]

/-- The check is over when no timer is left or the first is not due. -/
def Quiet (b : Sys ι γ (TimerRings ι) E) : Prop :=
  ∀ t ∈ b.timers.queue.head?, ¬ (b.timers.timer t).due b.timers.rtTick

/-- One pass through the loop of `rt_timer_check`. -/
theorem Abs.timerCheck_cases {script : List κ} (h : Abs.timerCheck call script b = some b') :
    (b' = b ∧ Quiet b) ∨
      ∃ c rest t b₁, script = c :: rest ∧ b.timers.queue.head? = some t ∧
        (b.timers.timer t).due b.timers.rtTick ∧ Abs.timerFire call c t b = some b₁ ∧
        Abs.timerCheck call rest b₁ = some b' := by
  unfold Abs.timerCheck at h
  split at h
  · rename_i hempty
    cases h
    refine .inl ⟨rfl, fun t ht => ?_⟩
    have hnil : b.timers.queue = [] := List.isEmpty_iff.mp (Bool.and_eq_true_iff.mp hempty).2
    simp [hnil] at ht
  · obtain ⟨t, ht, h⟩ := Option.bind_eq_some_iff.mp h
    split at h
    · rename_i hdue
      cases script with
      | nil => cases h
      | cons c rest =>
        obtain ⟨b₁, hfire, hrest⟩ := Option.bind_eq_some_iff.mp h
        exact .inr ⟨c, rest, t, b₁, rfl, ht, hdue, hfire, hrest⟩
    · rename_i hdue
      cases h
      refine .inl ⟨rfl, fun u hu => ?_⟩
      rw [ht] at hu
      cases hu
      exact hdue

theorem Abs.timerCheck_quiet {script : List κ} (hhead : b.timers.timerList.live timerHead = true)
    (hq : Quiet b) : Abs.timerCheck call script b = some b := by
  unfold Abs.timerCheck
  cases hqueue : b.timers.queue with
  | nil =>
    have hseq : b.timers.timerList.seq .rtTimerList = [] := hqueue
    simp [isEmpty, hhead, hseq]
  | cons t ts =>
    have hseq : b.timers.timerList.seq .rtTimerList = t :: ts := hqueue
    have hnot := hq t (by simp [hqueue])
    simp [isEmpty, hseq, hnot]

theorem Abs.timerCheck_due {c : κ} {script : List κ} {t : ι} (ht : b.timers.queue.head? = some t)
    (hdue : (b.timers.timer t).due b.timers.rtTick) :
    Abs.timerCheck call (c :: script) b =
      (Abs.timerFire call c t b).bind (Abs.timerCheck call script) := by
  obtain ⟨ts, hqueue⟩ := List.head?_eq_some_iff.mp ht
  have hseq : b.timers.timerList.seq .rtTimerList = t :: ts := hqueue
  rw [Abs.timerCheck]
  simp [isEmpty, hseq, ht, hdue]

/-- What one firing preserves, a whole check preserves. -/
theorem Abs.timerCheck_invariant (I : Sys ι γ (TimerRings ι) E → Prop) (script : List κ) :
    ∀ {b b' : Sys ι γ (TimerRings ι) E},
      (∀ b t c b', c ∈ script → I b → b.timers.queue.head? = some t →
        (b.timers.timer t).due b.timers.rtTick → Abs.timerFire call c t b = some b' → I b') →
      I b → Abs.timerCheck call script b = some b' → I b' ∧ Quiet b' := by
  induction script with
  | nil =>
    intro b b' _ hI h
    rcases Abs.timerCheck_cases h with ⟨rfl, hq⟩ | ⟨c, rest, t, b₁, hnil, -⟩
    · exact ⟨hI, hq⟩
    · cases hnil
  | cons c script ih =>
    intro b b' hfire hI h
    rcases Abs.timerCheck_cases h with ⟨rfl, hq⟩ | ⟨c', rest, t, b₁, hcons, ht, hdue, hf, hrest⟩
    · exact ⟨hI, hq⟩
    · cases hcons
      exact ih (fun b t c b' hc => hfire b t c b' (List.mem_cons_of_mem _ hc))
        (hfire b t c b₁ (List.mem_cons_self ..) hI ht hdue hf) hrest

/-- As many rounds as a measure allows that goes down with every firing are enough. -/
theorem Abs.timerCheck_returns {c : κ} (I : Sys ι γ (TimerRings ι) E → Prop)
    (m : Sys ι γ (TimerRings ι) E → Nat)
    (hhead : ∀ b, I b → b.timers.timerList.live timerHead = true)
    (hfire : ∀ b t, I b → b.timers.queue.head? = some t → (b.timers.timer t).due b.timers.rtTick →
      ∃ b', Abs.timerFire call c t b = some b' ∧ I b' ∧ m b' < m b) (n : Nat) :
    ∀ {b : Sys ι γ (TimerRings ι) E}, I b → m b ≤ n →
      ∃ b', Abs.timerCheck call (List.replicate n c) b = some b' ∧ I b' ∧ Quiet b' := by
  induction n with
  | zero =>
    intro b hI hm
    have hquiet : Quiet b := by
      intro t ht hdue
      obtain ⟨b', -, -, hlt⟩ := hfire b t hI ht hdue
      omega
    exact ⟨b, Abs.timerCheck_quiet (hhead b hI) hquiet, hI, hquiet⟩
  | succ n ih =>
    intro b hI hm
    by_cases hq : Quiet b
    · exact ⟨b, Abs.timerCheck_quiet (hhead b hI) hq, hI, hq⟩
    · simp only [Quiet, not_forall, not_not] at hq
      obtain ⟨t, ht, hdue⟩ := hq
      obtain ⟨b₁, hb₁, hI₁, hlt⟩ := hfire b t hI ht hdue
      obtain ⟨b', hb', h'⟩ := ih hI₁ (by omega)
      refine ⟨b', ?_, h'⟩
      rw [List.replicate_succ, Abs.timerCheck_due ht hdue]
      exact Option.bind_eq_some_iff.mpr ⟨b₁, hb₁, hb'⟩

/-! ## The same on links -/

section Links
variable {s s' : Sys ι γ (TimerLinks ι) E} [Fintype ι]
  {call : ι → γ → κ → Sys ι γ (TimerLinks ι) E → Option (Sys ι γ (TimerLinks ι) E)}

/-- An iteration runs the callback, and that alone can touch the environment. -/
theorem rtTimerFire_spec {c : κ} {t : ι} (h : rtTimerFire call c t s = some s') :
    ∃ k f s₁, rtTimerRemove s.timers t = some k ∧ (k.timer t).timeoutFunc = some f ∧
      call t f c { s with timers := k } = some s₁ ∧ s'.env = s₁.env := by
  obtain ⟨k, hrem, h⟩ := Option.bind_eq_some_iff.mp h
  obtain ⟨f, hf, h⟩ := Option.bind_eq_some_iff.mp h
  obtain ⟨s₁, hcall, h⟩ := Option.bind_eq_some_iff.mp h
  refine ⟨k, f, s₁, hrem, hf, hcall, ?_⟩
  split at h
  · obtain ⟨m, -, hret⟩ := Option.bind_eq_some_iff.mp h
    cases hret
    rfl
  · cases h
    rfl

/-- One pass through the loop of `rt_timer_check`. -/
theorem rtTimerCheck_cases {script : List κ} (h : rtTimerCheck call script s = some s') :
    (s' = s ∧ ∀ t, s.timers.timerList.next timerHead = some (.item t) →
      ¬ (s.timers.timer t).due s.timers.rtTick) ∨
      ∃ c rest t s₁, script = c :: rest ∧
        s.timers.timerList.next timerHead = some (.item t) ∧
        (s.timers.timer t).due s.timers.rtTick ∧ rtTimerFire call c t s = some s₁ ∧
        rtTimerCheck call rest s₁ = some s' := by
  unfold rtTimerCheck at h
  split at h
  · rename_i hempty
    have hself : s.timers.timerList.next timerHead = some timerHead := of_decide_eq_true hempty
    cases h
    refine .inl ⟨rfl, fun t ht => ?_⟩
    rw [hself] at ht
    cases ht
  · obtain ⟨n, hn, h⟩ := Option.bind_eq_some_iff.mp h
    obtain ⟨t, ht, h⟩ := Option.bind_eq_some_iff.mp h
    cases n with
    | head hd => cases ht
    | item u =>
      obtain rfl : u = t := Option.some.inj ht
      split at h
      · rename_i hdue
        cases script with
        | nil => cases h
        | cons c rest =>
          obtain ⟨s₁, hfire, hrest⟩ := Option.bind_eq_some_iff.mp h
          exact .inr ⟨c, rest, u, s₁, rfl, hn, hdue, hfire, hrest⟩
      · rename_i hdue
        cases h
        refine .inl ⟨rfl, fun v hv => ?_⟩
        rw [hn] at hv
        cases hv
        exact hdue

/-- The converse for a timer that is due. -/
theorem rtTimerCheck_fires {c : κ} {rest : List κ} {t : ι} {s₁ : Sys ι γ (TimerLinks ι) E}
    (ht : s.timers.timerList.next timerHead = some (.item t))
    (hdue : (s.timers.timer t).due s.timers.rtTick) (hfire : rtTimerFire call c t s = some s₁) :
    rtTimerCheck call (c :: rest) s = rtTimerCheck call rest s₁ := by
  have hsome : ¬ rtListIsempty s.timers.timerList timerHead = true := by
    intro hempty
    have hself : s.timers.timerList.next timerHead = some timerHead := of_decide_eq_true hempty
    rw [ht] at hself
    cases hself
  rw [rtTimerCheck, if_neg hsome, ht]
  show (if (s.timers.timer t).due s.timers.rtTick then _ else _) = _
  rw [if_pos hdue, hfire]
  rfl

/-- A check that fires nothing reads the timers only. -/
theorem rtTimerCheck_stops {script : List κ} {r : Sys ι γ (TimerLinks ι) E}
    (hsame : r.timers = s.timers)
    (hdue : ∀ t, s.timers.timerList.next timerHead = some (.item t) →
      ¬ (s.timers.timer t).due s.timers.rtTick)
    (h : rtTimerCheck call script s = some s) : rtTimerCheck call script r = some r := by
  unfold rtTimerCheck at h ⊢
  rw [hsame]
  split at h
  · rename_i hempty
    rw [if_pos hempty]
  · rename_i hempty
    obtain ⟨n, hn, h⟩ := Option.bind_eq_some_iff.mp h
    obtain ⟨t, ht, h⟩ := Option.bind_eq_some_iff.mp h
    have hnot : ¬ (s.timers.timer t).due s.timers.rtTick := by
      cases n with
      | head hd => cases ht
      | item u =>
        obtain rfl : u = t := Option.some.inj ht
        exact hdue u hn
    rw [if_neg hempty, hn, Option.bind_eq_bind, Option.bind_some, ht, Option.bind_eq_bind,
      Option.bind_some, if_neg hnot]
    rfl

end Links

end Spec

end SampleRtos
