import SampleRtos.Kernel.Expiry

/-!
# Semaphore takes as their callers see them

An `rt_sem_take` that waits returns when its thread executes again, and only then
reads the thread's error. Runs are therefore watched at the events of the
program: the operations, and the returns of takes. The history keeps who is
inside which take, who of them a release has woken, and how many takes have
returned `RT_EOK`. Programs here take and release semaphores they have
initialised, sleep, suspend, resume and lock the scheduler; ticks come at any
time, and a thread inside a take does nothing else.
-/

namespace SampleRtos

open Intrusive

/-- An operation, or the return of the take the current thread is inside. -/
inductive TakeEvent (τ σ : Type) where
  | op (o : Op τ σ Empty)
  | takeReturn

/-- The history of takes and releases. `woken` are the threads inside a take that a
release has woken; `holders` who has taken and not yet released, with `none` for
the program before the scheduler runs; `foreign` counts releases by others. -/
structure Takes (τ σ : Type) where
  inside : τ → Option σ
  woken : σ → Finset τ
  initial : σ → Option Nat
  acquired : σ → Nat
  released : σ → Nat
  holders : σ → List (Option τ)
  foreign : σ → Nat

namespace Takes
variable {τ σ L : Type} [DecidableEq τ] [DecidableEq σ]

def start : Takes τ σ where
  inside := fun _ => none
  woken := fun _ => ∅
  initial := fun _ => none
  acquired := fun _ => 0
  released := fun _ => 0
  holders := fun _ => []
  foreign := fun _ => 0

/-- A take of `s` by `who` has returned `RT_EOK`. -/
def acquire (g : Takes τ σ) (s : σ) (who : Option τ) : Takes τ σ :=
  { g with
    acquired := Function.update g.acquired s (g.acquired s + 1)
    holders := Function.update g.holders s (who :: g.holders s) }

/-- `who` releases `s`, whose first waiter is `first`. -/
def release (g : Takes τ σ) (s : σ) (who first : Option τ) : Takes τ σ :=
  { g with
    woken := Function.update g.woken s (first.elim (g.woken s) fun t => insert t (g.woken s))
    released := Function.update g.released s (g.released s + 1)
    holders := Function.update g.holders s ((g.holders s).erase who)
    foreign := if who ∈ g.holders s then g.foreign
      else Function.update g.foreign s (g.foreign s + 1) }

/-- `t` waits in a take of `s`. -/
def enter (g : Takes τ σ) (t : τ) (s : σ) : Takes τ σ :=
  { g with inside := Function.update g.inside t (some s) }

/-- The take of `s` in `t` is over. -/
def leave (g : Takes τ σ) (t : τ) (s : σ) : Takes τ σ :=
  { g with
    inside := Function.update g.inside t none
    woken := Function.update g.woken s ((g.woken s).erase t) }

/-- What is written down about an event. -/
def note (k : SchedSys τ σ L) (waiters : σ → List τ) (g : Takes τ σ) :
    TakeEvent τ σ → Takes τ σ
  | .op (.call (.semInit s value _)) =>
      { g with initial := Function.update g.initial s (some value.toNat) }
  | .op (.call (.semTrytake s)) =>
      if 0 < (k.sem s).value then g.acquire s k.rtCurrentThread else g
  | .op (.call (.semRelease s)) => g.release s k.rtCurrentThread (waiters s).head?
  | .op (.semTake s time) =>
      if 0 < (k.sem s).value then g.acquire s k.rtCurrentThread
      else if time = 0 then g
      else
        match k.rtCurrentThread with
        | some t => g.enter t s
        | none => g
  | .op _ => g
  | .takeReturn =>
      match k.rtCurrentThread with
      | none => g
      | some t =>
          match g.inside t with
          | none => g
          | some s =>
              if rtSemTakeReturn k t = RT_EOK then (g.leave t s).acquire s (some t)
              else g.leave t s

/-- A thread inside a take has nothing else to do than to return from it. -/
def Turn (k : SchedSys τ σ L) (g : Takes τ σ) : TakeEvent τ σ → Prop
  | .takeReturn => ∃ t ∈ k.rtCurrentThread, (g.inside t).isSome
  | .op (.tickIncrease _) => True
  | .op _ => ∀ t ∈ k.rtCurrentThread, g.inside t = none

/-- The operations of the program: no semaphore is initialised twice, used before
it is initialised or released past its counter, no thread started twice. -/
def Performs (k : SchedSys τ σ L) (g : Takes τ σ) : TakeEvent τ σ → Prop
  | .op (.call (.threadStartup t)) => (k.thread t).stat = .init
  | .op (.call (.semInit s value _)) => g.initial s = none ∧ value.toNat ≤ 65535
  | .op (.call (.semTrytake s)) => (g.initial s).isSome
  | .op (.call (.semRelease s)) => (g.initial s).isSome ∧ (k.sem s).value ≠ 65535
  | .op (.semTake s _) => (g.initial s).isSome
  | .op (.call (.threadInit ..)) | .op (.call (.threadSuspend _)) => True
  | .op (.call (.threadResume _)) | .op (.call .enterCritical) => True
  | .op (.call .exitCritical) => True
  | .op (.call _) => False
  | .op _ | .takeReturn => True

instance (k : SchedSys τ σ L) (g : Takes τ σ) (e : TakeEvent τ σ) :
    Decidable (Turn k g e) := by
  rcases e with (_ | _ | _ | _ | _) | _ <;> dsimp only [Turn] <;> infer_instance

instance (k : SchedSys τ σ L) (g : Takes τ σ) (e : TakeEvent τ σ) :
    Decidable (Performs k g e) := by
  rcases e with (c | _ | _ | _ | _) | _
  · rcases c <;> dsimp only [Performs] <;> infer_instance
  all_goals dsimp only [Performs]; infer_instance

/-- Programs as described, whose events meet `ok` besides. -/
def observer [Fintype τ] (ok : RtKernel τ σ Empty → Takes τ σ → TakeEvent τ σ → Prop) :
    Observer τ σ Empty (TakeEvent τ σ) (Takes τ σ) where
  perform
    | .op o => some o
    | .takeReturn => none
  note k g e := g.note k.env k.waiters e
  ok k g e := Turn k.env g e ∧ Performs k.env g e ∧ ok k g e

instance [Fintype τ] (ok : RtKernel τ σ Empty → Takes τ σ → TakeEvent τ σ → Prop)
    [∀ k g e, Decidable (ok k g e)] (k : RtKernel τ σ Empty) (g : Takes τ σ)
    (e : TakeEvent τ σ) : Decidable ((observer ok).ok k g e) :=
  inferInstanceAs (Decidable (_ ∧ _ ∧ _))

variable {k : RtKernel τ σ Empty} {a : SeqKernel τ σ Empty}

theorem note_rel [Fintype τ] (h : KernelRel k a) (g : Takes τ σ) (e : TakeEvent τ σ) :
    g.note k.env k.waiters e = g.note a.env a.env.waiters e := by
  obtain ⟨l, hl⟩ := h.env.eq_withList
  rw [hl, show k.waiters = a.env.waiters from funext h.waiters]
  rfl

theorem turn_rel (h : KernelRel k a) (g : Takes τ σ) (e : TakeEvent τ σ) :
    Turn k.env g e ↔ Turn a.env g e := by
  obtain ⟨l, hl⟩ := h.env.eq_withList
  rw [hl]
  exact Iff.rfl

theorem performs_rel (h : KernelRel k a) (g : Takes τ σ) (e : TakeEvent τ σ) :
    Performs k.env g e ↔ Performs a.env g e := by
  obtain ⟨l, hl⟩ := h.env.eq_withList
  rw [hl]
  exact Iff.rfl

/-! ## Where the threads of open takes are -/

/-- `t` is inside a take that no release has granted and no tick has timed out. -/
def Undecided (e : SchedSys τ σ L) (g : Takes τ σ) (t : τ) : Prop :=
  ∃ s ∈ g.inside t, t ∉ g.woken s ∧ (e.thread t).error ≠ -RT_ETIMEOUT

instance (e : SchedSys τ σ L) (g : Takes τ σ) (t : τ) : Decidable (Undecided e g t) :=
  inferInstanceAs (Decidable (∃ s ∈ g.inside t, _ ∧ _))

/-- Only undecided takes have their threads on a waiting list, and such a thread
is suspended and not running. -/
structure Positions (e : SchedSys τ σ (ThreadRings τ σ)) (g : Takes τ σ) : Prop where
  waiting : ∀ s, ∀ t ∈ e.waiters s,
    g.inside t = some s ∧ t ∉ g.woken s ∧ (e.thread t).error = RT_EOK
  undecided : ∀ t, Undecided e g t → (e.thread t).stat = .suspend ∧ e.rtCurrentThread ≠ some t
  woken : ∀ s, ∀ t ∈ g.woken s, g.inside t = some s
  active : ∀ t s, g.inside t = some s → (e.thread t).Active
  running : ∀ t, e.rtCurrentThread = some t → (e.thread t).Active

/-- A change that leaves open takes alone. -/
structure Settled (e : SchedSys τ σ (ThreadRings τ σ)) (g : Takes τ σ)
    (e' : SchedSys τ σ (ThreadRings τ σ)) : Prop where
  waiters : e'.waiters = e.waiters
  error : ∀ u, (e.thread u).Active → (e'.thread u).error = (e.thread u).error
  active : ∀ u, (e.thread u).Active → (e'.thread u).Active
  stat : ∀ u, Undecided e g u → (e.thread u).stat = .suspend → (e'.thread u).stat = .suspend
  current : e'.rtCurrentThread = e.rtCurrentThread ∨
    ∃ u, e'.rtCurrentThread = some u ∧ (e'.thread u).stat = .ready

namespace Positions
variable {e e' : SchedSys τ σ (ThreadRings τ σ)} {g g' : Takes τ σ} {t : τ} {s : σ}

section
omit [DecidableEq τ] [DecidableEq σ]

theorem history (h : Positions e g) (hinside : g'.inside = g.inside)
    (hwoken : g'.woken = g.woken) : Positions e g' where
  waiting := by rw [hinside, hwoken]; exact h.waiting
  undecided := by
    unfold Undecided
    rw [hinside, hwoken]
    exact h.undecided
  woken := by rw [hinside, hwoken]; exact h.woken
  active := by rw [hinside]; exact h.active
  running := h.running

/-- Who waits is undecided. -/
theorem undecided_of_mem (h : Positions e g) (ht : t ∈ e.waiters s) : Undecided e g t := by
  obtain ⟨hin, hnot, herr⟩ := h.waiting s t ht
  exact ⟨s, hin, hnot, by rw [herr]; decide⟩

/-- The current thread waits nowhere. -/
theorem not_waiting (h : Positions e g) (hcur : e.rtCurrentThread = some t) (s : σ) :
    t ∉ e.waiters s :=
  fun ht => (h.undecided t (h.undecided_of_mem ht)).2 hcur

/-- Whoever runs after a change ran before it or is ready. -/
theorem running_of_current (h : Positions e g)
    (hactive : ∀ u, (e.thread u).Active → (e'.thread u).Active)
    (hcurrent : e'.rtCurrentThread = e.rtCurrentThread ∨
      ∃ u, e'.rtCurrentThread = some u ∧ (e'.thread u).stat = .ready) :
    ∀ t, e'.rtCurrentThread = some t → (e'.thread t).Active := by
  intro t ht
  rcases hcurrent with heq | ⟨u, hcur, hst⟩
  · exact hactive t (h.running t (heq ▸ ht))
  · obtain rfl : u = t := Option.some.inj (hcur.symm.trans ht)
    exact .inl hst

/-- A thread that is suspended before and after a change does not begin to run. -/
theorem current_ne (hold : e.rtCurrentThread ≠ some t) (hst : (e'.thread t).stat = .suspend)
    (hcurrent : e'.rtCurrentThread = e.rtCurrentThread ∨
      ∃ u, e'.rtCurrentThread = some u ∧ (e'.thread u).stat = .ready) :
    e'.rtCurrentThread ≠ some t := by
  intro ht
  rcases hcurrent with heq | ⟨u, hcur, hu⟩
  · exact hold (heq ▸ ht)
  · obtain rfl : u = t := Option.some.inj (hcur.symm.trans ht)
    simp [hst] at hu

theorem settled (h : Positions e g) (hs : Settled e g e') : Positions e' g where
  waiting s t ht := by
    rw [hs.waiters] at ht
    obtain ⟨hin, hnot, herr⟩ := h.waiting s t ht
    exact ⟨hin, hnot, (hs.error t (h.active t s hin)).trans herr⟩
  undecided t := by
    rintro ⟨s, hin, hnot, herr⟩
    have hund : Undecided e g t := ⟨s, hin, hnot, by rwa [hs.error t (h.active t s hin)] at herr⟩
    obtain ⟨hst, hcur⟩ := h.undecided t hund
    have hst' := hs.stat t hund hst
    exact ⟨hst', current_ne hcur hst' hs.current⟩
  woken := h.woken
  active t s hin := hs.active t (h.active t s hin)
  running := h.running_of_current hs.active hs.current

end

/-- A release wakes the first waiter of `s`. -/
theorem released (h : Positions e g) (hw : SchedWf e) {ts : List τ} (hts : e.waiters s = t :: ts)
    (hwake : Waking e e')
    (hthread : e'.thread = Function.update e.thread t { e.thread t with stat := .ready })
    (hwaiters : ∀ s, e'.waiters s = (e.waiters s).erase t) (who : Option τ) :
    Positions e' (g.release s who (some t)) := by
  obtain ⟨hin, -, -⟩ := h.waiting s t (by simp [hts])
  have herror : ∀ u, (e'.thread u).error = (e.thread u).error := by
    intro u
    rw [hthread]
    by_cases hut : u = t
    · subst hut; simp
    · simp [hut]
  have hwoken : ∀ s' u, u ∈ (g.release s who (some t)).woken s' ↔
      u ∈ g.woken s' ∨ u = t ∧ s' = s := by
    intro s' u
    by_cases hs : s' = s
    · subst hs; simp [release, or_comm]
    · simp [release, hs]
  refine ⟨fun s' u hu => ?_, fun u hund => ?_, fun s' u hu => ?_, fun u s' hu => ?_, ?_⟩
  · rw [hwaiters] at hu
    have hut : u ≠ t := by
      rintro rfl
      exact (hw.valid.nodup (.suspend s')).not_mem_erase hu
    obtain ⟨hin, hnot, herr⟩ := h.waiting s' u (List.mem_of_mem_erase hu)
    exact ⟨hin, by simp [hwoken, hnot, hut], (herror u).trans herr⟩
  · obtain ⟨s', hin', hnot, herr⟩ := hund
    rw [hwoken, not_or] at hnot
    have hut : u ≠ t := by
      rintro rfl
      exact hnot.2 ⟨rfl, Option.some.inj (hin'.symm.trans hin)⟩
    obtain ⟨hst, hcur⟩ := h.undecided u ⟨s', hin', hnot.1, by rwa [herror] at herr⟩
    have hst' : (e'.thread u).stat = .suspend := by rw [hthread]; simpa [hut] using hst
    exact ⟨hst', current_ne hcur hst' hwake.current⟩
  · rcases (hwoken s' u).mp hu with hu | ⟨rfl, rfl⟩
    · exact h.woken s' u hu
    · exact hin
  · exact hwake.active u (h.active u s' hu)
  · exact h.running_of_current hwake.active hwake.current

section
omit [DecidableEq σ]

/-- Threads time out. -/
theorem expires {ts : List τ} (h : Positions e g) (hwake : Waking e e')
    (hexp : Expires e ts e') : Positions e' g where
  waiting s u hu := by
    rw [hexp.waiters] at hu
    obtain ⟨hu, hnot⟩ := List.mem_filter.mp hu
    rw [hexp.thread, if_neg (by simpa using hnot)]
    exact h.waiting s u hu
  undecided u := by
    rintro ⟨s, hin, hnot, herr⟩
    have hu : u ∉ ts := by
      intro hu
      rw [hexp.thread, if_pos hu] at herr
      exact herr rfl
    rw [hexp.thread, if_neg hu] at herr
    obtain ⟨hst, hcur⟩ := h.undecided u ⟨s, hin, hnot, herr⟩
    have hst' : (e'.thread u).stat = .suspend := by rw [hexp.thread, if_neg hu]; exact hst
    exact ⟨hst', current_ne hcur hst' hwake.current⟩
  woken := h.woken
  active u s hin := hwake.active u (h.active u s hin)
  running := h.running_of_current hwake.active hwake.current

end

/-- The current thread begins to wait and another one runs. -/
theorem entered {a a' : SeqKernel τ σ Empty} (h : Positions a.env g) {time : BitVec 32}
    (hcur : a.env.rtCurrentThread = some t) (hin : g.inside t = none)
    (hlock : a.env.rtSchedulerLockNest = 0) (hwaits : Waits a s t time a') :
    Positions a'.env (g.enter t s) := by
  have hself : (g.enter t s).inside t = some s := by simp [enter]
  have hother : ∀ u, u ≠ t → (g.enter t s).inside u = g.inside u := fun u hu => by
    simp [enter, hu]
  have hthread : ∀ u, u ≠ t → a'.env.thread u = a.env.thread u := fun u hu => by
    rw [hwaits.thread]; simp [hu]
  -- nobody but `t` has joined a list
  have hmem : ∀ s' u, u ∈ a'.env.waiters s' → u = t ∧ s' = s ∨ u ∈ a.env.waiters s' := by
    intro s' u hu
    by_cases hs : s' = s
    · subst hs
      rcases hwaits.joins with ⟨-, -, heq⟩ | ⟨xs, ys, heq, heq', -⟩
      · exact .inr (heq ▸ hu)
      · rw [heq'] at hu
        rw [heq]
        rcases List.mem_append.mp hu with hu | hu
        · exact .inr (List.mem_append_left _ hu)
        · rcases List.mem_cons.mp hu with rfl | hu
          · exact .inl ⟨rfl, rfl⟩
          · exact .inr (List.mem_append_right _ hu)
    · rw [hwaits.waiters_ne s' hs] at hu
      exact .inr hu
  -- and whoever runs instead is ready
  obtain ⟨v, hv, hcur'⟩ := hwaits.dispatch
  rw [if_pos hlock] at hcur'
  have hnot : ∀ u, (a'.env.thread u).stat = .suspend → a'.env.rtCurrentThread ≠ some u := by
    intro u hu hrun
    obtain rfl : v = u := Option.some.inj (hcur'.symm.trans hrun)
    simp [hu] at hv
  refine ⟨fun s' u hu => ?_, fun u hund => ?_, fun s' u hu => ?_, fun u s' hu => ?_,
    fun u hu => ?_⟩
  · rcases hmem s' u hu with ⟨rfl, rfl⟩ | hu
    · refine ⟨hself, fun hw => ?_, by rw [hwaits.thread]; simp⟩
      rw [h.woken s' u hw] at hin
      cases hin
    · have hut : u ≠ t := fun hut => h.not_waiting hcur s' (hut ▸ hu)
      rw [hother u hut, hthread u hut]
      exact h.waiting s' u hu
  · by_cases hut : u = t
    · subst hut
      have hst : (a'.env.thread u).stat = .suspend := by rw [hwaits.thread]; simp
      exact ⟨hst, hnot u hst⟩
    · obtain ⟨s', hin', hw, herr⟩ := hund
      rw [hother u hut] at hin'
      rw [hthread u hut] at herr
      have hst := (h.undecided u ⟨s', hin', hw, herr⟩).1
      rw [← hthread u hut] at hst
      exact ⟨hst, hnot u hst⟩
  · have hut : u ≠ t := by
      rintro rfl
      rw [h.woken s' u hu] at hin
      cases hin
    rw [hother u hut]
    exact h.woken s' u hu
  · by_cases hut : u = t
    · subst hut
      rw [hwaits.thread]
      simp [RtThread.Active]
    · rw [hother u hut] at hu
      rw [hthread u hut]
      exact h.active u s' hu
  · obtain rfl : v = u := Option.some.inj (hcur'.symm.trans hu)
    exact .inl hv

/-- The current thread returns from its take. -/
theorem left (h : Positions e g) (hcur : e.rtCurrentThread = some t) (hin : g.inside t = some s) :
    Positions e (g.leave t s) := by
  have hother : ∀ u, u ≠ t → (g.leave t s).inside u = g.inside u := fun u hu => by
    simp [leave, hu]
  have hwoken : ∀ s' u, u ≠ t → (u ∈ (g.leave t s).woken s' ↔ u ∈ g.woken s') := by
    intro s' u hu
    by_cases hs : s' = s
    · subst hs; simp [leave, hu]
    · simp [leave, hs]
  refine ⟨fun s' u hu => ?_, fun u hund => ?_, fun s' u hu => ?_, fun u s' hu => ?_, h.running⟩
  · have hut : u ≠ t := fun hut => h.not_waiting hcur s' (hut ▸ hu)
    rw [hother u hut, hwoken s' u hut]
    exact h.waiting s' u hu
  · obtain ⟨s', hin, hnot, herr⟩ := hund
    have hut : u ≠ t := by
      rintro rfl
      simp [leave] at hin
    rw [hother u hut] at hin
    rw [hwoken s' u hut] at hnot
    exact h.undecided u ⟨s', hin, hnot, herr⟩
  · have hut : u ≠ t := by
      rintro rfl
      by_cases hs : s' = s
      · subst hs; simp [leave] at hu
      · have hu' : u ∈ g.woken s' := by simpa [leave, hs] using hu
        exact hs (Option.some.inj ((h.woken s' u hu').symm.trans hin))
    rw [hother u hut]
    exact h.woken s' u ((hwoken s' u hut).mp hu)
  · have hut : u ≠ t := by
      rintro rfl
      simp [leave] at hu
    rw [hother u hut] at hu
    exact h.active u s' hu

end Positions

/-! ## Operations that leave open takes alone -/

namespace Settled
variable {e e' e'' : SchedSys τ σ (ThreadRings τ σ)} {g : Takes τ σ} {t : τ} {s : σ}

section
omit [DecidableEq τ] [DecidableEq σ]

theorem same (hthread : e'.thread = e.thread) (hwaiters : e'.waiters = e.waiters)
    (hcurrent : e'.rtCurrentThread = e.rtCurrentThread ∨
      ∃ u, e'.rtCurrentThread = some u ∧ (e'.thread u).stat = .ready) : Settled e g e' where
  waiters := hwaiters
  error u _ := by rw [hthread]
  active u hu := by rwa [hthread]
  stat u _ hu := by rwa [hthread]
  current := hcurrent

end

section
omit [DecidableEq σ]

theorem schedule (h : Settled e g e') (hw : SchedWf e') (hsched : Abs.schedule e' = some e'') :
    Settled e g e'' := by
  have hsame := schedule_same hsched
  refine ⟨hsame.waiters.trans h.waiters, fun u hu => by rw [hsame.thread]; exact h.error u hu,
    fun u hu => by rw [hsame.thread]; exact h.active u hu,
    fun u hund hu => by rw [hsame.thread]; exact h.stat u hund hu, ?_⟩
  rcases (Waking.schedule hw hsched).current with heq | hready
  · rw [heq, hsame.thread]
    exact h.current
  · exact .inr hready

/-- A thread on no waiting list gets a new record. -/
theorem update {r : RtThread} (hthread : e'.thread = Function.update e.thread t r)
    (hwaiters : e'.waiters = e.waiters)
    (hcurrent : e'.rtCurrentThread = e.rtCurrentThread)
    (herr : (e.thread t).Active → r.error = (e.thread t).error)
    (hact : (e.thread t).Active → r.Active)
    (hstat : Undecided e g t → (e.thread t).stat = .suspend → r.stat = .suspend) :
    Settled e g e' where
  waiters := hwaiters
  error u hu := by
    rw [hthread]
    by_cases hut : u = t
    · subst hut; simpa using herr hu
    · simp [hut]
  active u hu := by
    rw [hthread]
    by_cases hut : u = t
    · subst hut; simpa using hact hu
    · simpa [hut] using hu
  stat u hund hu := by
    rw [hthread]
    by_cases hut : u = t
    · subst hut; simpa using hstat hund hu
    · simpa [hut] using hu
  current := .inl hcurrent

end

/-- A thread on no waiting list goes to the end of its ready list. -/
theorem relist {r : RtThread} (hfree : ∀ s, t ∉ e.waiters s) (hst : r.stat = .ready)
    (herr : r.error = (e.thread t).error) (hdecided : ¬ Undecided e g t) :
    Settled e g (e.relistReady t r) := by
  refine .update rfl (funext fun s => ?_) rfl (fun _ => herr) (fun _ => .inl hst)
    fun hund => absurd hund hdecided
  rw [SchedSys.relistReady_waiters, List.erase_of_not_mem (hfree s)]

theorem tickSlice (hw : SchedWf e) (h : Abs.tickSlice e = some e') : Settled e g e' := by
  have hready : ∀ t, (e.thread t).stat = .ready → ∀ s, t ∉ e.waiters s := by
    intro t hst s ht
    simp [hw.waiting t s ht] at hst
  obtain ⟨t, -, ⟨-, rfl⟩ | ⟨-, ⟨rfl, -⟩ | ⟨hst, hsched⟩⟩⟩ := tickSlice_spec hw h
  · exact .update rfl rfl rfl (fun _ => rfl) id fun _ => id
  · exact .update rfl rfl rfl (fun _ => rfl) id fun _ => id
  · have hw' : SchedWf (e.relistReady t ((e.thread t).withRemaining (e.thread t).initTick)) :=
      hw.wake (.inl hst) hst rfl rfl rfl
    have h₁ : Settled e g
        (e.relistReady t ((e.thread t).withRemaining (e.thread t).initTick)) := by
      refine .update rfl (funext fun s => ?_) rfl (fun _ => rfl) id fun _ => id
      rw [SchedSys.relistReady_waiters, List.erase_of_not_mem (hready t hst s)]
    exact h₁.schedule hw' hsched

end Settled

variable {a a' : SeqKernel τ σ Empty} {g : Takes τ σ} {s : σ}

/-- The calls of a program, apart from its releases, leave open takes alone if none
resumes the thread of one. -/
theorem settled_call [Fintype τ] (hw : KernelWf a) {c : Call τ σ Empty}
    (hc : Abs.CallAllowed a c) (hperf : Performs a.env g (.op (.call c)))
    (hrelease : ∀ s, c ≠ .semRelease s)
    (hresume : ∀ t, c = .threadResume t → ¬ Undecided a.env g t)
    (hpos : Positions a.env g) (hrun : Abs.execCall a c = some a') : Settled a.env g a'.env := by
  have hready : ∀ t, (a.env.thread t).stat ≠ .suspend → ∀ s, t ∉ a.env.waiters s :=
    fun t hst s ht => hst (hw.sched.waiting t s ht)
  unfold Abs.execCall at hrun
  cases c with
  | threadInit t priority tick =>
    cases hrun
    have hact : ¬ (a.env.thread t).Active := by
      rintro (hst | hst) <;> rcases hc.1 with h | h <;> simp [hst] at h
    exact .update rfl rfl rfl (fun h => absurd h hact) (fun h => absurd h hact)
      fun _ hst => absurd (.inr hst) hact
  | threadStartup t =>
    have hst : (a.env.thread t).stat = .init := hperf
    have hdecided : ¬ Undecided a.env g t := fun hund => by
      simp [(hpos.undecided t hund).1] at hst
    have h₁ : Settled a.env g (a.env.relistReady t (a.env.thread t).started) :=
      .relist (hready t (by simp [hst])) rfl rfl hdecided
    obtain ⟨hlive, ⟨-, henv⟩ | ⟨-, hsched⟩⟩ := startup_spec (onSched_spec hrun).1
    · rw [henv]
      exact h₁
    · have hprio : (a.env.thread t).started.currentPriority = (a.env.thread t).currentPriority :=
        hw.sched.init_prio t
      exact h₁.schedule (hw.sched.relistReady hlive rfl hprio rfl rfl) hsched
  | threadResume t =>
    obtain ⟨_, hr⟩ := returned_of_map (onSched_spec hrun).1
    have hdecided := hresume t rfl
    rcases resume_spec hr with ⟨-, -, henv⟩ | ⟨-, -, -, henv⟩ <;> rw [henv]
    · exact .same rfl rfl (.inl rfl)
    · exact .relist (fun s ht => hdecided (hpos.undecided_of_mem ht)) rfl rfl hdecided
  | threadSuspend t =>
    obtain ⟨_, hr⟩ := returned_of_map hrun
    rcases threadSuspend_spec hw.sched hr with ⟨-, -, rfl⟩ | ⟨hst, -, henv, -⟩
    · exact .same rfl rfl (.inl rfl)
    · rw [henv]
      refine .update rfl (funext fun s => ?_) rfl (fun _ => rfl) (fun _ => .inr rfl)
        fun _ _ => rfl
      rw [SchedSys.unlist_waiters, List.erase_of_not_mem (hready t (by simp [hst]) s)]
  | semInit s value flag => cases hrun; exact .same rfl rfl (.inl rfl)
  | semTrytake s =>
    obtain ⟨_, hr⟩ := returned_of_map hrun
    rcases semTake_spec hr with ⟨-, -, rfl⟩ | ⟨-, -, -, rfl⟩ | ⟨hb, -⟩
    · exact .same rfl rfl (.inl rfl)
    · exact .same rfl rfl (.inl rfl)
    · exact absurd rfl hb.2
  | semRelease s => exact absurd rfl (hrelease s)
  | enterCritical =>
    cases hrun
    refine .same ?_ ?_ (.inl ?_) <;> simp only [SchedSys.rtEnterCritical] <;> split <;> rfl
  | exitCritical =>
    obtain ⟨n, henv | hsched⟩ := exitCritical_spec (onSched_spec hrun).1
    · rw [henv]
      exact .same rfl rfl (.inl rfl)
    · have h₁ : Settled a.env g { a.env with rtSchedulerLockNest := n } :=
        .same rfl rfl (.inl rfl)
      exact h₁.schedule (hw.sched.congr rfl rfl rfl) hsched
  | timerInit v => cases v
  | timerStart v => cases v
  | timerStop v => cases v
  | timerControl v => cases v
  | timerDetach v => cases v
  | _ => exact hperf.elim

section
omit [DecidableEq σ]

theorem settled_sleep {t : τ} (hs : Sleeps a t a') (hin : g.inside t = none) :
    Settled a.env g a'.env := by
  have hne : ∀ u, Undecided a.env g u → u ≠ t := by
    rintro u ⟨s, hu, -⟩ rfl
    rw [hin] at hu
    cases hu
  refine ⟨hs.waiters, fun u _ => ?_, fun u hu => ?_, fun u hund hu => ?_, ?_⟩
  · rw [hs.thread]
    by_cases hut : u = t
    · subst hut; simp
    · simp [hut]
  · rw [hs.thread]
    by_cases hut : u = t
    · subst hut; simp [RtThread.Active]
    · simpa [hut] using hu
  · rw [hs.thread]
    simpa [hne u hund] using hu
  · obtain ⟨u, hu, hcur'⟩ := hs.dispatch
    split at hcur'
    · exact .inr ⟨u, hcur', hu⟩
    · exact .inl hcur'

end

/-- Calls that release nothing decide no take. -/
theorem note_call (k : SchedSys τ σ L) (waiters : σ → List τ) (g : Takes τ σ)
    {c : Call τ σ Empty} (hc : ∀ s, c ≠ .semRelease s) :
    (g.note k waiters (.op (.call c))).inside = g.inside ∧
      (g.note k waiters (.op (.call c))).woken = g.woken := by
  cases c with
  | semTrytake s =>
    simp only [note]
    split <;> exact ⟨rfl, rfl⟩
  | semRelease s => exact absurd rfl (hc s)
  | _ => exact ⟨rfl, rfl⟩

/-- **Open takes stay where they belong** under every operation that neither waits
under the scheduler lock nor resumes the thread of an undecided take. -/
theorem Positions.exec [Fintype τ] (hw : KernelWf a) (h : Positions a.env g) {o : Op τ σ Empty}
    (hop : Abs.Allowed a o) (hturn : Turn a.env g (.op o)) (hperf : Performs a.env g (.op o))
    (hlock : ∀ s time, o = .semTake s time → TakeBlocks a s time →
      a.env.rtSchedulerLockNest = 0)
    (hresume : ∀ t, o = .call (.threadResume t) → ¬ Undecided a.env g t)
    (hrun : Abs.exec a o = some a') :
    Positions a'.env (g.note a.env a.env.waiters (.op o)) := by
  unfold Abs.exec at hrun
  cases o with
  | call c =>
    have hresume' : ∀ t, c = .threadResume t → ¬ Undecided a.env g t := fun t hc =>
      hresume t (hc ▸ rfl)
    -- a release is the only call that the history notes
    by_cases hrelease : ∃ s, c = .semRelease s
    · obtain ⟨s, rfl⟩ := hrelease
      have hrun : a.onSched (fun e => Abs.semRelease e s) = some a' := hrun
      obtain ⟨hrel, -⟩ := onSched_spec hrun
      have hwake := Waking.semRelease hw.sched hrel
      rcases semRelease_spec hw.sched hrel with ⟨hnil, henv⟩ | ⟨t, ts, hts, -, hsched⟩
      · have hpos : Positions a'.env g := by
          rw [henv]
          exact h.settled (.same rfl rfl (.inl rfl))
        rw [note, hnil]
        exact hpos.history rfl (Function.update_eq_self _ _)
      · have hsame := schedule_same hsched
        rw [note, hts]
        exact h.released hw.sched hts hwake (by rw [hsame.thread]; rfl)
          (fun s' => by rw [hsame.waiters, SchedSys.relistReady_waiters]) _
    · have hset := settled_call hw hop hperf (fun s hc => hrelease ⟨s, hc⟩) hresume' h hrun
      obtain ⟨hinside, hwoken⟩ := note_call a.env a.env.waiters g fun s hc => hrelease ⟨s, hc⟩
      exact (h.settled hset).history hinside hwoken
  | threadSleep tick =>
    obtain ⟨t, hcur, hcan⟩ := hop
    exact h.settled (settled_sleep (threadSleep_sleeps hw hcan hcur hrun) (hturn t hcur))
  | semTake s time =>
    obtain ⟨_, hr⟩ := returned_of_map hrun
    rcases semTake_spec hr with ⟨hval, -, rfl⟩ | ⟨hval, htime, -, rfl⟩ | ⟨hb, t, hcur, -, hwait⟩
    · have hpos : Positions
          (a.env.setSem s { a.env.sem s with value := (a.env.sem s).value - 1 }) g :=
        h.settled (.same rfl rfl (.inl rfl))
      rw [note, if_pos hval]
      exact hpos.history rfl rfl
    · rw [note, if_neg (by simp [hval]), if_pos htime]
      exact h
    · obtain ⟨t', hcur', hcan⟩ := hop hb
      obtain rfl : t = t' := Option.some.inj (hcur.symm.trans hcur')
      rw [note, if_neg (by simp [hb.1]), if_neg hb.2, hcur]
      exact h.entered hcur (hturn t hcur) (hlock s time rfl hb) (takeWait_waits hw hcan hwait)
  | tickIncrease script =>
    obtain ⟨e, hslice, hwake, hexp, -⟩ := tick_expires hw hrun
    exact (h.settled (.tickSlice hw.sched hslice)).expires hwake hexp
  | schedulerStart =>
    obtain ⟨hstart, -⟩ := onSched_spec hrun
    obtain ⟨t, -, henv⟩ := schedStart_spec hstart
    refine h.settled (.same ?_ ?_ (Waking.schedStart hw.sched hstart).current) <;> rw [henv] <;>
      rfl

end Takes

end SampleRtos
