import SampleRtos.Lib.Exclusion
import SampleRtos.Kernel.Elsewhere

/-!
# A semaphore as a lock

A semaphore whose value is 1 lets one thread at a time between `rt_sem_take` and
`rt_sem_release`. Threads are preempted anywhere, also in the middle of the two functions: a
release hands the unit to a waiter that has yet to run, to reschedule and to read its `error`, and
until then the unit belongs to nobody who could show it. What is counted is therefore the value,
the threads inside, and the waiters that have been granted a unit and have not returned.
-/

namespace SampleRtos

open Intrusive Exclusion

/-- Where a thread is with respect to the lock. -/
inductive Place where
  | outside
  | taking
  | inside
  deriving DecidableEq, Repr

/-- The threads, and where each of them is. -/
structure Guarding (τ σ υ : Type) where
  system : Interleaved τ σ υ
  place : τ → Place

/-- What moves the system: the kernel besides, or the current thread, which enters `rt_sem_take` of
the lock, returns from it, or enters `rt_sem_release`. -/
inductive GuardMove (τ σ υ : Type) where
  | kernel (m : KernelMove τ σ υ)
  | take (time : BitVec 32)
  | takeReturn
  | release

/-- Where a thread is that has entered `rt_sem_take`. -/
def Rest.place {τ : Type} : Rest τ → Place
  | .returned e => if e = RT_EOK then .inside else .outside
  | _ => .taking

/-! ## The system -/

section Guard
variable {τ σ υ V : Type} [DecidableEq τ] [DecidableEq σ] [DecidableEq υ]

/-- A thread that is initialised anew is outside. -/
def KernelMove.place (place : τ → Place) : KernelMove τ σ υ → τ → Place
  | .masked (.threadInit t _ _) => Function.update place t .outside
  | _ => place

namespace Guarding

def current (x : Guarding τ σ υ) : Option τ := x.system.kernel.env.rtCurrentThread

def exec [Fintype τ] [Fintype υ] (s : σ) (x : Guarding τ σ υ) :
    GuardMove τ σ υ → Option (Guarding τ σ υ)
  | .kernel m => do
      let st ← m.exec x.system
      return { system := st, place := m.place x.place }
  | .take time => do
      let t ← x.current
      let (r, k) ← (Service.semTake s time).enter x.system.kernel
      return {
        system :=
          { x.system with kernel := k, pending := Function.update x.system.pending t r.left }
        place := Function.update x.place t r.place }
  | .takeReturn => do
      let t ← x.current
      let e := rtSemTakeReturn x.system.kernel.env t
      return { x with place := Function.update x.place t (Rest.returned (τ := τ) e).place }
  | .release => do
      let t ← x.current
      let (r, k) ← (Service.semRelease s).enter x.system.kernel
      return {
        system :=
          { x.system with kernel := k, pending := Function.update x.system.pending t r.left }
        place := Function.update x.place t .outside }

/-- The current thread is not in a take, where it has nothing to do but to return. -/
def NotTaking (x : Guarding τ σ υ) : Prop := ∀ t ∈ x.current, x.place t ≠ .taking

instance (x : Guarding τ σ υ) : Decidable x.NotTaking :=
  inferInstanceAs (Decidable (∀ t ∈ x.system.kernel.env.rtCurrentThread, _))

/-- Besides the lock there are other semaphores only, no thread in a take is woken or taken away
by others, and none that waits reschedules with the scheduler locked. -/
def Foreign [Fintype τ] (s : σ) (x : Guarding τ σ υ) : KernelMove τ σ υ → Prop
  | .enter f => f.Foreign s ∧ x.NotTaking
  | .finish => ∀ t ∈ x.current, t ∈ x.system.kernel.waiters s →
      x.system.kernel.env.rtSchedulerLockNest = 0
  | .invoke _ => x.NotTaking
  | .piece => (∀ c ∈ x.system.underway, c.Foreign s fun t => x.place t = .taking) ∧ x.NotTaking
  | .masked c => c.Foreign s (fun t => x.place t = .taking) ∧ x.NotTaking
  | .tick script => ∀ cs ∈ script, ∀ c ∈ cs, c.Foreign s fun t => x.place t = .taking
  | .handler cs => ∀ c ∈ cs, c.Foreign s fun t => x.place t = .taking
  | .start => True

instance [Fintype τ] (s : σ) (x : Guarding τ σ υ) (m : KernelMove τ σ υ) :
    Decidable (x.Foreign s m) := by
  rcases m <;> dsimp only [Foreign, current] <;> infer_instance

/-- Threads take the lock from outside and release it from inside. -/
def Allowed [Fintype τ] [Fintype υ] (s : σ) (x : Guarding τ σ υ) : GuardMove τ σ υ → Prop
  | .kernel m => m.Allowed x.system ∧ x.Foreign s m
  | .take time => (KernelMove.enter (.semTake s time)).Allowed x.system ∧
      ∀ t ∈ x.current, x.place t = .outside
  | .takeReturn => ∃ t ∈ x.current, x.system.pending t = none ∧ x.place t = .taking
  | .release => (KernelMove.enter (.semRelease s)).Allowed x.system ∧
      ∀ t ∈ x.current, x.place t = .inside

instance [Fintype τ] [Fintype υ] (s : σ) (x : Guarding τ σ υ) (m : GuardMove τ σ υ) :
    Decidable (x.Allowed s m) := by
  rcases m <;> dsimp only [Allowed, current] <;> infer_instance

end Guarding

/-- A state in which nobody waits for the semaphore `s`, of value `n`. -/
structure Unlocked [Fintype τ] [Fintype υ] (idle : τ) (s : σ) (n : Nat)
    (st : Interleaved τ σ υ) : Prop where
  reachable : InterleavedReachable idle (fun _ _ => True) st
  waiters : st.kernel.waiters s = []
  flag : (st.kernel.env.sem s).Queues
  value : (st.kernel.env.sem s).value.toNat = n

/-- Everybody is outside. -/
def Guarding.start (st : Interleaved τ σ υ) : Guarding τ σ υ := ⟨st, fun _ => .outside⟩

/-- The states of the system from one in which the semaphore has `n` units and everybody is
outside. -/
def GuardReachable [Fintype τ] [Fintype υ] (idle : τ) (s : σ) (n : Nat) (x : Guarding τ σ υ) :
    Prop :=
  ∃ st, Unlocked idle s n st ∧ Run.Reach (Guarding.exec s) (Guarding.Allowed s) (.start st) x

/-- The regions of threads between `rt_sem_take` and `rt_sem_release`, where the current one runs
if it is in no function. -/
def lockedRegions (τ υ : Type) {σ : Type} [DecidableEq τ] [DecidableEq σ] [DecidableEq υ]
    [Fintype τ] [Fintype υ] (s : σ) : Regions (Guarding τ σ υ) (GuardMove τ σ υ) τ where
  exec := Guarding.exec s
  ok := Guarding.Allowed s
  inside x t := x.place t = .inside
  runs x := x.current.filter fun t =>
    (x.system.pending t).isNone && (x.system.errand t).isNone

instance [Fintype τ] [Fintype υ] (s : σ) (x : Guarding τ σ υ) :
    DecidablePred ((lockedRegions τ υ s).inside x) :=
  fun t => inferInstanceAs (Decidable (x.place t = .inside))

instance [Fintype τ] [Fintype υ] (s : σ) (x : Guarding τ σ υ) (m : GuardMove τ σ υ) :
    Decidable ((lockedRegions τ υ s).ok x m) :=
  inferInstanceAs (Decidable (x.Allowed s m))

/-! ## Units -/

/-- `t` holds a unit of `s`, or is to find that it has got one. -/
def Claims (e : SchedSys τ σ (ThreadRings τ σ)) (s : σ) (place : τ → Place) (t : τ) : Prop :=
  place t = .inside ∨ place t = .taking ∧ Granted e s t

instance (e : SchedSys τ σ (ThreadRings τ σ)) (s : σ) (place : τ → Place) :
    DecidablePred (Claims e s place) :=
  fun t => inferInstanceAs (Decidable (place t = .inside ∨ place t = .taking ∧ Granted e s t))

variable [Fintype τ] {a a' : SeqKernel τ σ υ} {e e' : SchedSys τ σ (ThreadRings τ σ)} {s : σ}
  {n : Nat} {x x' : Guarding τ σ υ} {t : τ} {place place' : τ → Place}

/-- The units that are in the semaphore or claimed. -/
def unitsOf (e : SchedSys τ σ (ThreadRings τ σ)) (s : σ) (place : τ → Place) : Nat :=
  (e.sem s).value.toNat + (Finset.univ.filter (Claims e s place)).card

/-- Only threads in a take wait, off the processor or before their reschedule, and there are no
more units than `n`. -/
structure Guarded (n : Nat) (s : σ) (x : Guarding τ σ υ) (a : SeqKernel τ σ υ) : Prop where
  waiting : ∀ t ∈ a.env.waiters s, x.place t = .taking
  away : ∀ t ∈ a.env.waiters s, a.env.rtCurrentThread = some t → x.system.pending t ≠ none
  flag : (a.env.sem s).Queues
  units : unitsOf a.env s x.place ≤ n

section
omit [DecidableEq σ]

/-- Fewer claims to the same value. -/
theorem units_le (hsem : e'.sem s = e.sem s)
    (hclaims : ∀ t, Claims e' s place' t → Claims e s place t) :
    unitsOf e' s place' ≤ unitsOf e s place := by
  rw [unitsOf, unitsOf, hsem]
  exact Nat.add_le_add_left
    (Finset.card_le_card fun t ht => by
      rw [Finset.mem_filter] at ht ⊢
      exact ⟨ht.1, hclaims t ht.2⟩) _

/-- One claim more, and a unit less in the semaphore. -/
theorem units_taken (hvalue : (e'.sem s).value.toNat + 1 ≤ (e.sem s).value.toNat)
    (hclaims : ∀ u, Claims e' s place' u → u = t ∨ Claims e s place u) :
    unitsOf e' s place' ≤ unitsOf e s place := by
  have hsub : Finset.univ.filter (Claims e' s place') ⊆
      insert t (Finset.univ.filter (Claims e s place)) := by
    intro u hu
    rw [Finset.mem_filter] at hu
    rw [Finset.mem_insert, Finset.mem_filter]
    exact (hclaims u hu.2).imp_right fun h => ⟨Finset.mem_univ u, h⟩
  have hcard := (Finset.card_le_card hsub).trans (Finset.card_insert_le _ _)
  rw [unitsOf, unitsOf]
  omega

/-- The claim of `t` is given up. -/
theorem units_given {k : Nat} (hvalue : (e'.sem s).value.toNat ≤ (e.sem s).value.toNat + k)
    (ht : Claims e s place t) {w : Finset τ} (hw : w.card + k ≤ 1)
    (hclaims : ∀ u, Claims e' s place' u → u ∈ w ∨ u ≠ t ∧ Claims e s place u) :
    unitsOf e' s place' ≤ unitsOf e s place := by
  have hsub : Finset.univ.filter (Claims e' s place') ⊆
      w ∪ (Finset.univ.filter (Claims e s place)).erase t := by
    intro u hu
    rw [Finset.mem_filter] at hu
    rw [Finset.mem_union, Finset.mem_erase, Finset.mem_filter]
    exact (hclaims u hu.2).imp_right fun h => ⟨h.1, Finset.mem_univ u, h.2⟩
  have hmem : t ∈ Finset.univ.filter (Claims e s place) := by
    rw [Finset.mem_filter]
    exact ⟨Finset.mem_univ t, ht⟩
  have hpos := Finset.card_pos.mpr ⟨t, hmem⟩
  have herase := Finset.card_erase_of_mem hmem
  have hcard := (Finset.card_le_card hsub).trans (Finset.card_union_le _ _)
  rw [unitsOf, unitsOf]
  omega

end

/-! ## Moves besides the lock -/

section
omit [DecidableEq σ] [DecidableEq υ]

/-- A move that does not touch the lock keeps threads and units where they are. -/
theorem Guarded.elsewhere (h : Guarded n s x a) {st : Interleaved τ σ υ}
    (hmove : Elsewhere s (fun t => x.place t = .taking) a.env a'.env)
    (hplace : ∀ t, place' t = x.place t ∨ place' t = .outside ∧ x.place t ≠ .taking)
    (haway : ∀ t ∈ a'.env.waiters s, a.env.rtCurrentThread = some t →
      a'.env.rtCurrentThread = some t → st.pending t ≠ none) :
    Guarded n s ⟨st, place'⟩ a' where
  waiting t ht := by
    have htaking := h.waiting t (hmove.aloof.waiters t ht)
    rcases hplace t with hsame | ⟨-, hnot⟩
    · exact hsame.trans htaking
    · exact absurd htaking hnot
  away t ht hcur := haway t ht (hmove.yields t ht hcur) hcur
  flag := by rw [hmove.aloof.sem]; exact h.flag
  units := by
    refine (units_le hmove.aloof.sem fun t ht => ?_).trans h.units
    rcases ht with hin | ⟨htaking, hgranted⟩
    · rcases hplace t with hsame | ⟨hout, -⟩
      · exact .inl (hsame.symm.trans hin)
      · cases hout.symm.trans hin
    · rcases hplace t with hsame | ⟨hout, -⟩
      · have htaking' : x.place t = .taking := hsame.symm.trans htaking
        exact .inr ⟨htaking', hmove.aloof.granted t htaking' hgranted⟩
      · cases hout.symm.trans htaking

theorem place_eq (m : KernelMove τ σ υ) (hm : x.Foreign s m) (t : τ) :
    m.place x.place t = x.place t ∨ m.place x.place t = .outside ∧ x.place t ≠ .taking := by
  cases m with
  | masked c =>
    cases c with
    | threadInit u priority tick =>
      by_cases htu : t = u
      · subst htu
        exact .inr ⟨by simp [KernelMove.place], hm.1⟩
      · exact .inl (by simp [KernelMove.place, htu])
    | _ => exact .inl rfl
  | _ => exact .inl rfl

end

/-- **A move besides the lock.** -/
theorem Guarded.kernel [Fintype υ] (h : Guarded n s x a) (hx : x.system.InOrder a)
    {m : KernelMove τ σ υ} {st : Interleaved τ σ υ} (hm : x.Foreign s m) (hx' : st.InOrder a')
    (heff : MoveEffect x.system a m st a') : Guarded n s ⟨st, m.place x.place⟩ a' := by
  obtain ⟨hk, hw, -⟩ := hx
  have hcurrent : x.current = a.env.rtCurrentThread := hk.env.current
  -- whoever waits is in a take, and then the current thread is another
  have hnot : x.NotTaking → ∀ t, a.env.rtCurrentThread = some t → ¬ x.place t = .taking :=
    fun hn t ht => hn t (hcurrent.trans ht)
  have hgone : x.NotTaking → ∀ t ∈ a'.env.waiters s,
      Elsewhere s (fun t => x.place t = .taking) a.env a'.env → a.env.rtCurrentThread = some t →
        a'.env.rtCurrentThread = some t → st.pending t ≠ none := by
    intro hn t ht hmove hcur _
    exact absurd (h.waiting t (hmove.aloof.waiters t ht)) (hnot hn t hcur)
  cases heff with
  | leaves hcur hr heff =>
    have hmove := heff.elsewhere hw hm.1 (hnot hm.2)
    exact h.elsewhere hmove (place_eq _ hm) fun t ht => hgone hm.2 t ht hmove
  | @returns f c _ _ _ hcur hcall hallowed hrun =>
    have hc : c.Foreign s fun t => x.place t = .taking := by
      have hf : f.Foreign s := hm.1
      cases f <;> cases hcall <;> exact hf
    have hmove := Elsewhere.call hc hw hallowed hrun
    exact h.elsewhere hmove (place_eq _ hm) fun t ht => hgone hm.2 t ht hmove
  | finishes hcur hsched =>
    obtain ⟨he, -⟩ := onSched_spec hsched
    have hmove : Elsewhere s (fun t => x.place t = .taking) a.env a'.env :=
      .waking (.schedule he) (.schedule hw.sched he)
    refine h.elsewhere hmove (place_eq _ hm) fun t ht hcur' hcur'' => ?_
    -- the scheduler is unlocked, so it has elected a thread that does not wait
    have hmem : t ∈ x.system.kernel.waiters s := by
      rw [hk.waiters]
      exact hmove.aloof.waiters t ht
    have hopen := hm t (hcurrent.trans hcur') hmem
    rw [hk.env.lockNest] at hopen
    obtain ⟨u, hready, hu⟩ := schedule_dispatch hw.sched he
    rw [if_pos hopen, hcur''] at hu
    obtain rfl : t = u := Option.some.inj hu
    rw [hx'.2.1.sched.waiting t s ht] at hready
    cases hready
  | invokes hcur =>
    have hmove : Elsewhere s (fun t => x.place t = .taking) a.env a.env := .refl s _ _
    exact h.elsewhere hmove (place_eq _ hm) fun t ht => hgone hm t ht hmove
  | @pieces u p _ _ _ hcur hp heff =>
    have hunderway : p.call ∈ x.system.underway := by
      simp [Interleaved.underway, show x.system.kernel.env.rtCurrentThread = some u from
        hcurrent.trans hcur, hp]
    have hmove := heff.elsewhere hw (hm.1 _ hunderway)
    exact h.elsewhere hmove (place_eq _ hm) fun t ht => hgone hm.2 t ht hmove
  | call hallowed hprepares hrun =>
    have hmove := Elsewhere.call hm.1 hw hallowed hrun
    exact h.elsewhere hmove (place_eq _ hm) fun t ht => hgone hm.2 t ht hmove
  | tick hrun =>
    have hmove := Elsewhere.tick hw hm hrun
    exact h.elsewhere hmove (place_eq _ hm) fun t ht hcur _ =>
      h.away t (hmove.aloof.waiters t ht) hcur
  | handler hcur hrun =>
    have hmove := Elsewhere.runCalls _ hm hw hrun
    exact h.elsewhere hmove (place_eq _ hm) fun t ht hcur _ =>
      h.away t (hmove.aloof.waiters t ht) hcur
  | start hcur hsched =>
    obtain ⟨he, -⟩ := onSched_spec hsched
    have hmove : Elsewhere s (fun t => x.place t = .taking) a.env a'.env := by
      refine .waking ?_ (.schedStart hw.sched he)
      obtain ⟨u, -, henv⟩ := schedStart_spec he
      rw [henv]
      exact .of_eq rfl rfl rfl
    exact h.elsewhere hmove (place_eq _ hm) fun t _ hcur' _ => by
      rw [hcur] at hcur'
      cases hcur'

/-! ## Moves of the lock -/

section Lock
variable [Fintype υ] {k k' : RtKernel τ σ υ} {r : Rest τ} {time : BitVec 32}

/-- A take that does not wait has a unit or none. -/
theorem takeSection_returned (h : takeSection k s time = some (r, k')) (hr : r.left = none) :
    (0 < (k.env.sem s).value ∧ r = .returned RT_EOK ∧
        k' = { k with env :=
          k.env.setSem s { k.env.sem s with value := (k.env.sem s).value - 1 } }) ∨
      (r = .returned (-RT_ETIMEOUT) ∧ k' = k) := by
  unfold takeSection at h
  split at h
  · rename_i hpos
    cases h
    exact .inl ⟨hpos, rfl, rfl⟩
  · split at h
    · cases h
      exact .inr ⟨rfl, rfl⟩
    · obtain ⟨_, -, h⟩ := Option.bind_eq_some_iff.mp h
      obtain ⟨_, -, h⟩ := Option.bind_eq_some_iff.mp h
      obtain ⟨_, -, hret⟩ := Option.bind_eq_some_iff.mp h
      cases hret
      cases hr

section
omit [DecidableEq υ] [Fintype τ] [Fintype υ]

/-- A release that wakes nobody counts up. -/
theorem releaseSection_returned (h : releaseSection k s = some (r, k')) (hr : r.left = none) :
    k' = { k with env :=
      k.env.setSem s { k.env.sem s with value := (k.env.sem s).value + 1 } } := by
  unfold releaseSection at h
  split at h
  · obtain ⟨_, -, hret⟩ := Option.bind_eq_some_iff.mp h
    cases hret
    cases hr
  · cases h
    rfl

end

section
omit [DecidableEq τ] [Fintype τ]

theorem place_of_left (hr : r.left ≠ none) : r.place = .taking := by
  cases r with
  | returned e => exact absurd rfl hr
  | _ => rfl

end

section
omit [Fintype τ] [Fintype υ]

/-- The semaphore gets a new value. -/
theorem InOrder.setSem {st : Interleaved τ σ υ} (h : st.InOrder a) (r : RtSemaphore)
    {pending : τ → Option (Rest τ)} (hpend : ∀ t e, pending t ≠ some (.returned e)) :
    Interleaved.InOrder
      { st with kernel := { st.kernel with env := st.kernel.env.setSem s r }, pending := pending }
      { a with env := a.env.setSem s r } :=
  ⟨⟨h.1.timers, h.1.env.setSem s r⟩,
    h.2.1.of_env (h.2.1.sched.congr rfl rfl rfl) (fun _ => id) fun _ => id, hpend⟩

end

section
omit [DecidableEq σ] [Fintype τ]

/-- Others claim what they have claimed before, if nothing has happened to them. -/
theorem Claims.of_bystander {u : τ} {p : Place} (hut : u ≠ t) (hby : Bystander u e e')
    (h : Claims e' s (Function.update place t p) u) : Claims e s place u := by
  rw [Claims, Granted, Function.update_of_ne hut, hby.thread, hby.waiters] at h
  exact h

end

section
omit [DecidableEq σ] [DecidableEq υ] [Fintype υ]

/-- Only the current thread moves. -/
theorem Guarded.own (h : Guarded n s x a) {st : Interleaved τ σ υ} {p : Place}
    (hcur : a'.env.rtCurrentThread = some t)
    (hwaiters : ∀ u ∈ a'.env.waiters s,
      u ∈ a.env.waiters s ∧ u ≠ t ∨ u = t ∧ p = .taking ∧ st.pending t ≠ none)
    (hflag : (a'.env.sem s).flag = (a.env.sem s).flag)
    (hunits : unitsOf a'.env s (Function.update x.place t p) ≤ unitsOf a.env s x.place) :
    Guarded n s ⟨st, Function.update x.place t p⟩ a' where
  waiting u hu := by
    rcases hwaiters u hu with ⟨hmem, hut⟩ | ⟨rfl, rfl, -⟩
    · simpa [hut] using h.waiting u hmem
    · simp
  away u hu hcur' := by
    rcases hwaiters u hu with ⟨-, hut⟩ | ⟨rfl, -, hpend⟩
    · exact absurd (Option.some.inj (hcur'.symm.trans hcur)) hut
    · exact hpend
  flag := by
    rw [RtSemaphore.Queues, hflag]
    exact h.flag
  units := hunits.trans h.units

/-- A thread that is not in a take does not wait. -/
theorem Guarded.ne_of_mem (h : Guarded n s x a) (ht : x.place t ≠ .taking) {u : τ}
    (hu : u ∈ a.env.waiters s) : u ≠ t := by
  rintro rfl
  exact ht (h.waiting u hu)

end

/-- **The current thread enters `rt_sem_take`.** -/
theorem Guarded.take (h : Guarded n s x a) (hx : x.system.InOrder a)
    (hm : x.Allowed s (.take time)) (hrun : x.exec s (.take time) = some x') :
    ∃ a', x'.system.InOrder a' ∧ Guarded n s x' a' := by
  obtain ⟨hk, hw, hpend⟩ := hx
  obtain ⟨t, hcur, hrun⟩ := Option.bind_eq_some_iff.mp hrun
  obtain ⟨⟨r, k'⟩, henter, hret⟩ := Option.bind_eq_some_iff.mp hrun
  cases hret
  have hout : x.place t = .outside := hm.2 t hcur
  have hcur' : a.env.rtCurrentThread = some t := hk.env.current ▸ hcur
  have hpend' := pending_update hpend t r.left_ne_returned
  have hoff : ∀ u ∈ a.env.waiters s, u ≠ t := fun u => h.ne_of_mem (by simp [hout])
  by_cases hr : r.left = none
  · rcases takeSection_returned henter hr with ⟨hpos, rfl, rfl⟩ | ⟨rfl, rfl⟩
    · -- a unit of the semaphore becomes one of the thread's
      refine ⟨_, InOrder.setSem ⟨hk, hw, hpend⟩ _ hpend', ?_⟩
      rw [hk.env.sem] at hpos ⊢
      refine h.own hcur' (fun u hu => .inl ⟨hu, hoff u hu⟩) (by simp [SchedSys.setSem])
        (units_taken (t := t) ?_ fun u hu => ?_)
      · simp only [SchedSys.setSem, Function.update_self]
        bv_omega
      · by_cases hut : u = t
        · exact .inl hut
        · exact .inr (hu.of_bystander hut (.of_eq rfl rfl))
    · refine ⟨a, ⟨hk, hw, hpend'⟩, h.own hcur' (fun u hu => .inl ⟨hu, hoff u hu⟩) rfl
        (units_le rfl fun u hu => ?_)⟩
      by_cases hut : u = t
      · subst hut
        simp [Claims, Rest.place, RT_ETIMEOUT, RT_EOK] at hu
      · exact hu.of_bystander hut (.refl u _)
  · obtain ⟨a', hk', heff⟩ := enter_effect hk hw hm.1.2 henter hr
    have hleaves := heff.leaves hw
    obtain ⟨t', ht', hsem, hby, -, hjoins⟩ := heff.waits_frame hw rfl
    obtain rfl : t = t' := Option.some.inj (hcur'.symm.trans ht')
    have hmem := hjoins h.flag
    refine ⟨a', ⟨hk', hleaves.wf, hpend'⟩, h.own (hleaves.current.trans hcur') (fun u hu => ?_)
      (by rw [hsem]) (units_le (by rw [hsem]) fun u hu => ?_)⟩
    · by_cases hut : u = t
      · exact .inr ⟨hut, place_of_left hr, by simpa using hr⟩
      · exact .inl ⟨((hby u hut).waiters s).mp hu, hut⟩
    · by_cases hut : u = t
      · subst hut
        rw [Claims, Function.update_self, place_of_left hr] at hu
        rcases hu with hin | ⟨-, hgranted⟩
        · cases hin
        · exact absurd hmem hgranted.1
      · exact hu.of_bystander hut (hby u hut)

/-- **It returns**, and has the unit it finds to be granted. -/
theorem Guarded.takeReturn (h : Guarded n s x a) (hx : x.system.InOrder a)
    (hm : x.Allowed s .takeReturn) (hrun : x.exec s .takeReturn = some x') :
    x'.system.InOrder a ∧ Guarded n s x' a := by
  obtain ⟨t, hcur, hret⟩ := Option.bind_eq_some_iff.mp hrun
  cases hret
  obtain ⟨t', ht', hnone, htaking⟩ := hm
  obtain rfl : t = t' := Option.some.inj (hcur.symm.trans ht')
  have hcur' : a.env.rtCurrentThread = some t := hx.1.env.current ▸ hcur
  have hoff : t ∉ a.env.waiters s := fun hmem => h.away t hmem hcur' hnone
  refine ⟨hx, h.own hcur' (fun u hu => .inl ⟨hu, ?_⟩) rfl (units_le rfl fun u hu => ?_)⟩
  · rintro rfl
    exact hoff hu
  · by_cases hut : u = t
    · subst hut
      rw [Claims, Function.update_self] at hu
      refine .inr ⟨htaking, hoff, ?_⟩
      have herror : x.system.kernel.env.thread u = a.env.thread u := by rw [hx.1.env.thread]
      by_contra hne
      simp [Rest.place, rtSemTakeReturn, herror, hne] at hu
    · exact hu.of_bystander hut (.refl u _)

/-- **It enters `rt_sem_release`**, and its unit goes back or to the first waiter. -/
theorem Guarded.release (h : Guarded n s x a) (hx : x.system.InOrder a)
    (hm : x.Allowed s .release) (hrun : x.exec s .release = some x') :
    ∃ a', x'.system.InOrder a' ∧ Guarded n s x' a' := by
  obtain ⟨hk, hw, hpend⟩ := hx
  obtain ⟨t, hcur, hrun⟩ := Option.bind_eq_some_iff.mp hrun
  obtain ⟨⟨r, k'⟩, henter, hret⟩ := Option.bind_eq_some_iff.mp hrun
  cases hret
  have hin : x.place t = .inside := hm.2 t hcur
  have hcur' : a.env.rtCurrentThread = some t := hk.env.current ▸ hcur
  have hpend' := pending_update hpend t r.left_ne_returned
  have hoff : ∀ u ∈ a.env.waiters s, u ≠ t := fun u => h.ne_of_mem (by simp [hin])
  have hgone : ∀ {e}, ¬ Claims e s (Function.update x.place t .outside) t := by
    intro e
    simp [Claims]
  by_cases hr : r.left = none
  · have hret := releaseSection_returned henter hr
    subst hret
    refine ⟨_, InOrder.setSem ⟨hk, hw, hpend⟩ _ hpend', ?_⟩
    rw [hk.env.sem]
    refine h.own hcur' (fun u hu => .inl ⟨hu, hoff u hu⟩) (by simp [SchedSys.setSem])
      (units_given (k := 1) ?_ (.inl hin) (w := ∅) le_rfl fun u hu => ?_)
    · simp only [SchedSys.setSem, Function.update_self]
      bv_omega
    · have hut : u ≠ t := by
        rintro rfl
        exact hgone hu
      exact .inr ⟨hut, hu.of_bystander hut (.of_eq rfl rfl)⟩
  · obtain ⟨a', hk', heff⟩ := enter_effect hk hw hm.1.2 henter hr
    have hleaves := heff.leaves hw
    refine ⟨a', ⟨hk', hleaves.wf, hpend'⟩, ?_⟩
    obtain ⟨v, vs, hvs, henv⟩ := heff.releases_frame rfl
    have hvt : v ≠ t := hoff v (by simp [hvs])
    have hother : ∀ u ≠ v, Bystander u a.env a'.env := fun u huv => by
      rw [henv]
      exact .relist huv
    refine h.own (hleaves.current.trans hcur') (fun u hu => ?_) (by rw [henv]; rfl)
      (units_given (k := 0) (by rw [henv]; exact le_rfl) (.inl hin) (w := {v}) le_rfl
        fun u hu => ?_)
    · rw [henv, SchedSys.relistReady_waiters] at hu
      have hmem := List.mem_of_mem_erase hu
      exact .inl ⟨hmem, hoff u hmem⟩
    · by_cases huv : u = v
      · exact .inl (by simp [huv])
      · have hut : u ≠ t := by
          rintro rfl
          exact hgone hu
        exact .inr ⟨hut, hu.of_bystander hut (hother u huv)⟩

end Lock

/-! ## Runs -/

section Runs
variable [Fintype υ] {idle : τ}

theorem Guarded.move {m : GuardMove τ σ υ} (h : Guarded n s x a) (hx : x.system.InOrder a)
    (hm : x.Allowed s m) (hrun : x.exec s m = some x') :
    ∃ a', x'.system.InOrder a' ∧ Guarded n s x' a' := by
  cases m with
  | kernel m =>
    obtain ⟨st, hst, hret⟩ := Option.bind_eq_some_iff.mp hrun
    cases hret
    obtain ⟨a', hx', heff⟩ := hx.move hm.1 hst
    exact ⟨a', hx', h.kernel hx hm.2 hx' heff⟩
  | take time => exact h.take hx hm hrun
  | takeReturn => exact ⟨a, h.takeReturn hx hm hrun⟩
  | release => exact h.release hx hm hrun

theorem GuardReachable.guarded (hx : GuardReachable idle s n x) :
    ∃ a, x.system.InOrder a ∧ Guarded n s x a := by
  obtain ⟨st, hst, hrun⟩ := hx
  obtain ⟨a, h⟩ := hst.reachable.inOrder
  have hnone : a.env.waiters s = [] := by rw [← h.1.waiters]; exact hst.waiters
  have hguarded : Guarded n s (.start st) a := by
    refine ⟨fun t ht => ?_, fun t ht => ?_, by rw [← h.1.env.sem]; exact hst.flag, ?_⟩
    · simp [hnone] at ht
    · simp [hnone] at ht
    · have hempty : Finset.univ.filter (Claims a.env s (Guarding.start st).place) = ∅ :=
        Finset.filter_eq_empty_iff.mpr fun t _ => by simp [Claims, Guarding.start]
      rw [unitsOf, hempty, ← h.1.env.sem]
      exact hst.value.le
  refine Run.invariant (I := fun x => ∃ a, x.system.InOrder a ∧ Guarded n s x a)
    (fun x m x' hI hm hrun => ?_) ⟨a, h, hguarded⟩ hrun
  obtain ⟨a, hx, h⟩ := hI
  exact h.move hx hm hrun

section
omit [DecidableEq σ] [DecidableEq υ] [Fintype υ]

theorem Guarded.inside_card (h : Guarded n s x a) :
    (Finset.univ.filter fun t => x.place t = .inside).card ≤ n := by
  have hsub : (Finset.univ.filter fun t => x.place t = .inside) ⊆
      Finset.univ.filter (Claims a.env s x.place) := by
    intro t ht
    rw [Finset.mem_filter] at ht ⊢
    exact ⟨ht.1, .inl ht.2⟩
  exact (Finset.card_le_card hsub).trans ((Nat.le_add_left _ _).trans h.units)

end

end Runs

end Guard

/-- A semaphore of one unit and two threads. -/
def lockPrepared : List (KernelMove (Fin 3) (Fin 1) Empty) :=
  [.masked (.semInit 0 1 RT_IPC_FLAG_FIFO), .masked (.threadInit 1 3 10),
    .masked (.threadInit 2 5 10), .masked (.threadStartup 1), .masked (.threadStartup 2), .start]

/-- Thread 1 counts up, asleep between its read and its write; thread 2 is ticked on its way into
the lock, gets the unit of thread 1 and counts up as well, while thread 1 takes again. -/
def lockedCount : List (Move (GuardMove (Fin 3) (Fin 1) Empty) (BitVec 32)) :=
  [.base (.take 0xffffffff), .load, .base (.kernel (.enter (.threadSleep 2))),
    .base (.kernel .finish), .base (.take 0xffffffff), .base (.kernel (.tick [])),
    .base (.kernel .finish), .base (.kernel (.tick [[]])), .store (· + 1), .base .release,
    .base (.kernel .finish), .base (.take 0xffffffff), .base (.kernel .finish),
    .base .takeReturn, .load, .store (· + 1)]

theorem lockPrepared_unlocked : ∃ st : Interleaved (Fin 3) (Fin 1) Empty, Unlocked 0 0 1 st ∧
    ∃ y, Run.Reach (lockedRegions (Fin 3) Empty 0).step (lockedRegions (Fin 3) Empty 0).Allowed
      (.start st, .init (0 : BitVec 32)) y ∧ y.2.updates.length = 2 ∧
      y.2.updates.foldr (fun g w => g w) 0 = 2 ∧ y.1.place 1 = .taking ∧ y.1.place 2 = .inside := by
  obtain ⟨st, hs, hp⟩ := interleaved_of_run 0 (fun _ _ => True) lockPrepared
    (fun st => decide (st.kernel.waiters 0 = []) && decide ((st.kernel.env.sem 0).Queues) &&
      decide ((st.kernel.env.sem 0).value.toNat = 1) &&
      ((Run.exec (lockedRegions (Fin 3) Empty 0).step (lockedRegions (Fin 3) Empty 0).Allowed
        lockedCount (.start st, .init (0 : BitVec 32))).map fun y =>
          decide (y.2.updates.length = 2) &&
          decide (y.2.updates.foldr (fun g w => g w) 0 = 2) && decide (y.1.place 1 = .taking) &&
          decide (y.1.place 2 = .inside)) == some true) (by decide +kernel)
  simp only [Bool.and_eq_true, decide_eq_true_eq, beq_iff_eq] at hp
  obtain ⟨⟨⟨hwaiters, hflag⟩, hvalue⟩, hrun⟩ := hp
  obtain ⟨y, hy, hp⟩ := Option.map_eq_some_iff.mp hrun
  simp only [Bool.and_eq_true, decide_eq_true_eq] at hp
  obtain ⟨⟨⟨hlen, hfold⟩, htaking⟩, hinside⟩ := hp
  exact ⟨st, ⟨hs, hwaiters, hflag, hvalue⟩, y, Run.exec_reach hy, hlen, hfold, htaking, hinside⟩

end SampleRtos
