import SampleRtos.Kernel.ReadyTable
import SampleRtos.Kernel.Observe

/-!
# Waiting lists

The history here is a clock of the waits begun so far and when each thread began
its last one. Whatever takes waiters out of a waiting list (a release, a timeout,
a resume, a suspension, the end of the thread), the list stays in the order its
flag asks for, and a semaphore with units left has no waiters.
-/

namespace SampleRtos

open Intrusive

/-- When each thread began to wait, counted in waits. -/
structure Arrivals (τ : Type) where
  clock : Nat
  arrived : τ → Nat

section Waiting
variable {τ σ υ LT LS : Type} [DecidableEq τ] [DecidableEq σ] [DecidableEq υ]

namespace Arrivals

def start : Arrivals τ := { clock := 0, arrived := fun _ => 0 }

def arrive (g : Arrivals τ) (t : τ) : Arrivals τ :=
  { clock := g.clock + 1, arrived := Function.update g.arrived t g.clock }

/-- Only an `rt_sem_take` that waits is noted. -/
def note (k : Kernel τ σ υ LT LS) (g : Arrivals τ) : Op τ σ υ → Arrivals τ
  | .semTake s time =>
      if TakeBlocks k s time then (k.env.rtCurrentThread.map g.arrive).getD g else g
  | _ => g

/-- Any run whatever, with its waits noted. -/
def observer : Observer τ σ υ (Op τ σ υ) (Arrivals τ) where
  perform := some
  note := note
  ok _ _ _ := True

instance (k : RtKernel τ σ υ) (g : Arrivals τ) (op : Op τ σ υ) :
    Decidable (observer.ok k g op) :=
  inferInstanceAs (Decidable True)

end Arrivals

/-! ## The order of a waiting list -/

section Order
variable {L : Type}

/-- `t` comes before `u` in the waiting list of `s`. -/
def Ahead (e : SchedSys τ σ L) (g : Arrivals τ) (s : σ) (t u : τ) : Prop :=
  ((e.sem s).flag = RT_IPC_FLAG_FIFO → g.arrived t < g.arrived u) ∧
    ((e.sem s).flag = RT_IPC_FLAG_PRIO →
      (e.thread t).currentPriority < (e.thread u).currentPriority ∨
        (e.thread t).currentPriority = (e.thread u).currentPriority ∧
          g.arrived t < g.arrived u)

end Order

structure WaitingOk (e : SchedSys τ σ (ThreadRings τ σ)) (g : Arrivals τ) : Prop where
  idle : ∀ s, 0 < (e.sem s).value → e.waiters s = []
  past : ∀ s, ∀ t ∈ e.waiters s, g.arrived t < g.clock
  order : ∀ s, (e.waiters s).Pairwise (Ahead e g s)

/-- Waiting lists only lose members, and what their order rests on stands. -/
structure Thins (e e' : SchedSys τ σ (ThreadRings τ σ)) : Prop where
  waiters : ∀ s, (e'.waiters s).Sublist (e.waiters s)
  prio : ∀ s, ∀ t ∈ e'.waiters s, (e'.thread t).currentPriority = (e.thread t).currentPriority
  flag : ∀ s, e'.waiters s ≠ [] → (e'.sem s).flag = (e.sem s).flag
  value : ∀ s, (e'.sem s).value = (e.sem s).value ∨ e'.waiters s = []

section
omit [DecidableEq τ] [DecidableEq σ]

theorem WaitingOk.thins {e e' : SchedSys τ σ (ThreadRings τ σ)} {g : Arrivals τ}
    (h : WaitingOk e g) (ht : Thins e e') : WaitingOk e' g where
  idle s hpos := by
    rcases ht.value s with heq | hnil
    · exact List.sublist_nil.mp (h.idle s (heq ▸ hpos) ▸ ht.waiters s)
    · exact hnil
  past s t hmem := h.past s t ((ht.waiters s).subset hmem)
  order s := by
    refine ((h.order s).sublist (ht.waiters s)).imp_of_mem fun {t u} hmt hmu hahead => ?_
    have hflag := ht.flag s (List.ne_nil_of_mem hmt)
    unfold Ahead
    rw [hflag, ht.prio s t hmt, ht.prio s u hmu]
    exact hahead

theorem Thins.waking {e e' : SchedSys τ σ (ThreadRings τ σ)} (h : Waking e e') : Thins e e' :=
  ⟨h.waiters, fun _ t _ => h.prio t, fun s _ => h.flag s, h.value⟩

end

section
omit [DecidableEq σ]

/-- A thread on no waiting list changes. -/
theorem Thins.update {e e' : SchedSys τ σ (ThreadRings τ σ)} {t : τ} {r : RtThread}
    (hfree : ∀ s, t ∉ e.waiters s) (hwaiters : e'.waiters = e.waiters) (hsem : e'.sem = e.sem)
    (hthread : e'.thread = Function.update e.thread t r) : Thins e e' where
  waiters s := by rw [hwaiters]
  prio s u hu := by
    have hut : u ≠ t := fun hut => hfree s (hut ▸ hwaiters ▸ hu)
    simp [hthread, hut]
  flag _ _ := by rw [hsem]
  value _ := .inl (by rw [hsem])

theorem Thins.unlist {e : SchedSys τ σ (ThreadRings τ σ)} {t : τ} {r : RtThread}
    (hprio : r.currentPriority = (e.thread t).currentPriority) : Thins e (e.unlist t r) where
  waiters s := by
    rw [SchedSys.unlist_waiters]
    exact List.erase_sublist
  prio s u _ := by
    by_cases hut : u = t
    · subst hut; simpa using hprio
    · simp [hut]
  flag _ _ := rfl
  value _ := .inl rfl

end

section
omit [DecidableEq τ]

/-- A semaphore nobody waits on is written. -/
theorem Thins.setSem {e e' : SchedSys τ σ (ThreadRings τ σ)} {s : σ} {r : RtSemaphore}
    (hnil : e.waiters s = []) (hwaiters : e'.waiters = e.waiters) (hthread : e'.thread = e.thread)
    (hsem : e'.sem = Function.update e.sem s r) : Thins e e' where
  waiters s := by rw [hwaiters]
  prio _ _ _ := by rw [hthread]
  flag s' hne := by
    have hs : s' ≠ s := fun hs => hne (hs ▸ hwaiters ▸ hnil)
    simp [hsem, hs]
  value s' := by
    by_cases hs : s' = s
    · exact .inr (hs ▸ hwaiters ▸ hnil)
    · exact .inl (by simp [hsem, hs])

end

variable {a a' : SeqKernel τ σ υ} {g : Arrivals τ} {t : τ} {s : σ}

section
omit [DecidableEq τ] [DecidableEq υ]

/-- A unit is taken where there is one, so where nobody waits. -/
theorem WaitingOk.taken (h : WaitingOk a.env g) (hpos : 0 < (a.env.sem s).value) :
    WaitingOk (a.env.setSem s { a.env.sem s with value := (a.env.sem s).value - 1 }) g :=
  h.thins (.setSem (h.idle s hpos) rfl rfl rfl)

end

theorem WaitingOk.call (hw : SchedWf a.env) (h : WaitingOk a.env g) {c : Call τ σ υ}
    {e : SchedSys τ σ (ThreadRings τ σ)} (heff : CallEffect a c e) : WaitingOk e g := by
  cases heff with
  | waking hwake => exact h.thins (.waking hwake)
  | init t priority tick hst =>
    have hfree : ∀ s, t ∉ a.env.waiters s := fun s => hw.free_of_stat hst (.suspend s)
    exact h.thins (.update hfree rfl rfl rfl)
  | suspend t => exact h.thins (.unlist rfl)
  | discard t hst =>
    have hfree : ∀ s, t ∉ a.env.waiters s := fun s => hw.free_of_stat (.inl hst) (.suspend s)
    exact h.thins (.update hfree rfl rfl rfl)
  | detach t => exact h.thins (.unlist rfl)
  | semInit s value flag hnil => exact h.thins (.setSem hnil rfl rfl rfl)
  | taken s hpos => exact h.taken hpos

/-! ## Joining -/

section
omit [DecidableEq σ]

/-- A thread that begins to wait takes the place its flag gives it. -/
theorem joins_pairwise {e : SchedSys τ σ (ThreadRings τ σ)} {ts ts' : List τ}
    (hj : Joins e s t ts ts') (hnew : t ∉ ts) (hpast : ∀ u ∈ ts, g.arrived u < g.clock)
    (hord : ts.Pairwise (Ahead e g s)) : ts'.Pairwise (Ahead e (g.arrive t) s) := by
  obtain ⟨xs, ys, rfl, rfl, hfifo, hprio⟩ := hj
  have hstamp : ∀ u ∈ xs ++ ys, (g.arrive t).arrived u = g.arrived u := by
    intro u hu
    have hut : u ≠ t := fun hut => hnew (hut ▸ hu)
    simp [Arrivals.arrive, hut]
  have hlast : (g.arrive t).arrived t = g.clock := by simp [Arrivals.arrive]
  have hold : (xs ++ ys).Pairwise (Ahead e (g.arrive t) s) := by
    refine hord.imp_of_mem fun {u v} hu hv hahead => ?_
    unfold Ahead
    rw [hstamp u hu, hstamp v hv]
    exact hahead
  have hbefore : ∀ u ∈ xs, Ahead e (g.arrive t) s u t := by
    intro u hu
    have hmem : u ∈ xs ++ ys := List.mem_append_left _ hu
    have harr : (g.arrive t).arrived u < (g.arrive t).arrived t := by
      rw [hstamp u hmem, hlast]
      exact hpast u hmem
    exact ⟨fun _ => harr, fun hflag =>
      (Nat.lt_or_eq_of_le ((hprio hflag).1 u hu)).imp_right fun heq => ⟨heq, harr⟩⟩
  have hafter : ∀ u ∈ ys, Ahead e (g.arrive t) s t u := by
    intro u hu
    refine ⟨fun hflag => by simp [hfifo hflag] at hu, fun hflag => .inl ?_⟩
    -- the first of `ys` is less urgent than `t`, and the rest no more urgent than it
    cases ys with
    | nil => cases hu
    | cons v ys =>
      have hv : (e.thread t).currentPriority < (e.thread v).currentPriority :=
        (hprio hflag).2 v rfl
      rcases List.mem_cons.mp hu with rfl | hu
      · exact hv
      · have hvu := (List.pairwise_cons.mp (List.pairwise_append.mp hord).2.1).1 u hu
        rcases hvu.2 hflag with hlt | ⟨heq, -⟩ <;> omega
  obtain ⟨hxs, hys, hxy⟩ := List.pairwise_append.mp hold
  refine List.pairwise_append.mpr ⟨hxs, List.pairwise_cons.mpr ⟨hafter, hys⟩, ?_⟩
  intro u hu v hv
  rcases List.mem_cons.mp hv with rfl | hv
  · exact hbefore u hu
  · exact hxy u hu v hv

end

section
omit [DecidableEq τ] [DecidableEq σ] [DecidableEq υ]

theorem CanBlock.not_mem_waiters (hw : SchedWf a.env) (hcan : CanBlock a t) (s : σ) :
    t ∉ a.env.waiters s := by
  rcases hcan with hst | ⟨-, hfree⟩
  · intro hmem
    simp [hw.waiting t s hmem] at hst
  · exact hfree (.suspend s)

end

theorem WaitingOk.takeWait (hw : KernelWf a) (h : WaitingOk a.env g) (hcan : CanBlock a t)
    {time : BitVec 32} (hzero : (a.env.sem s).value = 0)
    (hrun : Abs.takeWait a s t time = some a') : WaitingOk a'.env (g.arrive t) := by
  have hwaits := takeWait_waits hw hcan hrun
  have hnew := hcan.not_mem_waiters hw.sched
  have hprio : ∀ u, (a'.env.thread u).currentPriority = (a.env.thread u).currentPriority := by
    intro u
    rw [hwaits.thread]
    by_cases hut : u = t
    · subst hut; simp
    · simp [hut]
  have hahead : ∀ s g, Ahead a'.env g s = Ahead a.env g s := by
    intro s g
    funext t u
    simp only [Ahead, hwaits.sem, hprio]
  -- those who waited before keep their stamps, all below the clock that `t` is given
  have hstamp : ∀ s, ∀ u ∈ a.env.waiters s, (g.arrive t).arrived u = g.arrived u := by
    intro s u hu
    have hut : u ≠ t := fun hut => hnew s (hut ▸ hu)
    simp [Arrivals.arrive, hut]
  have hkept : ∀ s, (a.env.waiters s).Pairwise (Ahead a.env (g.arrive t) s) := by
    intro s
    refine (h.order s).imp_of_mem fun {u v} hu hv hahead => ?_
    unfold Ahead
    rw [hstamp s u hu, hstamp s v hv]
    exact hahead
  have hpast : ∀ s, ∀ u ∈ a.env.waiters s, (g.arrive t).arrived u < (g.arrive t).clock := by
    intro s u hu
    rw [hstamp s u hu]
    exact Nat.lt_succ_of_lt (h.past s u hu)
  refine ⟨fun s' hpos => ?_, fun s' u hu => ?_, fun s' => ?_⟩
  · have hs : s' ≠ s := by
      rintro rfl
      rw [hwaits.sem, hzero] at hpos
      exact absurd hpos (by decide)
    rw [hwaits.sem] at hpos
    rw [hwaits.waiters_ne s' hs]
    exact h.idle s' hpos
  · by_cases hs : s' = s
    · subst hs
      rcases hwaits.joins with ⟨-, -, heq⟩ | ⟨xs, ys, heq, heq', -⟩
      · rw [heq] at hu; exact hpast s' u hu
      · by_cases hut : u = t
        · subst hut; simp [Arrivals.arrive]
        · refine hpast s' u ?_
          rw [heq'] at hu
          rw [heq]
          simpa [hut] using hu
    · rw [hwaits.waiters_ne s' hs] at hu; exact hpast s' u hu
  · rw [hahead]
    by_cases hs : s' = s
    · subst hs
      rcases hwaits.joins with ⟨-, -, heq⟩ | hj
      · rw [heq]; exact hkept s'
      · exact joins_pairwise hj (hnew s') (h.past s') (h.order s')
    · rw [hwaits.waiters_ne s' hs]; exact hkept s'

/-- **Every operation keeps the waiting lists in order.** -/
theorem WaitingOk.exec [Fintype τ] (hw : KernelWf a) (h : WaitingOk a.env g) {op : Op τ σ υ}
    (hop : Abs.Allowed a op) (hrun : Abs.exec a op = some a') :
    WaitingOk a'.env (g.note a op) := by
  unfold Abs.exec at hrun
  cases op with
  | call c => exact h.call hw.sched (execCall_effect hw hop hrun)
  | threadSleep tick =>
    obtain ⟨t, hcur, hcan⟩ := hop
    have hs := threadSleep_sleeps hw hcan hcur hrun
    refine h.thins ⟨fun s => by rw [hs.waiters], fun s u _ => ?_, fun s _ => by rw [hs.sem],
      fun s => .inl (by rw [hs.sem])⟩
    rw [hs.thread]
    by_cases hut : u = t
    · subst hut; simp
    · simp [hut]
  | semTake s time =>
    obtain ⟨_, hr⟩ := returned_of_map hrun
    rcases semTake_spec hr with ⟨hpos, -, rfl⟩ | ⟨-, htime, -, rfl⟩ | ⟨hb, t, hcur, -, hwait⟩
    · have hnb : ¬ TakeBlocks a s time := fun hb => by simp [hb.1] at hpos
      rw [Arrivals.note, if_neg hnb]
      exact h.taken hpos
    · have hnb : ¬ TakeBlocks a' s time := fun hb => hb.2 htime
      rw [Arrivals.note, if_neg hnb]
      exact h
    · obtain ⟨t', hcur', hcan⟩ := hop hb
      obtain rfl : t = t' := Option.some.inj (hcur.symm.trans hcur')
      rw [Arrivals.note, if_pos hb, hcur]
      exact h.takeWait hw hcan hb.1 hwait
  | tickIncrease script =>
    exact tick_invariant (I := fun e => WaitingOk e g) (C := fun _ => True)
      (fun _ _ _ h hwake => h.thins (.waking hwake)) (fun _ _ _ _ hw h => h.call hw) hw h
      (fun _ _ _ _ => trivial) hrun
  | schedulerStart => exact h.thins (.waking (Waking.schedStart hw.sched (onSched_spec hrun).1))

theorem Arrivals.note_rel {k : RtKernel τ σ υ} (h : KernelRel k a) (g : Arrivals τ)
    (op : Op τ σ υ) : g.note k op = g.note a op := by
  cases op with
  | semTake s time =>
    by_cases hb : TakeBlocks a s time
    · rw [note, note, if_pos hb, if_pos ((takeBlocks_iff h s time).mpr hb), h.env.current]
    · rw [note, note, if_neg hb, if_neg (mt (takeBlocks_iff h s time).mp hb)]
  | _ => rfl

theorem WaitingOk.boot {idle : τ} (h : Abs.boot idle = some a) : WaitingOk a.env .start := by
  have hnil := (boot_spec h).waiters
  exact ⟨fun s _ => hnil s, fun s t ht => by simp [hnil] at ht, fun s => by simp [hnil]⟩

/-! ## Releases -/

theorem semRelease_wakes [Fintype τ] [Fintype υ] {k : RtKernel τ σ υ} (h : KernelRel k a)
    (hw : KernelWf a) {ts : List τ} (hts : k.waiters s = t :: ts) :
    ∃ k', (Call.semRelease s).exec k = some k' ∧ k'.waiters s = ts ∧ k'.env.sem = k.env.sem ∧
      k'.env.thread = Function.update k.env.thread t { k.env.thread t with stat := .ready } := by
  rw [h.waiters] at hts
  obtain ⟨u, hrun⟩ := semRelease_eq hw.sched hts
  have hrun' : Abs.execCall a (.semRelease s) = some { a with env :=
      (a.env.relistReady t { a.env.thread t with stat := .ready }).switchTo u } := by
    rw [Abs.execCall, Sys.onSched, hrun]
    rfl
  obtain ⟨k', hk', h'⟩ := Lockstep.exists_of_right
    (execCall_rel h hw (c := .semRelease s) trivial) hrun'
  refine ⟨k', hk', ?_, ?_, ?_⟩
  · rw [h'.waiters]
    simp [hts]
  · rw [h'.env.sem, h.env.sem]
    simp
  · rw [h'.env.thread, h.env.thread]
    simp

/-- **Waiting lists.** In every run a semaphore with units has no waiters, its
waiters are suspended and listed once, in order of arrival or of priority and
arrival, and a release wakes the first of them. -/
theorem waiting_lists_ordered [Fintype τ] [Fintype υ] {idle : τ} {k : RtKernel τ σ υ}
    {g : Arrivals τ} (hk : Arrivals.observer.Reachable idle .start k g) (s : σ) :
    (0 < (k.env.sem s).value → k.waiters s = []) ∧
      (k.env.list.next (.head (.suspend s)) ≠ none → ThreadRing k (.suspend s) (k.waiters s)) ∧
      (k.waiters s).Nodup ∧
      (∀ t ∈ k.waiters s, (k.env.thread t).stat = .suspend) ∧
      ((k.env.sem s).flag = RT_IPC_FLAG_FIFO →
        (k.waiters s).Pairwise fun t u => g.arrived t < g.arrived u) ∧
      ((k.env.sem s).flag = RT_IPC_FLAG_PRIO →
        (k.waiters s).Pairwise fun t u =>
          (k.env.thread t).currentPriority < (k.env.thread u).currentPriority ∨
            (k.env.thread t).currentPriority = (k.env.thread u).currentPriority ∧
              g.arrived t < g.arrived u) ∧
      ∀ t ts, k.waiters s = t :: ts →
        ∃ k', (Call.semRelease s).exec k = some k' ∧ k'.waiters s = ts ∧
          k'.env.sem = k.env.sem ∧
          k'.env.thread =
            Function.update k.env.thread t { k.env.thread t with stat := .ready } := by
  obtain ⟨a, h, hw, hI⟩ := hk.invariant (I := fun a g => WaitingOk a.env g)
    (fun a ha _ => WaitingOk.boot ha) (fun k a g e _ _ _ _ hnone => by cases hnone)
    fun k a g e op a' h hw hI _ hop hallowed hrun => by
      cases hop
      have hnote : Arrivals.observer.note k g e = g.note a e := Arrivals.note_rel h g e
      rw [hnote]
      exact hI.exec hw hallowed hrun
  refine ⟨fun hpos => ?_, fun hlive => ?_, ?_, fun t ht => ?_, fun hflag => ?_, fun hflag => ?_,
    fun t ts hts => semRelease_wakes h hw hts⟩
  · rw [h.waiters]
    exact hI.idle s (by rwa [h.env.sem] at hpos)
  · rw [h.waiters]
    refine h.env.rep.ring _ ?_
    by_contra hdead
    exact hlive (h.env.rep.null _ (by simpa using hdead)).1
  · rw [h.waiters]
    exact hw.sched.valid.nodup _
  · rw [h.waiters] at ht
    rw [h.env.thread]
    exact hw.sched.waiting t s ht
  · rw [h.waiters]
    rw [h.env.sem] at hflag
    exact (hI.order s).imp fun {t u} hahead => hahead.1 hflag
  · rw [h.waiters, h.env.thread]
    rw [h.env.sem] at hflag
    exact (hI.order s).imp fun {t u} hahead => hahead.2 hflag

/-- The more urgent thread 2 sleeps, thread 1 begins to wait, thread 2 wakes and
begins to wait after it. -/
def twoWaits : List (Op (Fin 3) (Fin 1) (Fin 1)) :=
  [.call (.threadInit 1 5 10), .call (.threadInit 2 3 10), .call (.threadStartup 1),
    .call (.threadStartup 2), .call (.semInit 0 0 RT_IPC_FLAG_PRIO), .schedulerStart,
    .threadSleep 1, .semTake 0 9, .tickIncrease [[]], .semTake 0 (-1)]

theorem release_after_two_waits : ∃ k g, Arrivals.observer.runFrom 0 .start twoWaits = some (k, g) ∧
    ∃ k', (Call.semRelease 0).exec k = some k' ∧ k'.waiters 0 = [1] := by
  obtain ⟨k, g, hrun, hreach, hp⟩ := Arrivals.observer.reachable_of_runFrom 0 .start twoWaits
    (fun x => x.1.waiters 0 = [2, 1]) (by decide +kernel)
  obtain ⟨-, -, -, -, -, -, hrelease⟩ := waiting_lists_ordered hreach 0
  obtain ⟨k', hk', hrest, -⟩ := hrelease 2 [1] (of_decide_eq_true hp)
  exact ⟨k, g, hrun, k', hk', hrest⟩

end Waiting

end SampleRtos
