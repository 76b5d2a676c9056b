import SampleRtos.Lib.Exclusion
import SampleRtos.Kernel.Interleave
import SampleRtos.Kernel.LockNest

/-!
# Critical regions

From `rt_enter_critical` to `rt_exit_critical` a thread keeps the processor: it may wake a more
urgent thread, use up its slice or even suspend itself, and still nobody else runs before the
lock is open again. Data that threads share and touch in such regions only is therefore changed
by one at a time, and an update that reads first and writes later is not lost, whatever comes
in between.
-/

namespace SampleRtos

open Intrusive Exclusion

/-- The enters that a thread has open after a function. -/
def Service.nest {σ : Type} (d : Nat) : Service σ → Nat
  | .enterCritical => d + 1
  | .exitCritical => d - 1
  | _ => d

/-- The guard of `rt_enter_critical` lets the enter through, and the exit has its enter. -/
def Service.Nested {σ : Type} (d : Nat) : Service σ → Prop
  | .enterCritical => d < 255
  | .exitCritical => 0 < d
  | _ => True

instance {σ : Type} (d : Nat) (f : Service σ) : Decidable (f.Nested d) := by
  rcases f <;> dsimp only [Service.Nested] <;> infer_instance

/-- The threads, and how many enters each has open. -/
structure Nesting (τ σ υ : Type) where
  system : Interleaved τ σ υ
  depth : τ → Nat

section Critical
variable {τ σ υ V : Type} [DecidableEq τ] [DecidableEq σ] [DecidableEq υ]

/-- The enters open after a move. -/
def KernelMove.nest (current : Option τ) (depth : τ → Nat) : KernelMove τ σ υ → τ → Nat
  | .enter f => current.elim depth fun t => Function.update depth t (f.nest (depth t))
  | _ => depth

/-- Enters and exits come from threads, counted and paired. -/
def KernelMove.Nested (current : Option τ) (depth : τ → Nat) : KernelMove τ σ υ → Prop
  | .enter f => ∀ t ∈ current, f.Nested (depth t)
  | .masked c => c.nest 1 = 1
  | .tick script => ∀ cs ∈ script, ∀ c ∈ cs, c.nest 1 = 1
  | .handler cs => ∀ c ∈ cs, c.nest 1 = 1
  | _ => True

instance (current : Option τ) (depth : τ → Nat) (m : KernelMove τ σ υ) :
    Decidable (m.Nested current depth) := by
  rcases m <;> dsimp only [KernelMove.Nested] <;> infer_instance

namespace Nesting

def current (x : Nesting τ σ υ) : Option τ := x.system.kernel.env.rtCurrentThread

def exec [Fintype τ] [Fintype υ] (x : Nesting τ σ υ) (m : KernelMove τ σ υ) :
    Option (Nesting τ σ υ) := do
  let st ← m.exec x.system
  return { system := st, depth := m.nest x.current x.depth }

def Allowed [Fintype τ] [Fintype υ] (x : Nesting τ σ υ) (m : KernelMove τ σ υ) : Prop :=
  m.Allowed x.system ∧ m.Nested x.current x.depth

instance [Fintype τ] [Fintype υ] (x : Nesting τ σ υ) (m : KernelMove τ σ υ) :
    Decidable (x.Allowed m) :=
  inferInstanceAs (Decidable (_ ∧ _))

end Nesting

/-- The critical regions of threads: inside is who has an enter open, and the current thread runs
there if it is in no function. -/
def criticalRegions (τ σ υ : Type) [DecidableEq τ] [DecidableEq σ] [DecidableEq υ] [Fintype τ]
    [Fintype υ] : Regions (Nesting τ σ υ) (KernelMove τ σ υ) τ where
  exec := Nesting.exec
  ok := Nesting.Allowed
  inside x t := 0 < x.depth t
  runs x := x.current.filter fun t =>
    (x.system.pending t).isNone && (x.system.errand t).isNone

instance [Fintype τ] [Fintype υ] (x : Nesting τ σ υ) :
    DecidablePred ((criticalRegions τ σ υ).inside x) :=
  fun t => inferInstanceAs (Decidable (0 < x.depth t))

instance [Fintype τ] [Fintype υ] (x : Nesting τ σ υ) (m : KernelMove τ σ υ) :
    Decidable ((criticalRegions τ σ υ).ok x m) :=
  inferInstanceAs (Decidable (x.Allowed m))

/-- The threads once the kernel is initialised. -/
def Nesting.booted (k : RtKernel τ σ υ) : Nesting τ σ υ := ⟨.booted k, fun _ => 0⟩

/-- The states in which data shared in critical regions has started with `v`. -/
def SharingReachable [Fintype τ] [Fintype υ] (idle : τ) (v : V)
    (x : Nesting τ σ υ × Shared τ V) : Prop :=
  ∃ k ∈ boot idle, Run.Reach (criticalRegions τ σ υ).step (criticalRegions τ σ υ).Allowed
    (.booted k, .init v) x

/-! ## Sections that leave the lock alone -/

namespace Defers
variable {k k' : RtKernel τ σ υ} {e e' : SchedSys τ σ (ThreadLinks τ σ)} [Fintype τ] [Fintype υ]

theorem takeSection {s : σ} {time : BitVec 32} {r : Rest τ}
    (h : SampleRtos.takeSection k s time = some (r, k')) : Defers k.env k'.env := by
  unfold SampleRtos.takeSection at h
  split at h
  · cases h
    exact ⟨rfl, fun _ => rfl⟩
  · split at h
    · cases h
      exact refl _
    · obtain ⟨t, -, h⟩ := Option.bind_eq_some_iff.mp h
      obtain ⟨k₁, hlist, h⟩ := Option.bind_eq_some_iff.mp h
      obtain ⟨⟨e, k₀⟩, hsusp, hins⟩ := Option.bind_eq_some_iff.mp hlist
      obtain ⟨k₂, htimer, hret⟩ := Option.bind_eq_some_iff.mp h
      cases hret
      have herr : Defers k.env (k.env.setError t RT_EOK) := ⟨rfl, fun _ => rfl⟩
      have h₁ : Defers k.env k₁.env :=
        (herr.trans (threadSuspend (k := { k with env := k.env.setError t RT_EOK }) hsusp)).trans
          (onSched hins fun _ he => ipcInsert he)
      refine h₁.trans ?_
      split at htimer
      · exact onTimers htimer
      · cases htimer
        exact refl _

section
omit [DecidableEq υ] [Fintype τ] [Fintype υ]

theorem releaseSection {s : σ} {r : Rest τ}
    (h : SampleRtos.releaseSection k s = some (r, k')) : Defers k.env k'.env := by
  unfold SampleRtos.releaseSection at h
  split at h
  · obtain ⟨k₁, hres, hret⟩ := Option.bind_eq_some_iff.mp h
    cases hret
    refine onSched hres fun e hresume => ?_
    obtain ⟨n, -, hresume⟩ := Option.bind_eq_some_iff.mp hresume
    obtain ⟨t, -, hresume⟩ := Option.bind_eq_some_iff.mp hresume
    obtain ⟨⟨r, e₂⟩, hresume, hret⟩ := Option.bind_eq_some_iff.mp hresume
    cases hret
    exact resume hresume
  · cases h
    exact ⟨rfl, fun _ => rfl⟩

end

/-- No function but those of the lock itself touches the lock. -/
theorem enter {f : Service σ} {r : Rest τ} (hf : f.nest 1 = 1) (h : f.enter k = some (r, k')) :
    Defers k.env k'.env := by
  cases f with
  | threadSleep tick =>
    obtain ⟨t, -, h⟩ := Option.bind_eq_some_iff.mp h
    obtain ⟨⟨e, k₁⟩, hsusp, h⟩ := Option.bind_eq_some_iff.mp h
    obtain ⟨k₂, htimer, hret⟩ := Option.bind_eq_some_iff.mp h
    cases hret
    exact (threadSuspend hsusp).trans (onTimers htimer)
  | threadYield =>
    obtain ⟨t, -, h⟩ := Option.bind_eq_some_iff.mp h
    split at h
    · obtain ⟨l, -, h⟩ := Option.bind_eq_some_iff.mp h
      obtain ⟨l', -, hret⟩ := Option.bind_eq_some_iff.mp h
      cases hret
      exact ⟨rfl, fun _ => rfl⟩
    · cases h
      exact refl _
  | semTake s time => exact takeSection h
  | semRelease s => exact releaseSection h
  | semControl s cmd arg =>
    simp only [Service.enter] at h
    split at h
    · obtain ⟨k₁, hall, hret⟩ := Option.bind_eq_some_iff.mp h
      cases hret
      have h₁ : Defers k.env k₁.env := onSched hall fun _ he => ipcResumeAll s _ he
      exact h₁.trans ⟨rfl, fun _ => rfl⟩
    · cases h
      exact refl _
  | enterCritical => cases hf
  | exitCritical => cases hf
  | schedule =>
    cases h
    exact refl _

section
omit [DecidableEq σ] [DecidableEq υ] [Fintype τ] [Fintype υ]

theorem finish {r : Rest τ} (h : r.finish k = some k') : Defers k.env k'.env := by
  have hsched : ∀ {k'}, k.onSched rtSchedule = some k' → Defers k.env k'.env :=
    fun h => onSched h fun _ he => schedule he
  cases r with
  | returned e =>
    cases h
    exact refl _
  | exits =>
    simp only [Rest.finish] at h
    split at h
    · exact hsched h
    · cases h
      exact refl _
  | schedules => exact hsched h
  | waits t => exact hsched h

end

/-- Nor does any piece. -/
theorem piece {p : Piece τ σ υ} {n : Piece τ σ υ ⊕ Rest τ} (h : p.step k = some (n, k')) :
    Defers k.env k'.env := by
  cases p with
  | resume t q b =>
    cases q with
    | entry =>
      rw [Piece.step] at h
      split at h <;> cases h <;> exact refl _
    | checked =>
      obtain ⟨k₁, hk₁, hret⟩ := Option.bind_eq_some_iff.mp h
      cases hret
      refine onSched hk₁ fun e he => ?_
      obtain ⟨l, -, hret⟩ := Option.bind_eq_some_iff.mp he
      cases hret
      exact ⟨rfl, fun _ => rfl⟩
    | unlinked =>
      obtain ⟨k₁, hk₁, hret⟩ := Option.bind_eq_some_iff.mp h
      cases hret
      exact onSched hk₁ fun _ he => insertThread he
    | inserted =>
      cases h
      exact refl _
  | startup t q =>
    cases h
    exact ⟨rfl, fun _ => rfl⟩
  | suspend t tested =>
    cases tested with
    | false =>
      rw [Piece.step] at h
      split at h <;> cases h <;> exact refl _
    | true =>
      obtain ⟨k₁, hk₁, hret⟩ := Option.map_eq_some_iff.mp h
      cases hret
      obtain ⟨k₂, hk₂, hk₁⟩ := Option.bind_eq_some_iff.mp hk₁
      obtain ⟨⟨e, tm⟩, -, hret⟩ := Option.bind_eq_some_iff.mp hk₁
      cases hret
      have hstat : Defers k.env (k.env.setStat t .suspend) := ⟨rfl, fun _ => rfl⟩
      have hremove : Defers k.env k₂.env := onSched hk₂ fun _ he => hstat.trans (removeThread he)
      exact hremove
  | detach t q =>
    cases q with
    | entry =>
      cases h
      exact refl _
    | checked =>
      obtain ⟨k₁, hk₁, hret⟩ := Option.map_eq_some_iff.mp h
      cases hret
      exact onSched hk₁ fun _ he => removeThread he
    | removed =>
      obtain ⟨k₁, hk₁, hret⟩ := Option.map_eq_some_iff.mp h
      cases hret
      exact onTimers hk₁
    | disarmed =>
      cases h
      exact ⟨rfl, fun _ => rfl⟩
    | closed =>
      obtain ⟨k₁, hk₁, hret⟩ := Option.map_eq_some_iff.mp h
      cases hret
      unfold rtThreadDetachFinish at hk₁
      split at hk₁
      · cases hk₁
        exact refl _
      · obtain ⟨l, -, hret⟩ := Option.bind_eq_some_iff.mp hk₁
        cases hret
        exact ⟨rfl, fun _ => rfl⟩
  | semDetach s q =>
    cases q with
    | test =>
      rw [Piece.step] at h
      split at h <;> cases h <;> exact refl _
    | body =>
      obtain ⟨k₁, hk₁, hret⟩ := Option.bind_eq_some_iff.mp h
      cases hret
      refine onSched hk₁ fun e he => ?_
      obtain ⟨m, -, he⟩ := Option.bind_eq_some_iff.mp he
      obtain ⟨t, -, he⟩ := Option.bind_eq_some_iff.mp he
      obtain ⟨⟨r, e₂⟩, he, hret⟩ := Option.bind_eq_some_iff.mp he
      cases hret
      have herr : Defers k.env (k.env.setError t (-RT_ERROR)) := ⟨rfl, fun _ => rfl⟩
      exact herr.trans (resume he)
    | left =>
      cases h
      exact refl _
  | timer u q =>
    rw [Piece.timer_env h]
    exact refl _
  | timerDetach u =>
    obtain ⟨k₁, hk₁, hret⟩ := Option.bind_eq_some_iff.mp h
    cases hret
    exact onTimers hk₁

end Defers

/-! ## Calls that leave the lock alone -/

section
omit [DecidableEq τ] [DecidableEq σ] [DecidableEq υ]

theorem Call.nest_eq {c : Call τ σ υ} (hc : c.nest 1 = 1) (d : Nat) : c.nest d = d := by
  cases c with
  | enterCritical => cases hc
  | exitCritical => cases hc
  | _ => rfl

/-- Calls that do not touch the lock pair and count whatever is open, and leave it open. -/
theorem lockFree_calls {d : Nat} (cs : List (Call τ σ υ)) (hcs : ∀ c ∈ cs, c.nest 1 = 1) :
    Throughout Paired d cs ∧ Throughout Counted d cs ∧ nestAll d cs = d ∧
      (0 < d → Held d cs) := by
  induction cs with
  | nil => exact ⟨trivial, trivial, rfl, id⟩
  | cons c cs ih =>
    have hc := hcs c (by simp)
    obtain ⟨hpaired, hcounted, hnest, hheld⟩ := ih fun c hc => hcs c (by simp [hc])
    have hlock : Paired d c ∧ Counted d c := by
      cases c with
      | enterCritical => cases hc
      | exitCritical => cases hc
      | _ => exact ⟨trivial, trivial⟩
    simp only [Throughout, nestAll, List.foldl_cons, Held, Call.nest_eq hc]
    exact ⟨⟨hlock.1, hpaired⟩, ⟨hlock.2, hcounted⟩, hnest, fun hpos => ⟨hpos, hheld hpos⟩⟩

theorem LockRun.defers {e e' : SchedSys τ σ (ThreadLinks τ σ)} {d : Nat} {cs : List (Call τ σ υ)}
    (h : LockRun d cs e e') (hd : e.rtSchedulerLockNest = d) (hcs : ∀ c ∈ cs, c.nest 1 = 1) :
    Defers e e' := by
  obtain ⟨hpaired, hcounted, hnest, hheld⟩ := lockFree_calls (d := d) cs hcs
  obtain ⟨hlock, hcur⟩ := h hd hpaired hcounted
  refine ⟨by rw [hlock, hnest, hd], fun hne => hcur (hheld ?_)⟩
  omega

end

section Calls
variable [Fintype τ] [Fintype υ]

/-- The callbacks make no calls but those of the script. -/
theorem timerCheckCalls_mem {c : Call τ σ υ} (script : List (List (Call τ σ υ))) :
    ∀ {k : RtKernel τ σ υ}, c ∈ timerCheckCalls script k → ∃ cs ∈ script, c ∈ cs := by
  induction script with
  | nil => intro k hc; cases hc
  | cons cs script ih =>
    intro k hc
    rw [timerCheckCalls] at hc
    split at hc
    · cases hc
    · split at hc
      · rcases List.mem_append.mp hc with hc | hc
        · refine ⟨cs, by simp, ?_⟩
          unfold firedCalls at hc
          split at hc
          · exact hc
          · cases hc
        · rename_i x _ _ _
          cases hfire : rtTimerFire kernelCallback cs x k with
          | none =>
            rw [hfire] at hc
            cases hc
          | some k₁ =>
            rw [hfire] at hc
            obtain ⟨cs', hmem, hc⟩ := ih hc
            exact ⟨cs', by simp [hmem], hc⟩
      · cases hc

theorem tickCalls_mem {c : Call τ σ υ} {script : List (List (Call τ σ υ))} {k : RtKernel τ σ υ}
    (hc : c ∈ tickCalls script k) : ∃ cs ∈ script, c ∈ cs := by
  unfold tickCalls at hc
  cases hslice : Sys.onSched { k with timers := { k.timers with rtTick := k.timers.rtTick + 1 } }
      rtTickSlice with
  | none =>
    rw [hslice] at hc
    cases hc
  | some k₁ =>
    rw [hslice] at hc
    exact timerCheckCalls_mem script hc

end Calls

/-! ## Who is in a critical region -/

/-- The lock counts the enters of the current thread, and nobody else has any open. -/
structure Exclusive (e : SchedSys τ σ (ThreadLinks τ σ)) (depth : τ → Nat) : Prop where
  current : ∀ t, e.rtCurrentThread = some t → e.rtSchedulerLockNest = depth t
  holder : ∀ t, 0 < depth t → e.rtCurrentThread = some t
  idle : e.rtCurrentThread = none → e.rtSchedulerLockNest = 0

namespace Exclusive
variable {e e' : SchedSys τ σ (ThreadLinks τ σ)} {depth : τ → Nat} {t : τ}

section
omit [DecidableEq τ] [DecidableEq σ]

/-- The lock count is a number of enters. -/
theorem count (h : Exclusive e depth) : ∃ d : Nat, e.rtSchedulerLockNest = d := by
  cases hcur : e.rtCurrentThread with
  | none => exact ⟨0, h.idle hcur⟩
  | some t => exact ⟨depth t, h.current t hcur⟩

/-- While the lock is open nobody is in a region. -/
theorem outside (h : Exclusive e depth) (hopen : e.rtSchedulerLockNest = 0) (t : τ) :
    depth t = 0 := by
  by_contra hne
  have hlock := h.current t (h.holder t (Nat.pos_of_ne_zero hne))
  omega

theorem defers (h : Exclusive e depth) (hd : Defers e e') : Exclusive e' depth := by
  have hlock := hd.lockNest
  by_cases hopen : e.rtSchedulerLockNest = 0
  · have hzero := h.outside hopen
    refine ⟨fun t _ => ?_, fun t ht => ?_, fun _ => by rw [hlock, hopen]⟩
    · rw [hlock, hopen, hzero t]
      rfl
    · rw [hzero t] at ht
      cases ht
  · have hcur := hd.current hopen
    exact ⟨fun t ht => by rw [hlock]; exact h.current t (hcur ▸ ht),
      fun t ht => by rw [hcur]; exact h.holder t ht,
      fun hnone => by rw [hlock]; exact h.idle (hcur ▸ hnone)⟩

end

section
omit [DecidableEq σ]

/-- The current thread opens or closes a region: whoever else had one open had none. -/
theorem update (h : Exclusive e depth) (hcur : e.rtCurrentThread = some t) {d : Nat}
    (hcur' : e'.rtCurrentThread = some t) (hlock : e'.rtSchedulerLockNest = d) :
    Exclusive e' (Function.update depth t d) := by
  refine ⟨fun u hu => ?_, fun u hu => ?_, fun hnone => ?_⟩
  · obtain rfl : t = u := Option.some.inj (hcur'.symm.trans hu)
    rw [hlock, Function.update_self]
  · by_cases hut : u = t
    · rw [hcur', hut]
    · rw [Function.update_of_ne hut] at hu
      have hu' := h.holder u hu
      rw [hcur] at hu'
      exact absurd (Option.some.inj hu').symm hut
  · rw [hcur'] at hnone
    cases hnone

end

variable [Fintype τ] [Fintype υ] {st st' : Interleaved τ σ υ}

/-- **One move** keeps all but the current thread out. -/
theorem move (h : Exclusive st.kernel.env depth) {m : KernelMove τ σ υ} (hm : m.Allowed st)
    (hn : m.Nested st.kernel.env.rtCurrentThread depth) (hrun : m.exec st = some st') :
    Exclusive st'.kernel.env (m.nest st.kernel.env.rtCurrentThread depth) := by
  obtain ⟨d, hd⟩ := h.count
  cases m with
  | enter f =>
    obtain ⟨t, hcur, hrun⟩ := Option.bind_eq_some_iff.mp hrun
    obtain ⟨⟨r, k'⟩, henter, hret⟩ := Option.bind_eq_some_iff.mp hrun
    cases hret
    have hnested : f.Nested (depth t) := hn t hcur
    have hlock : st.kernel.env.rtSchedulerLockNest = depth t := h.current t hcur
    rw [KernelMove.nest, hcur, Option.elim_some]
    by_cases hf : f.nest 1 = 1
    · have hsame : f.nest (depth t) = depth t := by
        cases f with
        | enterCritical => cases hf
        | exitCritical => cases hf
        | _ => rfl
      rw [hsame, Function.update_eq_self]
      exact h.defers (.enter hf henter)
    · cases f with
      | enterCritical =>
        cases henter
        have hlt : depth t < 255 := hnested
        have hguard : st.kernel.env.rtSchedulerLockNest < 255 := by omega
        refine h.update hcur ?_ ?_ <;> simp only [SchedSys.rtEnterCritical, if_pos hguard]
        · exact hcur
        · rw [hlock]
          rfl
      | exitCritical =>
        have hpos : 0 < depth t := hnested
        obtain ⟨-, rfl⟩ := Prod.ext_iff.mp (Option.some.inj henter)
        refine h.update hcur ?_ ?_ <;> dsimp only [exitSection] <;> split
        · exact hcur
        · exact hcur
        · show (0 : Int) = ((depth t - 1 : Nat) : Int)
          omega
        · show st.kernel.env.rtSchedulerLockNest - 1 = ((depth t - 1 : Nat) : Int)
          omega
      | _ => exact absurd rfl hf
  | finish =>
    obtain ⟨t, hcur, hrun⟩ := Option.bind_eq_some_iff.mp hrun
    obtain ⟨r, hr, hrun⟩ := Option.bind_eq_some_iff.mp hrun
    obtain ⟨k', hfin, hret⟩ := Option.bind_eq_some_iff.mp hrun
    cases hret
    exact h.defers (.finish hfin)
  | invoke c =>
    obtain ⟨t, -, hrun⟩ := Option.bind_eq_some_iff.mp hrun
    obtain ⟨p, -, hret⟩ := Option.bind_eq_some_iff.mp hrun
    cases hret
    exact h
  | piece =>
    obtain ⟨t, -, hrun⟩ := Option.bind_eq_some_iff.mp hrun
    obtain ⟨p, -, hrun⟩ := Option.bind_eq_some_iff.mp hrun
    obtain ⟨⟨n, k'⟩, hstep, hret⟩ := Option.bind_eq_some_iff.mp hrun
    cases hret
    exact h.defers (.piece hstep)
  | masked c =>
    obtain ⟨k', hc, hret⟩ := Option.bind_eq_some_iff.mp hrun
    cases hret
    exact h.defers (.call hn hc)
  | tick script =>
    obtain ⟨k', htick, hret⟩ := Option.bind_eq_some_iff.mp hrun
    cases hret
    refine h.defers ((LockRun.tick htick).defers hd fun c hc => ?_)
    obtain ⟨cs, hcs, hc⟩ := tickCalls_mem hc
    exact hn cs hcs c hc
  | handler cs =>
    obtain ⟨k', hcs, hret⟩ := Option.bind_eq_some_iff.mp hrun
    cases hret
    exact h.defers ((LockRun.runCalls cs hcs).defers hd hn)
  | start =>
    obtain ⟨k', hstart, hret⟩ := Option.bind_eq_some_iff.mp hrun
    cases hret
    obtain ⟨e, he, hret⟩ := Option.bind_eq_some_iff.mp hstart
    obtain ⟨t, -, hret'⟩ := Option.bind_eq_some_iff.mp he
    cases hret
    cases hret'
    have hopen : st.kernel.env.rtSchedulerLockNest = 0 := h.idle hm
    exact h.defers ⟨rfl, fun hne => absurd hopen hne⟩

end Exclusive

/-! ## No update is lost -/

section Runs
variable [Fintype τ] [Fintype υ] {x : Nesting τ σ υ}

theorem exclusive_of_reach {idle : τ} {k : RtKernel τ σ υ} (hboot : k ∈ boot idle)
    (h : Run.Reach Nesting.exec Nesting.Allowed (.booted k) x) :
    Exclusive x.system.kernel.env x.depth := by
  have hlock : k.env.rtSchedulerLockNest = 0 := boot_lockNest hboot
  refine Run.invariant (I := fun x => Exclusive x.system.kernel.env x.depth)
    (fun x m x' hI hm hrun => ?_) ⟨fun t _ => hlock, fun t ht => ?_, fun _ => hlock⟩ h
  · obtain ⟨st, hst, hret⟩ := Option.bind_eq_some_iff.mp hrun
    cases hret
    exact hI.move hm.1 hm.2 hst
  · cases ht

end Runs

end Critical

/-- Threads 1 and 2 count up. Thread 1 goes to sleep between its read and its write, and two
ticks come in. -/
def countUp : List (Move (KernelMove (Fin 3) (Fin 1) Empty) (BitVec 32)) :=
  [.base (.masked (.threadInit 1 3 10)), .base (.masked (.threadInit 2 3 10)),
    .base (.masked (.threadStartup 1)), .base (.masked (.threadStartup 2)), .base .start,
    .base (.enter .enterCritical), .load, .base (.enter (.threadSleep 100)), .base (.tick []),
    .base .finish, .base (.tick []), .store (· + 1), .base (.enter .exitCritical), .base .finish,
    .base (.enter .enterCritical), .load, .store (· + 1)]

end SampleRtos
