import SampleRtos.Lib.Run
import SampleRtos.Kernel.Defs

/-!
# A semaphore as a counter

`rt_sem_trytake` and `rt_sem_release` on a semaphore nobody waits for, beside a
counter that has no largest value. The stored value has sixteen bits and
neither initialisation nor a release checks them, so it is the counter's value
modulo 65536 until a trytake finds the counter at a multiple of that.
-/

namespace SampleRtos

open Intrusive

/-- A call that cannot block. -/
inductive SemCall where
  | trytake
  | release
  deriving DecidableEq, Repr

/-- What the trytakes return on an unbounded counter that stands at `n`. -/
def counterResults : Nat → List SemCall → List Int
  | _, [] => []
  | n, .release :: ops => counterResults (n + 1) ops
  | 0, .trytake :: ops => -RT_ETIMEOUT :: counterResults 0 ops
  | n + 1, .trytake :: ops => RT_EOK :: counterResults n ops

/-- No trytake finds the unbounded counter at a positive multiple of 65536. -/
def NeverAtMultiple : Nat → List SemCall → Prop
  | _, [] => True
  | n, .release :: ops => NeverAtMultiple (n + 1) ops
  | n, .trytake :: ops => (0 < n → n % 65536 ≠ 0) ∧ NeverAtMultiple (n - 1) ops

instance decidableNeverAtMultiple : (n : Nat) → (ops : List SemCall) →
    Decidable (NeverAtMultiple n ops)
  | _, [] => .isTrue trivial
  | n, .release :: ops => decidableNeverAtMultiple (n + 1) ops
  | n, .trytake :: ops =>
      have := decidableNeverAtMultiple (n - 1) ops
      inferInstanceAs (Decidable (_ ∧ _))

/-- A counter that stays below 65536 never stands at such a multiple. -/
theorem neverAtMultiple_of_lt {n : Nat} {ops : List SemCall} (h : n + ops.length < 65536) :
    NeverAtMultiple n ops := by
  induction ops generalizing n with
  | nil => trivial
  | cons op ops ih =>
    rw [List.length_cons] at h
    cases op with
    | release => exact ih (by omega)
    | trytake => exact ⟨by omega, ih (by omega)⟩

section Counter
variable {τ σ υ : Type} [DecidableEq τ] [Fintype τ] [DecidableEq σ] [DecidableEq υ] [Fintype υ]

/-- `rt_sem_trytake`. -/
def rtSemTrytake (k : RtKernel τ σ υ) (s : σ) : Option (TakeOutcome τ × RtKernel τ σ υ) :=
  rtSemTake k s 0

/-- A sequence of calls on one semaphore, with what its trytakes return. -/
def runSem (s : σ) : List SemCall → RtKernel τ σ υ → Option (List (TakeOutcome τ) × RtKernel τ σ υ)
  | [], k => some ([], k)
  | .trytake :: ops, k => do
      let (r, k) ← rtSemTrytake k s
      let (rs, k) ← runSem s ops k
      return (r :: rs, k)
  | .release :: ops, k => do
      let k ← k.onSched fun e => rtSemRelease e s
      runSem s ops k

variable {k : RtKernel τ σ υ} {s : σ}

/-- Nobody waits for `s`, whose value stands for the counter's `n`. -/
structure CountsTo (k : RtKernel τ σ υ) (s : σ) (n : Nat) : Prop where
  empty : rtListIsempty k.env.list (.head (.suspend s)) = true
  value : (k.env.sem s).value = BitVec.ofNat 16 n

/-- A stored value other than 0 is taken from. -/
theorem rtSemTrytake_taken (h : (k.env.sem s).value ≠ 0) :
    rtSemTrytake k s = some (.returned RT_EOK,
      { k with env := k.env.setSem s { k.env.sem s with value := (k.env.sem s).value - 1 } }) := by
  have hpos : 0 < (k.env.sem s).value := by bv_omega
  simp only [rtSemTrytake, rtSemTake, if_pos hpos, Option.pure_def]

theorem rtSemTrytake_empty (h : (k.env.sem s).value = 0) :
    rtSemTrytake k s = some (.returned (-RT_ETIMEOUT), k) := by
  have hpos : ¬ 0 < (k.env.sem s).value := by rw [h]; decide
  simp only [rtSemTrytake, rtSemTake, if_neg hpos, if_true, Option.pure_def]

section
omit [DecidableEq υ] [Fintype τ] [Fintype υ]

/-- Nobody waiting, a release adds one to the stored value. -/
theorem rtSemRelease_counts (h : rtListIsempty k.env.list (.head (.suspend s)) = true) :
    (k.onSched fun e => rtSemRelease e s) = some
      { k with env := k.env.setSem s { k.env.sem s with value := (k.env.sem s).value + 1 } } := by
  simp only [Sys.onSched, rtSemRelease, h, not_true_eq_false, if_false, Option.pure_def,
    Option.bind_eq_bind, Option.bind_some]

/-- Storing a value on the semaphore leaves its list as it is. -/
theorem CountsTo.setSem {n m : Nat} (h : CountsTo k s n) (r : RtSemaphore)
    (hr : r.value = BitVec.ofNat 16 m) : CountsTo { k with env := k.env.setSem s r } s m := by
  refine ⟨h.empty, ?_⟩
  show (Function.update k.env.sem s r s).value = _
  rw [Function.update_self, hr]

theorem CountsTo.value_eq_zero {n : Nat} (h : CountsTo k s n) :
    (k.env.sem s).value = 0 ↔ n % 65536 = 0 := by
  rw [h.value, ← BitVec.toNat_inj]
  simp

end

/-- The semaphore that counts to `n` answers as the counter does exactly while
no trytake finds the counter at a positive multiple of 65536. -/
theorem runSem_counter {n : Nat} (ops : List SemCall) (h : CountsTo k s n) :
    ∃ rs k', runSem s ops k = some (rs, k') ∧
      (rs = (counterResults n ops).map .returned ↔ NeverAtMultiple n ops) := by
  induction ops generalizing k n with
  | nil => exact ⟨[], k, rfl, by simp [counterResults, NeverAtMultiple]⟩
  | cons op ops ih =>
    cases op with
    | release =>
      have hnext : (k.env.sem s).value + 1 = BitVec.ofNat 16 (n + 1) := by
        rw [h.value, BitVec.ofNat_add]
        rfl
      obtain ⟨rs, k', hrun, hiff⟩ :=
        ih (h.setSem { k.env.sem s with value := (k.env.sem s).value + 1 } hnext)
      refine ⟨rs, k', ?_, hiff⟩
      rw [runSem, rtSemRelease_counts h.empty]
      exact hrun
    | trytake =>
      by_cases hzero : (k.env.sem s).value = 0
      · -- the stored value is 0: the code reports a timeout
        obtain ⟨rs, k', hrun, hiff⟩ := ih h
        refine ⟨.returned (-RT_ETIMEOUT) :: rs, k', ?_, ?_⟩
        · simp only [runSem, rtSemTrytake_empty hzero, hrun, Option.bind_eq_bind,
            Option.bind_some, Option.pure_def]
        · cases n with
          | zero => simp [counterResults, NeverAtMultiple, hiff]
          | succ n =>
            -- the counter is positive and answers otherwise
            have hmod := h.value_eq_zero.mp hzero
            have hne : ¬ (-RT_ETIMEOUT : Int) = RT_EOK := by decide
            simp [counterResults, NeverAtMultiple, hmod, hne]
      · have hmod : n % 65536 ≠ 0 := fun hn => hzero (h.value_eq_zero.mpr hn)
        have hprev : (k.env.sem s).value - 1 = BitVec.ofNat 16 (n - 1) := by
          rw [h.value]
          apply BitVec.eq_of_toNat_eq
          simp
          omega
        obtain ⟨rs, k', hrun, hiff⟩ :=
          ih (h.setSem { k.env.sem s with value := (k.env.sem s).value - 1 } hprev)
        refine ⟨.returned RT_EOK :: rs, k', ?_, ?_⟩
        · simp only [runSem, rtSemTrytake_taken hzero, hrun, Option.bind_eq_bind,
            Option.bind_some, Option.pure_def]
        · cases n with
          | zero => exact absurd rfl hmod
          | succ n =>
            rw [Nat.add_sub_cancel] at hiff
            simp [counterResults, NeverAtMultiple, hmod, hiff]

/-- A semaphore initialised at `value` answers a sequence of trytakes and
releases as the unbounded counter started there exactly when no trytake of the
sequence finds that counter at a positive multiple of 65536. -/
theorem semaphore_counts (k : RtKernel τ σ υ) (s : σ) (value : BitVec 32) (flag : BitVec 8)
    (ops : List SemCall) :
    ∃ rs k', runSem s ops { k with env := rtSemInit k.env s value flag } = some (rs, k') ∧
      (rs = (counterResults value.toNat ops).map .returned ↔
        NeverAtMultiple value.toNat ops) := by
  refine runSem_counter ops ⟨?_, ?_⟩
  · simp [rtSemInit, SchedSys.setSem, rtListInit_eq, rtListIsempty, Links.selfLink]
  · show (Function.update k.env.sem s _ s).value = _
    rw [Function.update_self]
    apply BitVec.eq_of_toNat_eq
    rw [BitVec.toNat_setWidth, BitVec.toNat_ofNat]

end Counter

/-- The value 65536 is stored as 0, so the first trytake fails. -/
theorem initialised_empty :
    ¬ ∀ (k : RtKernel (Fin 1) (Fin 1) Empty) (value : BitVec 32) (ops : List SemCall),
      (runSem 0 ops { k with env := rtSemInit k.env 0 value RT_IPC_FLAG_FIFO }).map Prod.fst =
        some ((counterResults value.toNat ops).map .returned) := by
  intro hall
  have h := hall systemInit 65536 [.trytake]
  revert h
  decide

end SampleRtos
