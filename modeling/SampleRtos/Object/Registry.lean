import SampleRtos.Lib.Run
import SampleRtos.Object.Defs

/-!
# The object registry

What the registry is for: to hold, for each class, the objects of the class that
have been initialised and not since detached. The container array has no entry
for timers, so no timer, and with it no thread, is ever registered: the insertion
writes through a null pointer. Without timers and threads the registry holds what
it is meant to hold.
-/

namespace SampleRtos

open Intrusive

section Registered
variable {τ σ υ : Type} [DecidableEq τ] [DecidableEq σ] [DecidableEq υ]

/-! ## What is to be registered -/

def Obj.objectClass : Obj τ σ υ → ObjectClass
  | .thread _ => .thread
  | .threadTimer _ | .timer _ => .timer
  | .sem _ => .semaphore

/-- The objects of each class, newest first, and which objects have ever been initialised. -/
structure Register (τ σ υ : Type) where
  listed : ObjectClass → List (Obj τ σ υ)
  known : Obj τ σ υ → Bool

namespace Register

def empty : Register τ σ υ where
  listed _ := []
  known _ := false

def add (r : Register τ σ υ) (o : Obj τ σ υ) : Register τ σ υ where
  listed := Function.update r.listed o.objectClass (o :: r.listed o.objectClass)
  known := Function.update r.known o true

def drop (r : Register τ σ υ) (o : Obj τ σ υ) : Register τ σ υ :=
  { r with listed := fun c => (r.listed c).erase o }

end Register

namespace RegistryOp

/-- The objects an operation initialises, in order. -/
def registers : RegistryOp τ σ υ → List (Obj τ σ υ)
  | .threadInit t => [.thread t, .threadTimer t]
  | .timerInit u => [.timer u]
  | .semInit s => [.sem s]
  | _ => []

/-- The objects an operation detaches. -/
def detaches : RegistryOp τ σ υ → List (Obj τ σ υ)
  | .threadDetach t => [.threadTimer t, .thread t]
  | .timerDetach u => [.timer u]
  | .semDetach s => [.sem s]
  | .objectDetach o => [o]
  | _ => []

def perform (op : RegistryOp τ σ υ) (r : Register τ σ υ) : Register τ σ υ :=
  op.detaches.foldl .drop (op.registers.foldl .add r)

/-- Only what is not registered is initialised, only what was once initialised is detached. -/
def Allowed (op : RegistryOp τ σ υ) (r : Register τ σ υ) : Prop :=
  (∀ o ∈ op.registers, o ∉ r.listed o.objectClass) ∧ ∀ o ∈ op.detaches, r.known o = true

instance (op : RegistryOp τ σ υ) (r : Register τ σ υ) : Decidable (op.Allowed r) :=
  inferInstanceAs (Decidable (_ ∧ _))

/-- A thread or a timer is initialised. -/
def InitsTimer : RegistryOp τ σ υ → Prop
  | .threadInit _ | .timerInit _ => True
  | _ => False

end RegistryOp

/-- A sequence of operations, each allowed after those before it. -/
def AllowedFrom : Register τ σ υ → List (RegistryOp τ σ υ) → Prop
  | _, [] => True
  | r, op :: ops => op.Allowed r ∧ AllowedFrom (op.perform r) ops

instance AllowedFrom.decidable (ops : List (RegistryOp τ σ υ)) :
    ∀ r, Decidable (AllowedFrom r ops) :=
  ops.rec (fun _ => .isTrue trivial) fun op _ ih r =>
    @instDecidableAnd _ _ (inferInstanceAs (Decidable (op.Allowed r))) (ih (op.perform r))

/-- The lookup of `c` finds an entry, and it is of class `c`. -/
def FindsEntry (c : ObjectClass) : Prop :=
  ∃ i ∈ rtObjectGetInformation c, (rtObjectContainer[i]?).map (·.type) = some c

/-- `c` has an `object_list`, a ring of exactly `os`. -/
def ClassList (k : Registry τ σ υ) (c : ObjectClass) (os : List (Obj τ σ υ)) : Prop :=
  ∃ i ∈ rtObjectGetInformation c, Ring k.list i os

/-- Every initialiser finds an entry of its class, and after every operation the classes
`cs` have lists of exactly the objects that are to be registered. -/
def Kept (cs : List ObjectClass) : Registry τ σ υ → Register τ σ υ → List (RegistryOp τ σ υ) → Prop
  | _, _, [] => True
  | k, r, op :: ops =>
      (∀ o ∈ op.registers, FindsEntry o.objectClass) ∧
        ∃ k' ∈ op.exec k, (∀ c ∈ cs, ClassList k' c ((op.perform r).listed c)) ∧
          Kept cs k' (op.perform r) ops

/-- The registry before `main`. -/
def registryFrom (type : Obj τ σ υ → BitVec 8) (cleanup : τ → Bool) : Registry τ σ υ :=
  { type, cleanup, list := containerLinks }

/-! ## The container -/

theorem timer_without_entry : rtObjectGetInformation .timer = none := by decide

/-- What the lookup finds has the type looked for. -/
theorem information_type {c : ObjectClass} {i : Nat} (h : i ∈ rtObjectGetInformation c) :
    (rtObjectContainer[i]?).map (·.type) = some c := by
  obtain ⟨hi, htype, -⟩ := List.findIdx?_eq_some_iff_getElem.mp h
  rw [List.getElem?_eq_getElem hi]
  simpa using htype

theorem information_inj {c c' : ObjectClass} {i : Nat} (h : i ∈ rtObjectGetInformation c)
    (h' : i ∈ rtObjectGetInformation c') : c = c' := by
  have heq := (information_type h).symm.trans (information_type h')
  exact Option.some.inj heq

/-- The entries that have an initialiser head their own list; the last has none. -/
theorem container_list (i : Nat) :
    (rtObjectContainer[i]?).bind (·.objectList) = if i < 6 then some i else none := by
  match i with
  | 0 | 1 | 2 | 3 | 4 | 5 | 6 => rfl
  | i + 7 => rfl

/-- They are what the lookup finds. -/
theorem information_lt {c : ObjectClass} {i : Nat} (h : i ∈ rtObjectGetInformation c) : i < 6 := by
  have hall : ∀ c, (rtObjectGetInformation c).all (· < 6) = true := by
    intro c
    cases c <;> rfl
  have hlt := hall c
  rw [Option.mem_def.mp h] at hlt
  simpa using hlt

theorem information_of_lt : ∀ i < 6, ∃ c, i ∈ rtObjectGetInformation c := by
  intro i hi
  match i with
  | 0 => exact ⟨.thread, rfl⟩
  | 1 => exact ⟨.semaphore, rfl⟩
  | 2 => exact ⟨.mutex, rfl⟩
  | 3 => exact ⟨.event, rfl⟩
  | 4 => exact ⟨.mailBox, rfl⟩
  | 5 => exact ⟨.messageQueue, rfl⟩

/-! ## The invariant -/

/-- The links of the registry are the lists `ρ`, and these are what is to be registered. -/
structure Registers (k : Registry τ σ υ) (r : Register τ σ υ) (ρ : Rings Nat (Obj τ σ υ)) :
    Prop where
  rep : Rep k.list ρ
  head : ∀ i, ρ.live (.head i) = decide (i < 6)
  item : ∀ o, ρ.live (.item o) = r.known o
  listed : ∀ c, ∀ i ∈ rtObjectGetInformation c, ρ.seq i = r.listed c
  classed : ∀ c, ∀ o ∈ r.listed c, o.objectClass = c
  entry : ∀ o, r.known o = true → ∃ i, i ∈ rtObjectGetInformation o.objectClass

namespace Registers

variable {k : Registry τ σ υ} {r : Register τ σ υ} {ρ : Rings Nat (Obj τ σ υ)} {o : Obj τ σ υ}

/-- The lists before `main`: those of the entries that have an initialiser, all empty. -/
def startRings : Rings Nat (Obj τ σ υ) where
  seq _ := []
  live
    | .head i => decide (i < 6)
    | .item _ => false

section
omit [DecidableEq τ] [DecidableEq σ] [DecidableEq υ]

theorem containerLinks_head (i : Nat) :
    (containerLinks : Links (Node Nat (Obj τ σ υ))).next (.head i) =
      if i < 6 then some (.head i) else none := by
  rw [containerLinks]
  simp only [container_list]
  split <;> rfl

end

theorem start (type : Obj τ σ υ → BitVec 8) (cleanup : τ → Bool) :
    Registers (registryFrom type cleanup) .empty startRings where
  rep := by
    refine ⟨⟨by simp [startRings], by simp [startRings], by simp [startRings],
      by simp [startRings]⟩, fun i hi => ?_, by simp [startRings], fun n hn => ?_⟩
    · have hself := containerLinks_head (τ := τ) (σ := σ) (υ := υ) i
      rw [if_pos (of_decide_eq_true hi)] at hself
      simp only [Intrusive.Ring, cycle, startRings, List.map_nil, List.nil_append,
        List.isChain_pair]
      exact ⟨hself, hself⟩
    · cases n with
      | head i =>
        have hnull := containerLinks_head (τ := τ) (σ := σ) (υ := υ) i
        rw [if_neg (of_decide_eq_false hn)] at hnull
        exact ⟨hnull, hnull⟩
      | item o => exact ⟨rfl, rfl⟩
  head _ := rfl
  item _ := rfl
  listed _ _ _ := rfl
  classed _ _ ho := absurd ho List.not_mem_nil
  entry _ ho := absurd ho Bool.false_ne_true

/-- An object that is not to be on the list of its class is on none. -/
theorem free (h : Registers k r ρ) (ho : o ∉ r.listed o.objectClass) : ρ.Free o := by
  intro i hi
  have hlive : ρ.live (.head i) = true := h.rep.valid.head_live (List.ne_nil_of_mem hi)
  rw [h.head, decide_eq_true_eq] at hlive
  obtain ⟨c, hc⟩ := information_of_lt i hlive
  rw [h.listed c i hc] at hi
  have hclass := h.classed c o hi
  subst hclass
  exact ho hi

/-- The list of a class that has an entry. -/
theorem classList (h : Registers k r ρ) {c : ObjectClass} {i : Nat}
    (hi : i ∈ rtObjectGetInformation c) : ClassList k c (r.listed c) := by
  refine ⟨i, hi, ?_⟩
  rw [← h.listed c i hi]
  exact h.rep.ring i (by rw [h.head]; exact decide_eq_true (information_lt hi))

theorem init (h : Registers k r ρ) (ho : o ∉ r.listed o.objectClass) {i : Nat}
    (hi : i ∈ rtObjectGetInformation o.objectClass) :
    ∃ k' ρ', k.rtObjectInit o o.objectClass = some k' ∧ Registers k' (r.add o) ρ' := by
  have hlive : ρ.live (.head i) = true := by
    rw [h.head]
    exact decide_eq_true (information_lt hi)
  have hins := rtListInsertAfter_head h.rep i (h.free ho)
  rw [pushFront, insertAt, if_pos hlive] at hins
  obtain ⟨l, hl, hrep⟩ := Lockstep.exists_of_right hins rfl
  refine ⟨{ k with
      type := Function.update k.type o (o.objectClass.code ||| RT_Object_Class_Static)
      list := l }, _, ?_, ⟨hrep, h.head, fun u => ?_, fun c j hj => ?_, fun c u hu => ?_,
    fun u hu => ?_⟩⟩
  · rw [Registry.rtObjectInit, Option.mem_def.mp hi]
    simp only [Option.bind_eq_bind, Option.bind_some, hl, Option.pure_def]
  · simp only [Rings.setSeq_live, Rings.mark, Register.add, Function.update_apply, Node.item.injEq,
      h.item]
  · rw [Rings.setSeq_seq, Register.add]
    by_cases hc : c = o.objectClass
    · subst hc
      have hij : j = i := Option.some.inj (hj.symm.trans hi)
      simp [hij, h.listed _ i hi]
    · have hij : j ≠ i := fun hij => hc (information_inj hj (hij ▸ hi))
      simp [hij, hc, h.listed c j hj]
  · rw [Register.add] at hu
    by_cases hc : c = o.objectClass
    · subst hc
      simp only [Function.update_self, List.mem_cons] at hu
      rcases hu with hu | hu
      · rw [hu]
      · exact h.classed _ u hu
    · exact h.classed c u (by simpa [hc] using hu)
  · by_cases huo : u = o
    · exact ⟨i, huo ▸ hi⟩
    · exact h.entry u (by simpa [Register.add, huo] using hu)

theorem detach (h : Registers k r ρ) (ho : r.known o = true) :
    ∃ k' ρ', k.rtObjectDetach o = some k' ∧ Registers k' (r.drop o) ρ' := by
  have hrem := rtListRemove_rep h.rep o
  rw [remove, if_pos (by rw [h.item, ho])] at hrem
  obtain ⟨l, hl, hrep⟩ := Lockstep.exists_of_right hrem rfl
  refine ⟨{ k with list := l }, ρ.erase o, ?_, ⟨hrep, h.head, h.item, fun c i hi => ?_,
    fun c u hu => h.classed c u (List.mem_of_mem_erase hu), h.entry⟩⟩
  · rw [Registry.rtObjectDetach, hl]
    rfl
  · rw [Rings.erase_seq, h.listed c i hi]
    rfl

/-- No timer has ever been initialised. -/
theorem no_timer (h : Registers k r ρ) (ho : o.objectClass = .timer) : r.known o = false := by
  by_contra hknown
  obtain ⟨i, hi⟩ := h.entry o (by simpa using hknown)
  rw [ho, timer_without_entry] at hi
  cases hi

/-- **One operation.** Unless it initialises a timer it returns and the registry keeps up. -/
theorem exec (h : Registers k r ρ) {op : RegistryOp τ σ υ} (hok : op.Allowed r)
    (hop : ¬ op.InitsTimer) :
    ∃ k' ρ', op.exec k = some k' ∧ Registers k' (op.perform r) ρ' := by
  cases op with
  | threadInit t => exact absurd trivial hop
  | timerInit u => exact absurd trivial hop
  | semInit s =>
    have hi : 1 ∈ rtObjectGetInformation .semaphore := rfl
    exact h.init (hok.1 (.sem s) (List.mem_singleton_self _)) hi
  | threadDetach t =>
    have hknown := hok.2 (.threadTimer t) (List.mem_cons_self ..)
    rw [h.no_timer rfl] at hknown
    cases hknown
  | timerDetach u => exact h.detach (hok.2 (.timer u) (List.mem_singleton_self _))
  | semDetach s => exact h.detach (hok.2 (.sem s) (List.mem_singleton_self _))
  | objectDetach o => exact h.detach (hok.2 o (List.mem_singleton_self _))

end Registers

/-! ## Sequences of operations -/

variable {k : Registry τ σ υ} {r : Register τ σ υ} {ρ : Rings Nat (Obj τ σ υ)}
  {ops : List (RegistryOp τ σ υ)}

section
omit [DecidableEq τ] [DecidableEq σ] [DecidableEq υ]

theorem findsEntry_of_not_initsTimer {op : RegistryOp τ σ υ} (hop : ¬ op.InitsTimer) :
    ∀ o ∈ op.registers, FindsEntry o.objectClass := by
  intro o ho
  cases op with
  | threadInit t => exact absurd trivial hop
  | timerInit u => exact absurd trivial hop
  | semInit s =>
    have hsem : o = .sem s := List.mem_singleton.mp ho
    have hi : 1 ∈ rtObjectGetInformation .semaphore := rfl
    subst hsem
    exact ⟨1, hi, information_type hi⟩
  | _ => cases ho

end

/-- Sequences that initialise no timer. -/
theorem Registers.kept (ops : List (RegistryOp τ σ υ)) : ∀ {k : Registry τ σ υ} {r ρ},
    Registers k r ρ → AllowedFrom r ops → (∀ op ∈ ops, ¬ op.InitsTimer) →
      Kept [.thread, .semaphore] k r ops := by
  induction ops with
  | nil => exact fun _ _ _ => trivial
  | cons op ops ih =>
    intro k r ρ h hok hops
    have hop := hops op (List.mem_cons_self ..)
    obtain ⟨k', ρ', hexec, h'⟩ := h.exec hok.1 hop
    refine ⟨findsEntry_of_not_initsTimer hop, k', hexec, fun c hc => ?_,
      ih h' hok.2 fun op' hop' => hops op' (List.mem_cons_of_mem _ hop')⟩
    have hthread : 0 ∈ rtObjectGetInformation .thread := rfl
    have hsem : 1 ∈ rtObjectGetInformation .semaphore := rfl
    simp only [List.mem_cons, List.not_mem_nil, or_false] at hc
    rcases hc with hc | hc
    · rw [hc]; exact h'.classList hthread
    · rw [hc]; exact h'.classList hsem

section
omit [DecidableEq τ] [DecidableEq σ] [DecidableEq υ]

/-- An operation that initialises a timer asks for an entry that is not there. -/
theorem not_findsEntry_of_initsTimer {op : RegistryOp τ σ υ} (hop : op.InitsTimer) :
    ¬ ∀ o ∈ op.registers, FindsEntry o.objectClass := by
  intro hall
  obtain ⟨o, ho, hclass⟩ : ∃ o ∈ op.registers, o.objectClass = .timer := by
    cases op with
    | threadInit t => exact ⟨.threadTimer t, by simp [RegistryOp.registers], rfl⟩
    | timerInit u => exact ⟨.timer u, by simp [RegistryOp.registers], rfl⟩
    | _ => exact hop.elim
  obtain ⟨i, hi, -⟩ := hall o ho
  rw [hclass, timer_without_entry] at hi
  cases hi

end

theorem Kept.not_initsTimer {cs : List ObjectClass} (ops : List (RegistryOp τ σ υ)) :
    ∀ {k r}, Kept cs k r ops → ∀ op ∈ ops, ¬ op.InitsTimer := by
  induction ops with
  | nil => exact fun _ _ hop => absurd hop List.not_mem_nil
  | cons op ops ih =>
    intro k r hkept op' hop'
    obtain ⟨hfinds, k', -, -, hrest⟩ := hkept
    rcases List.mem_cons.mp hop' with heq | hop'
    · exact fun hinits => not_findsEntry_of_initsTimer hinits (heq ▸ hfinds)
    · exact ih hrest op' hop'

/-- Timers have no list for anything to be on. -/
theorem Kept.eq_nil {cs : List ObjectClass} (hcs : .timer ∈ cs) (hkept : Kept cs k r ops) :
    ops = [] := by
  cases ops with
  | nil => rfl
  | cons op ops =>
    obtain ⟨-, k', -, hlists, -⟩ := hkept
    obtain ⟨i, hi, -⟩ := hlists .timer hcs
    rw [timer_without_entry] at hi
    cases hi

/-- **The object registry.** No sequence of operations leaves the class of the timers with
a list, for it has no entry in the container. The lookups of the initialisers and the lists
of threads and semaphores are what they should be throughout exactly the sequences in which
neither a timer nor a thread is initialised. -/
theorem registry_kept (type : Obj τ σ υ → BitVec 8) (cleanup : τ → Bool)
    (ops : List (RegistryOp τ σ υ)) (hok : AllowedFrom .empty ops) :
    (Kept [.thread, .semaphore, .timer] (registryFrom type cleanup) .empty ops ↔ ops = []) ∧
      (Kept [.thread, .semaphore] (registryFrom type cleanup) .empty ops ↔
        ∀ op ∈ ops, ¬ op.InitsTimer) := by
  refine ⟨⟨fun hkept => hkept.eq_nil (by simp), fun hnil => ?_⟩,
    fun hkept => hkept.not_initsTimer ops, fun hops => ?_⟩
  · rw [hnil]
    trivial
  · exact (Registers.start type cleanup).kept ops hok hops

end Registered

/-- Two semaphores are initialised and one of them is detached. -/
def twoSemaphores : List (RegistryOp Unit (Fin 2) Unit) :=
  [.semInit 0, .semInit 1, .semDetach 0]

theorem two_semaphores_kept :
    Kept [.thread, .semaphore] (registryFrom (fun _ => 0) fun _ => false) .empty twoSemaphores ∧
      ¬ Kept [.thread, .semaphore, .timer] (registryFrom (fun _ => 0) fun _ => false) .empty
        twoSemaphores := by
  have hok : AllowedFrom .empty twoSemaphores := by decide +kernel
  obtain ⟨hall, hsome⟩ := registry_kept (fun _ => 0) (fun _ => false) twoSemaphores hok
  refine ⟨hsome.mpr ?_, fun hkept => by cases hall.mp hkept⟩
  simp [twoSemaphores, RegistryOp.InitsTimer]

/-- The first thread to be initialised: there is no entry for the timer inside it, and
`rt_thread_init` does not return. -/
theorem thread_timer_not_registered :
    AllowedFrom .empty [(.threadInit () : RegistryOp Unit Unit Unit)] ∧
      ¬ Kept [.thread, .semaphore, .timer] (registryFrom (fun _ => 0) fun _ => false) .empty
        [(.threadInit () : RegistryOp Unit Unit Unit)] ∧
      RegistryOp.exec (registryFrom (fun _ => 0) fun _ => false)
        (.threadInit () : RegistryOp Unit Unit Unit) = none := by
  have hcrash : RegistryOp.exec (registryFrom (fun _ => 0) fun _ => false)
      (.threadInit () : RegistryOp Unit Unit Unit) = none := by rfl
  refine ⟨by decide +kernel, fun hkept => ?_, hcrash⟩
  obtain ⟨-, k', hexec, -⟩ := hkept
  rw [hcrash] at hexec
  cases hexec

end SampleRtos
