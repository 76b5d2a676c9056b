import SampleRtos.Object.Defs
import SampleRtos.Kernel.Defunct
import SampleRtos.Kernel.Observe

/-!
# Memory used again

`rt_thread_init` on memory of whatever content, and what a run can still tell of that
content afterwards. The object lists stand beside the kernel here; the container has no
list for timers, so theirs is left out. All fields that are read later are written, but
for one: `cleanup`, which `rt_thread_detach` looks at.
-/

namespace SampleRtos

open Intrusive

section Reuse
variable {τ σ υ : Type} [DecidableEq τ] [DecidableEq σ] [DecidableEq υ] [Fintype τ] [Fintype υ]

/-! ## The object lists -/

/-- The `list` nodes of the objects and the list heads of the container. -/
abbrev ObjectLinks (τ σ υ : Type) := Links (Node Nat (Obj τ σ υ))

/-- The insertion of `rt_object_init`. -/
def rtObjectInsert (l : ObjectLinks τ σ υ) (object : Obj τ σ υ) (type : ObjectClass) :
    Option (ObjectLinks τ σ υ) := do
  let index ← rtObjectGetInformation type
  rtListInsertAfter l (.head index) (.item object)

/-- What a call does to the object lists. -/
def Call.objects (k : RtKernel τ σ υ) (l : ObjectLinks τ σ υ) :
    Call τ σ υ → Option (ObjectLinks τ σ υ)
  | .threadInit t _ _ => rtObjectInsert l (.thread t) .thread
  | .threadDetach t =>
      if (k.env.thread t).static ∧ ¬ (k.env.thread t).cleanup then
        rtListRemove l (.item (.thread t))
      else some l
  | .semInit s _ _ => rtObjectInsert l (.sem s) .semaphore
  | .semDetach s => rtListRemove l (.item (.sem s))
  | _ => some l

def callsObjects : List (Call τ σ υ) → RtKernel τ σ υ → ObjectLinks τ σ υ →
    Option (ObjectLinks τ σ υ)
  | [], _, l => some l
  | c :: cs, k, l => do
      let l ← c.objects k l
      let k ← c.exec k
      callsObjects cs k l

/-- The object lists after the callbacks of a check, in the states they run in. -/
def checkObjects : List (List (Call τ σ υ)) → RtKernel τ σ υ → ObjectLinks τ σ υ →
    Option (ObjectLinks τ σ υ)
  | [], _, l => some l
  | c :: script, k, l =>
      match k.queue.head? with
      | none => some l
      | some x =>
          if (k.timers.timer x).due k.timers.rtTick then do
            let m ← rtTimerRemove k.timers x
            let l ←
              (if (k.timers.timer x).timeoutFunc = some .user then
                callsObjects c { k with timers := m } l
              else some l)
            let k ← rtTimerFire kernelCallback c x k
            checkObjects script k l
          else some l

def Op.objects (k : RtKernel τ σ υ) (l : ObjectLinks τ σ υ) :
    Op τ σ υ → Option (ObjectLinks τ σ υ)
  | .call c => c.objects k l
  | .tickIncrease script => do
      let k ← Sys.onSched { k with timers := { k.timers with rtTick := k.timers.rtTick + 1 } }
        rtTickSlice
      checkObjects script k l
  | _ => some l

/-! ## Runs with their return values -/

/-- The kernel and the object lists. -/
structure WithObjects (τ σ υ : Type) where
  kernel : RtKernel τ σ υ
  objects : ObjectLinks τ σ υ

/-- What a call returns, `RT_EOK` if nothing else. -/
def Call.returns (k : RtKernel τ σ υ) : Call τ σ υ → Option (TakeOutcome τ)
  | .threadResume t => (rtThreadResume k.env t).map fun r => .returned r.1
  | .threadSuspend t => (rtThreadSuspend k t).map fun r => .returned r.1
  | .semTrytake s => (rtSemTake k s 0).map Prod.fst
  | .semControl s cmd arg => (rtSemControl k.env s cmd arg).map fun r => .returned r.1
  | .timerStop u => (rtTimerStop k.timers (.inr u)).map fun r => .returned r.1
  | _ => some (.returned RT_EOK)

def Op.returns (k : RtKernel τ σ υ) : Op τ σ υ → Option (TakeOutcome τ)
  | .call c => c.returns k
  | .semTake s time => (rtSemTake k s time).map Prod.fst
  | _ => some (.returned RT_EOK)

/-- An operation of a program on the kernel and the object lists. `rt_thread_delete`
leaves the object lists alone. -/
def DefunctOp.objects (x : WithObjects τ σ υ) : DefunctOp τ σ υ → Option (ObjectLinks τ σ υ)
  | .op o => o.objects x.kernel x.objects
  | _ => some x.objects

def WithObjects.exec (x : WithObjects τ σ υ) (o : DefunctOp τ σ υ) :
    Option (WithObjects τ σ υ) := do
  let k ← o.exec x.kernel
  let l ← o.objects x
  return { kernel := k, objects := l }

/-- Initialisation, with the idle thread as the first object. -/
def bootObjects (idle : τ) : Option (WithObjects τ σ υ) := do
  let k ← boot idle
  let l ← rtObjectInsert containerLinks (.thread idle) .thread
  return { kernel := k, objects := l }

/-- The states reached from initialisation by whatever operations, under no discipline. -/
def ObjectsReachable (idle : τ) (x : WithObjects τ σ υ) : Prop :=
  ∃ x₀ ∈ bootObjects idle, Run.Reach WithObjects.exec (fun _ _ => True) x₀ x

/-- A sequence of operations, with what they return. -/
def performAll : List (Op τ σ υ) → WithObjects τ σ υ →
    Option (List (TakeOutcome τ) × WithObjects τ σ υ)
  | [], x => some ([], x)
  | op :: ops, x => do
      let o ← op.returns x.kernel
      let x ← x.exec (.op op)
      let (os, x) ← performAll ops x
      return (o :: os, x)

/-- What a run shows: the values returned, the current thread, the ready, suspend and
defunct lists, the timer list, the object lists, and what each waiting `rt_sem_take` will
return. -/
structure Seen (τ σ υ : Type) where
  returned : List (TakeOutcome τ)
  rtCurrentThread : Option τ
  threadList : ThreadLinks τ σ
  timerList : TimerLinks (τ ⊕ υ)
  objectList : ObjectLinks τ σ υ
  takeReturn : τ → Int

def seen (r : List (TakeOutcome τ) × WithObjects τ σ υ) : Seen τ σ υ where
  returned := r.1
  rtCurrentThread := r.2.kernel.env.rtCurrentThread
  threadList := r.2.kernel.env.list
  timerList := r.2.kernel.timers.timerList
  objectList := r.2.objects
  takeReturn := rtSemTakeReturn r.2.kernel.env

/-! ## The content of a thread's memory -/

/-- The content of a `struct rt_thread`: its fields, its `tlist`, its timer with the `row`,
and the `list` of its object. -/
structure ThreadMemory (τ σ υ : Type) where
  fields : RtThread
  tlist : Option (ThreadNode τ σ) × Option (ThreadNode τ σ)
  threadTimer : RtTimer (TimerCallback τ)
  row : Option (Node TimerHead (τ ⊕ υ)) × Option (Node TimerHead (τ ⊕ υ))
  list : Option (Node Nat (Obj τ σ υ)) × Option (Node Nat (Obj τ σ υ))

def overwrite {ν : Type} [DecidableEq ν] (l : Links ν) (n : ν) (c : Option ν × Option ν) :
    Links ν where
  next := Function.update l.next n c.1
  prev := Function.update l.prev n c.2

/-- The state with `m` in the memory of `t`. -/
def WithObjects.withMemory (x : WithObjects τ σ υ) (t : τ) (m : ThreadMemory τ σ υ) :
    WithObjects τ σ υ where
  kernel :=
    { timers := { x.kernel.timers.setTimer (threadTimer t) m.threadTimer with
        timerList := overwrite x.kernel.timers.timerList (.item (threadTimer t)) m.row }
      env := { x.kernel.env.setThread t m.fields with
        list := overwrite x.kernel.env.list (.item t) m.tlist } }
  objects := overwrite x.objects (.item (.thread t)) m.list

/-- Whatever is performed after `rt_thread_init`, nothing shows which of the two contents
the memory of `t` had before. -/
def InitErases (x : WithObjects τ σ υ) (t : τ) (priority : Nat) (tick : BitVec 32)
    (m m' : ThreadMemory τ σ υ) : Prop :=
  ∀ ops, (performAll (.call (.threadInit t priority tick) :: ops) (x.withMemory t m)).map seen =
    (performAll (.call (.threadInit t priority tick) :: ops) (x.withMemory t m')).map seen

/-! ## What initialisation overwrites -/

section Overwrite
variable {ν : Type} [DecidableEq ν] {l : Links ν} {n h : ν}

theorem rtListInit_overwrite (c : Option ν × Option ν) :
    rtListInit (overwrite l n c) n = rtListInit l n := by
  simp [rtListInit, overwrite, Links.setNext, Links.setPrev]

/-- An insertion behind another node reads neither link of the node inserted. -/
theorem rtListInsertAfter_overwrite (hn : h ≠ n) (c : Option ν × Option ν) :
    rtListInsertAfter (overwrite l n c) h n = rtListInsertAfter l h n := by
  have hnext : (overwrite l n c).next h = l.next h := by simp [overwrite, hn]
  unfold rtListInsertAfter
  rw [hnext]
  cases l.next h with
  | none => rfl
  | some s =>
    simp only [Option.bind_eq_bind, Option.bind_some, Links.setPrev, Links.setNext, hnext]
    cases l.next h with
    | none => rfl
    | some q =>
      simp only [Option.bind_some, overwrite, Option.pure_def, Function.update_idem]
      by_cases hs : s = n
      · subst hs
        simp [Function.update_idem]
      · rw [Function.update_comm hs]
        simp [Function.update_idem, Function.update_comm hs]

end Overwrite

section
omit [Fintype τ] [Fintype υ]

theorem rtObjectInsert_overwrite (l : ObjectLinks τ σ υ) (object : Obj τ σ υ)
    (c : Option (Node Nat (Obj τ σ υ)) × Option (Node Nat (Obj τ σ υ))) (type : ObjectClass) :
    rtObjectInsert (overwrite l (.item object) c) object type = rtObjectInsert l object type := by
  unfold rtObjectInsert
  cases rtObjectGetInformation type with
  | none => rfl
  | some index => exact rtListInsertAfter_overwrite (by simp) c

/-- Everything in the memory of `t` is written but `cleanup`. -/
theorem rtThreadInit_withMemory (x : WithObjects τ σ υ) (t : τ) {m m' : ThreadMemory τ σ υ}
    (hcleanup : m.fields.cleanup = m'.fields.cleanup) (priority : Nat) (tick : BitVec 32) :
    rtThreadInit (x.withMemory t m).kernel t priority tick =
      rtThreadInit (x.withMemory t m').kernel t priority tick := by
  simp [rtThreadInit, WithObjects.withMemory, rtTimerInit, TimerSys.setTimer, SchedSys.setThread,
    rtListInit_overwrite, hcleanup]

end

/-! ## The object lists stay linked -/

section Linked
variable {k : RtKernel τ σ υ} {l l' : ObjectLinks τ σ υ} {n : Node Nat (Obj τ σ υ)}

section
omit [Fintype τ] [Fintype υ]

theorem LinksSet.objectInsert (h : LinksSet l n) {object : Obj τ σ υ} {type : ObjectClass}
    (hrun : rtObjectInsert l object type = some l') : LinksSet l' n := by
  obtain ⟨index, -, hrun⟩ := Option.bind_eq_some_iff.mp hrun
  exact h.insertAfter hrun

theorem LinksSet.objectInserted {object : Obj τ σ υ} {type : ObjectClass}
    (hrun : rtObjectInsert l object type = some l') : LinksSet l' (.item object) := by
  obtain ⟨index, -, hrun⟩ := Option.bind_eq_some_iff.mp hrun
  exact .inserted hrun

theorem LinksSet.call (h : LinksSet l n) {c : Call τ σ υ} (hrun : c.objects k l = some l') :
    LinksSet l' n := by
  unfold Call.objects at hrun
  split at hrun
  · exact h.objectInsert hrun
  · split at hrun
    · exact h.remove hrun
    · cases hrun; exact h
  · exact h.objectInsert hrun
  · exact h.remove hrun
  · cases hrun; exact h

end

theorem LinksSet.calls (cs : List (Call τ σ υ)) : ∀ {k : RtKernel τ σ υ} {l : ObjectLinks τ σ υ},
    LinksSet l n → callsObjects cs k l = some l' → LinksSet l' n := by
  induction cs with
  | nil => intro k l h hrun; cases hrun; exact h
  | cons c cs ih =>
    intro k l h hrun
    obtain ⟨l₁, hc, hrun⟩ := Option.bind_eq_some_iff.mp hrun
    obtain ⟨k₁, -, hrun⟩ := Option.bind_eq_some_iff.mp hrun
    exact ih (h.call hc) hrun

theorem LinksSet.check (script : List (List (Call τ σ υ))) :
    ∀ {k : RtKernel τ σ υ} {l : ObjectLinks τ σ υ}, LinksSet l n →
      checkObjects script k l = some l' → LinksSet l' n := by
  induction script with
  | nil => intro k l h hrun; cases hrun; exact h
  | cons c script ih =>
    intro k l h hrun
    unfold checkObjects at hrun
    split at hrun
    · cases hrun; exact h
    · split at hrun
      · obtain ⟨m, -, hrun⟩ := Option.bind_eq_some_iff.mp hrun
        obtain ⟨l₁, hcalls, hrun⟩ := Option.bind_eq_some_iff.mp hrun
        obtain ⟨k₁, -, hrun⟩ := Option.bind_eq_some_iff.mp hrun
        have h₁ : LinksSet l₁ n := by
          split at hcalls
          · exact h.calls c hcalls
          · cases hcalls; exact h
        exact ih h₁ hrun
      · cases hrun; exact h

theorem LinksSet.op (h : LinksSet l n) {op : Op τ σ υ} (hrun : op.objects k l = some l') :
    LinksSet l' n := by
  unfold Op.objects at hrun
  split at hrun
  · exact h.call hrun
  · obtain ⟨k₁, -, hrun⟩ := Option.bind_eq_some_iff.mp hrun
    exact h.check _ hrun
  · cases hrun; exact h

end Linked

/-- In every state the list of thread objects has its head, and the kernel is one that
operations lead to. -/
theorem ObjectsReachable.linked {idle : τ} {x : WithObjects τ σ υ} (hx : ObjectsReachable idle x) :
    DefunctReachable idle x.kernel ∧ LinksSet x.objects (.head 0) := by
  obtain ⟨x₀, hboot, hrun⟩ := hx
  obtain ⟨k₀, hk₀, hboot⟩ := Option.bind_eq_some_iff.mp hboot
  obtain ⟨l₀, hl₀, hret⟩ := Option.bind_eq_some_iff.mp hboot
  cases hret
  have hhead : LinksSet (containerLinks : ObjectLinks τ σ υ) (.head 0) :=
    ⟨Option.some_ne_none _, Option.some_ne_none _⟩
  refine Run.invariant
    (I := fun x => DefunctReachable idle x.kernel ∧ LinksSet x.objects (.head 0)) ?_
    ⟨⟨k₀, hk₀, Run.Reach.start k₀⟩, hhead.objectInsert hl₀⟩ hrun
  intro x o y hI _ hs
  obtain ⟨⟨k, hk, hreach⟩, hset⟩ := hI
  obtain ⟨k', hk', hs⟩ := Option.bind_eq_some_iff.mp hs
  obtain ⟨l', hl', hret⟩ := Option.bind_eq_some_iff.mp hs
  cases hret
  refine ⟨⟨k, hk, hreach.snoc trivial hk'⟩, ?_⟩
  cases o with
  | op o => exact hset.op hl'
  | threadDelete t => cases hl'; exact hset
  | setCleanup t cleanup => cases hl'; exact hset

/-! ## Detaching the thread shows its `cleanup` -/

section Detach
variable {x : WithObjects τ σ υ} {t : τ} {m : ThreadMemory τ σ υ} {priority : Nat}
  {tick : BitVec 32}

/-- Running on from the initialisation. -/
theorem performAll_init (ops : List (Op τ σ υ)) :
    performAll (.call (.threadInit t priority tick) :: ops) (x.withMemory t m) =
      (rtObjectInsert x.objects (.thread t) .thread).bind fun l =>
        (performAll ops
          { kernel := rtThreadInit (x.withMemory t m).kernel t priority tick, objects := l }).map
            fun r => (.returned RT_EOK :: r.1, r.2) := by
  have hobjects : (Op.call (.threadInit t priority tick)).objects (x.withMemory t m).kernel
      (x.withMemory t m).objects = rtObjectInsert x.objects (.thread t) .thread :=
    rtObjectInsert_overwrite _ _ _ _
  simp only [performAll, WithObjects.exec, DefunctOp.exec, DefunctOp.objects, hobjects]
  simp only [Op.returns, Call.returns, Op.exec, Call.exec, Option.bind_eq_bind, Option.bind_some]
  cases rtObjectInsert x.objects (.thread t) .thread with
  | none => rfl
  | some l =>
    simp only [Option.bind_some, Option.pure_def]
    cases performAll ops _ <;> rfl

/-- Without a `cleanup` the object is taken off its list. -/
theorem detach_returns (priority : Nat) (tick : BitVec 32) {l : ObjectLinks τ σ υ}
    (hcleanup : m.fields.cleanup = false)
    (hl : rtObjectInsert x.objects (.thread t) .thread = some l) :
    ∃ r, performAll [.call (.threadDetach t)]
      { kernel := rtThreadInit (x.withMemory t m).kernel t priority tick, objects := l } =
        some r := by
  obtain ⟨k', hk'⟩ : ∃ k', rtThreadDetach
      (rtThreadInit (x.withMemory t m).kernel t priority tick) t = some k' := by
    simp [rtThreadDetach, rtThreadInit, WithObjects.withMemory, SchedSys.setThread, hcleanup,
      Sys.onTimers, rtTimerDetach, rtTimerRemove, rtTimerInit, TimerSys.setTimer, rtListRemove,
      rtListInit, Links.setNext, Links.setPrev, SchedSys.setStat]
  obtain ⟨l', hl'⟩ := (LinksSet.objectInserted hl).removable
  have hobjects : (Call.threadDetach t).objects
      (rtThreadInit (x.withMemory t m).kernel t priority tick) l = some l' := by
    rw [← hl']
    simp [Call.objects, rtThreadInit, WithObjects.withMemory, SchedSys.setThread, hcleanup]
  refine ⟨([.returned RT_EOK], { kernel := k', objects := l' }), ?_⟩
  simp [performAll, WithObjects.exec, DefunctOp.exec, DefunctOp.objects, Op.exec, Call.exec,
    Op.objects, Op.returns, Call.returns, hk', hobjects]

/-- With one the thread goes to the defunct list, whose head is null. -/
theorem detach_lost {l : ObjectLinks τ σ υ} (hcleanup : m.fields.cleanup = true)
    (hdefunct : x.kernel.env.list.next (.head .defunct) = none) :
    performAll [.call (.threadDetach t)]
      { kernel := rtThreadInit (x.withMemory t m).kernel t priority tick, objects := l } =
        none := by
  have hk : rtThreadDetach (rtThreadInit (x.withMemory t m).kernel t priority tick) t = none := by
    simp [rtThreadDetach, rtThreadInit, WithObjects.withMemory, SchedSys.setThread, hcleanup,
      Sys.onTimers, rtTimerDetach, rtTimerRemove, rtTimerInit, TimerSys.setTimer, rtListRemove,
      rtListInit, Links.setNext, Links.setPrev, SchedSys.setStat, rtListInsertAfter, overwrite,
      hdefunct]
  simp [performAll, WithObjects.exec, DefunctOp.exec, Op.exec, Call.exec, Op.returns, Call.returns,
    hk]

end Detach

/-- An operation sequence that tells a content with a `cleanup` from one without. -/
theorem detach_tells {idle : τ} {x : WithObjects τ σ υ} (hx : ObjectsReachable idle x) (t : τ)
    (priority : Nat) (tick : BitVec 32) {m m' : ThreadMemory τ σ υ}
    (h : m.fields.cleanup = true) (h' : m'.fields.cleanup = false) :
    (performAll [.call (.threadInit t priority tick), .call (.threadDetach t)]
        (x.withMemory t m)).map seen = none ∧
      (performAll [.call (.threadInit t priority tick), .call (.threadDetach t)]
        (x.withMemory t m')).map seen ≠ none := by
  obtain ⟨hk, hset⟩ := hx.linked
  obtain ⟨s, hs⟩ := Option.ne_none_iff_exists'.mp hset.1
  obtain ⟨l, hl⟩ : ∃ l, rtObjectInsert x.objects (.thread t) .thread = some l := by
    have hindex : rtObjectGetInformation .thread = some 0 := by decide
    have hnext : ((x.objects.setPrev s (.item (.thread t))).next (.head 0)) = some s := hs
    simp [rtObjectInsert, hindex, rtListInsertAfter, hs, hnext]
  obtain ⟨r, hr⟩ := detach_returns priority tick h' hl
  rw [performAll_init, performAll_init, hl]
  simp only [Option.bind_some]
  rw [hr, detach_lost h hk.noDefunct.env.apart.own_next]
  exact ⟨rfl, Option.some_ne_none _⟩

/-- **What initialisation leaves of the past.** Nothing a program does afterwards shows
what was in the memory of a thread before `rt_thread_init`, exactly if the two contents
agree on whether `cleanup` is null. -/
theorem init_erases_iff {idle : τ} {x : WithObjects τ σ υ} (hx : ObjectsReachable idle x) (t : τ)
    (priority : Nat) (tick : BitVec 32) (m m' : ThreadMemory τ σ υ) :
    InitErases x t priority tick m m' ↔ m.fields.cleanup = m'.fields.cleanup := by
  constructor
  · intro herase
    have hrun := herase [.call (.threadDetach t)]
    cases hm : m.fields.cleanup <;> cases hm' : m'.fields.cleanup
    · rfl
    · obtain ⟨hlost, hreturns⟩ := detach_tells hx t priority tick hm' hm
      exact absurd (hrun.trans hlost) hreturns
    · obtain ⟨hlost, hreturns⟩ := detach_tells hx t priority tick hm hm'
      exact absurd (hrun.symm.trans hlost) hreturns
    · rfl
  · intro hcleanup ops
    rw [performAll_init, performAll_init, rtThreadInit_withMemory x t hcleanup]

end Reuse

/-- Memory as C leaves static objects, but for `cleanup`. -/
def staticMemory {τ σ υ : Type} (cleanup : Bool) : ThreadMemory τ σ υ where
  fields :=
    { static := false
      initTick := 0
      remainingTick := 0
      cleanup := cleanup
      currentPriority := 0
      initPriority := 0
      numberMask := 0
      error := 0
      stat := .init }
  tlist := (none, none)
  threadTimer := { flag := 0, timeoutFunc := none, initTick := 0, timeoutTick := 0 }
  row := (none, none)
  list := (none, none)

/-- The memory of a thread of priority 3 that has timed out and been detached. -/
def detachedMemory {τ σ υ : Type} (t : τ) : ThreadMemory τ σ υ where
  fields :=
    { static := true
      initTick := 7
      remainingTick := 2
      cleanup := false
      currentPriority := 3
      initPriority := 3
      numberMask := 8
      error := -RT_ETIMEOUT
      stat := .close }
  tlist := (some (.item t), some (.item t))
  threadTimer :=
    { flag := 0, timeoutFunc := some (.rtThreadTimeout t), initTick := 40, timeoutTick := 95 }
  row := (some (.item (.inl t)), some (.item (.inl t)))
  list := (some (.item (.thread t)), some (.item (.thread t)))

theorem bootObjects_returns : ∃ x : WithObjects (Fin 2) (Fin 1) Empty, ObjectsReachable 0 x := by
  obtain ⟨x, hx⟩ := Option.isSome_iff_exists.mp
    (show (bootObjects 0 : Option (WithObjects (Fin 2) (Fin 1) Empty)).isSome = true by
      decide +kernel)
  exact ⟨x, x, hx, Run.Reach.start x⟩

/-- The thread's memory may be used again after `rt_thread_detach`. -/
theorem detached_like_static : ∃ x : WithObjects (Fin 2) (Fin 1) Empty,
    ObjectsReachable 0 x ∧ InitErases x 1 5 10 (detachedMemory 1) (staticMemory false) := by
  obtain ⟨x, hx⟩ := bootObjects_returns
  exact ⟨x, hx, (init_erases_iff hx 1 5 10 _ _).mpr rfl⟩

/-- A `cleanup` left over from before sends the thread to the defunct list. -/
theorem cleanup_left_over :
    ¬ ∀ (x : WithObjects (Fin 2) (Fin 1) Empty) (m m' : ThreadMemory (Fin 2) (Fin 1) Empty),
      ObjectsReachable 0 x → InitErases x 1 5 10 m m' := by
  intro hclaim
  obtain ⟨x, hx⟩ := bootObjects_returns
  have hsame := hclaim x (staticMemory true) (staticMemory false) hx [.call (.threadDetach 1)]
  have hleft : (staticMemory true : ThreadMemory (Fin 2) (Fin 1) Empty).fields.cleanup = true := rfl
  have hnull : (staticMemory false : ThreadMemory (Fin 2) (Fin 1) Empty).fields.cleanup = false :=
    rfl
  obtain ⟨hlost, hreturns⟩ := detach_tells hx 1 5 10 hleft hnull
  exact hreturns (hsame.symm.trans hlost)

end SampleRtos
