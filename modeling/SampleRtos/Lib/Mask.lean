import SampleRtos.Lib.Lockstep

/-!
# Code under an interrupt mask

Code as a sequence of accesses on a processor whose `PRIMASK` keeps interrupts out while it
is 1. Before every access an interrupt is taken if one is due and the mask is open; its
handler may do anything to memory, and finds and leaves `PRIMASK` 0. A part of the memory is
shared with the handlers: only `edit` can write it, and every `edit` is recorded.
-/

namespace Mask

/-- What was written, and `PRIMASK` at that time. -/
structure Write (W : Type) where
  part : W
  primask : Bool
  deriving DecidableEq, Repr

/-- `interrupts` are the handlers that come in, one at each point where one can. -/
structure Cpu (S W : Type) where
  primask : Bool
  mem : S
  interrupts : List (S → Option S)
  writes : List (Write W)

abbrev Code (S W : Type) := StateT (Cpu S W) Option

section Accesses
variable {S W L α : Type}

def Cpu.interrupt (c : Cpu S W) : Option (Cpu S W) :=
  if c.primask then some c
  else
    match c.interrupts with
    | [] => some c
    | h :: hs => (h c.mem).map fun s => { c with mem := s, interrupts := hs }

def access (f : Cpu S W → Option (α × Cpu S W)) : Code S W α := fun c => do
  let c ← c.interrupt
  f c

/-- `rt_hw_interrupt_disable`: it returns `PRIMASK` and sets it. -/
def disable : Code S W Bool := access fun c => some (c.primask, { c with primask := true })

/-- `rt_hw_interrupt_enable`: it sets `PRIMASK` to the level given. -/
def enable (level : Bool) : Code S W Unit :=
  access fun c => some ((), { c with primask := level })

/-- A read that may go through a null pointer. -/
def fetch (f : S → Option α) : Code S W α := access fun c => do
  let a ← f c.mem
  return (a, c)

def read (f : S → α) : Code S W α := fetch fun s => some (f s)

/-- A write outside the shared part. -/
def assign (shared : S → L) (f : S → S) (_ : ∀ s, shared (f s) = shared s) : Code S W Unit :=
  access fun c => some ((), { c with mem := f c.mem })

/-- A write to the shared part. -/
def edit (part : W) (f : S → Option S) : Code S W Unit := access fun c => do
  let s ← f c.mem
  return ((), { c with mem := s, writes := c.writes ++ [⟨part, c.primask⟩] })

end Accesses

/-! ## What code does -/

section Does
variable {S W L α β : Type} {m m₁ m' : Bool} {p p' : Code S W α} {q : α → Code S W β}
  {f f' : S → Option (α × S)} {g : α → S → Option (β × S)} {c : Cpu S W}

/-- Every write between the two is masked. -/
def MaskedSince (c c' : Cpu S W) : Prop :=
  ∃ ws, c'.writes = c.writes ++ ws ∧ ∀ w ∈ ws, w.primask = true

namespace MaskedSince
variable {c c' c'' : Cpu S W}

theorem of_eq (h : c'.writes = c.writes) : MaskedSince c c' :=
  ⟨[], by rw [h, List.append_nil], fun _ hw => absurd hw List.not_mem_nil⟩

theorem trans (h : MaskedSince c c') (h' : MaskedSince c' c'') : MaskedSince c c'' := by
  obtain ⟨ws, hws, hmasked⟩ := h
  obtain ⟨ws', hws', hmasked'⟩ := h'
  refine ⟨ws ++ ws', by rw [hws', hws, List.append_assoc], fun w hw => ?_⟩
  cases List.mem_append.mp hw with
  | inl hw => exact hmasked w hw
  | inr hw => exact hmasked' w hw

end MaskedSince

/-- Started with `PRIMASK` at `m` the code ends with it at `m'` and has written the shared
part under the mask only, whatever interrupts come; and if none does it is `f`. -/
structure Does (m m' : Bool) (p : Code S W α) (f : S → Option (α × S)) : Prop where
  mask : ∀ {c : Cpu S W} {r}, c.primask = m → p c = some r →
    r.2.primask = m' ∧ MaskedSince c r.2
  effect : ∀ {c : Cpu S W}, c.primask = m → c.interrupts = [] →
    Option.Rel (fun r r' => r.1 = r'.1 ∧ r.2.mem = r'.2 ∧ r.2.interrupts = []) (p c) (f c.mem)

theorem interrupt_of_nil (h : c.interrupts = []) : c.interrupt = some c := by
  unfold Cpu.interrupt
  split
  · rfl
  · rw [h]

theorem interrupt_some {c' : Cpu S W} (h : c.interrupt = some c') :
    c'.primask = c.primask ∧ c'.writes = c.writes := by
  unfold Cpu.interrupt at h
  split at h
  · cases h
    exact ⟨rfl, rfl⟩
  · split at h
    · cases h
      exact ⟨rfl, rfl⟩
    · obtain ⟨s, -, rfl⟩ := Option.map_eq_some_iff.mp h
      exact ⟨rfl, rfl⟩

namespace Does

/-- Undisturbed, the code returns what `f` does and leaves the same memory. -/
theorem undisturbed (h : Does m m' p f) (hm : c.primask = m) (hirq : c.interrupts = []) :
    (p c).map (fun r => (r.1, r.2.mem)) = f c.mem := by
  generalize p c = x, f c.mem = y, h.effect hm hirq = hrel
  cases hrel with
  | none => rfl
  | some hr => exact congrArg some (Prod.ext hr.1 hr.2.1)

/-- A single access. -/
theorem access {a : Cpu S W → Option (α × Cpu S W)}
    (hmask : ∀ {c r}, c.primask = m → a c = some r → r.2.primask = m' ∧ MaskedSince c r.2)
    (heffect : ∀ {c}, c.interrupts = [] → Option.Rel
      (fun r r' => r.1 = r'.1 ∧ r.2.mem = r'.2 ∧ r.2.interrupts = []) (a c) (f c.mem)) :
    Does m m' (access a) f where
  mask := by
    intro c r hm hrun
    obtain ⟨c₁, hc₁, hrun⟩ := Option.bind_eq_some_iff.mp hrun
    obtain ⟨hm₁, hw₁⟩ := interrupt_some hc₁
    obtain ⟨hr, hw⟩ := hmask (hm₁.trans hm) hrun
    exact ⟨hr, (MaskedSince.of_eq hw₁).trans hw⟩
  effect := by
    intro c _ hirq
    have hrun : Mask.access a c = a c := by
      show c.interrupt >>= a = _
      rw [interrupt_of_nil hirq]
      rfl
    rw [hrun]
    exact heffect hirq

theorem pure (a : α) : Does m m (Pure.pure a : Code S W α) fun s => some (a, s) where
  mask hm hrun := by
    cases hrun
    exact ⟨hm, .of_eq rfl⟩
  effect _ hirq := .some ⟨rfl, rfl, hirq⟩

theorem bind (h : Does m m₁ p f) (hq : ∀ a, Does m₁ m' (q a) (g a)) :
    Does m m' (p >>= q) fun s => f s >>= fun r => g r.1 r.2 where
  mask := by
    intro c r hm hrun
    obtain ⟨r₁, hr₁, hrun⟩ := Option.bind_eq_some_iff.mp hrun
    obtain ⟨hm₁, hw₁⟩ := h.mask hm hr₁
    obtain ⟨hr, hw⟩ := (hq r₁.1).mask hm₁ hrun
    exact ⟨hr, hw₁.trans hw⟩
  effect := by
    intro c hm hirq
    refine Lockstep.bind (h.effect hm hirq) fun r r' hr _ hrr => ?_
    obtain ⟨a, s⟩ := r'
    obtain ⟨rfl, rfl, hirq₁⟩ := hrr
    exact (hq r.1).effect (h.mask hm hr).1 hirq₁

theorem ite {b : Prop} [Decidable b] (h : b → Does m m' p f) (h' : ¬ b → Does m m' p' f') :
    Does m m' (if b then p else p') fun s => if b then f s else f' s := by
  by_cases hb : b
  · simpa only [hb, if_true] using h hb
  · simpa only [hb, if_false] using h' hb

theorem congr (h : Does m m' p f) (hf : ∀ s, f s = f' s) : Does m m' p f' := by
  rwa [← funext hf]

/-- The level saved is `PRIMASK` as it was. -/
theorem disable {q : Bool → Code S W β} {f : S → Option (β × S)} (h : Does true m' (q m) f) :
    Does m m' (Mask.disable >>= q) f where
  mask := by
    intro c r hm hrun
    obtain ⟨r₁, hr₁, hrun⟩ := Option.bind_eq_some_iff.mp hrun
    obtain ⟨c₁, hc₁, hret⟩ := Option.bind_eq_some_iff.mp hr₁
    obtain ⟨hm₁, hw₁⟩ := interrupt_some hc₁
    cases hret
    rw [hm₁, hm] at hrun
    obtain ⟨hr, hw⟩ := h.mask rfl hrun
    exact ⟨hr, (MaskedSince.of_eq hw₁).trans hw⟩
  effect := by
    intro c hm hirq
    have hdis : Mask.disable c = some (m, { c with primask := true }) := by
      show c.interrupt >>= _ = _
      rw [interrupt_of_nil hirq, ← hm]
      rfl
    have hrun : (Mask.disable >>= q) c = q m { c with primask := true } := by
      show Mask.disable c >>= _ = _
      rw [hdis]
      rfl
    rw [hrun]
    exact h.effect rfl hirq

theorem enable (level : Bool) :
    Does m level (Mask.enable level : Code S W Unit) fun s => some ((), s) :=
  access (fun _ hrun => by cases hrun; exact ⟨rfl, .of_eq rfl⟩)
    fun hirq => .some ⟨rfl, rfl, hirq⟩

theorem fetch (f : S → Option α) :
    Does m m (Mask.fetch f : Code S W α) fun s => f s >>= fun a => some (a, s) :=
  access
    (fun hm hrun => by
      obtain ⟨a, -, hret⟩ := Option.bind_eq_some_iff.mp hrun
      cases hret
      exact ⟨hm, .of_eq rfl⟩)
    fun {c} hirq => by
      show Option.Rel _ (f c.mem >>= _) (f c.mem >>= _)
      cases f c.mem with
      | none => exact .none
      | some a => exact .some ⟨rfl, rfl, hirq⟩

theorem read (f : S → α) : Does m m (Mask.read f : Code S W α) fun s => some (f s, s) :=
  fetch fun s => some (f s)

theorem assign {shared : S → L} {f : S → S} {h : ∀ s, shared (f s) = shared s} :
    Does m m (Mask.assign shared f h : Code S W Unit) fun s => some ((), f s) :=
  access (fun hm hrun => by cases hrun; exact ⟨hm, .of_eq rfl⟩)
    fun hirq => .some ⟨rfl, rfl, hirq⟩

/-- The shared part is written with the mask set. -/
theorem edit {part : W} {f : S → Option S} :
    Does true true (Mask.edit part f) fun s => f s >>= fun s => some ((), s) :=
  access
    (fun hm hrun => by
      obtain ⟨s, -, hret⟩ := Option.bind_eq_some_iff.mp hrun
      cases hret
      exact ⟨hm, [_], rfl, fun w hw => by rw [List.mem_singleton.mp hw]; exact hm⟩)
    fun {c} hirq => by
      show Option.Rel _ (f c.mem >>= _) (f c.mem >>= _)
      cases f c.mem with
      | none => exact .none
      | some s => exact .some ⟨rfl, rfl, hirq⟩

end Does

end Does

end Mask
