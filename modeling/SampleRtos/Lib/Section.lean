import SampleRtos.Lib.Mask

/-!
# Masked sections are single steps

While the mask is set no interrupt comes in. Code that keeps it set from one point to
another runs between the two as one step on memory, whatever interrupts are due, and
interrupts are left to the points between such sections. `Deaf` says of masked code that it
does not see the interrupts that are due, `Opens` follows masked code to the access that
opens the mask, and `Sections` replaces a function by its sections.
-/

namespace Mask

section Section
variable {S W α β γ : Type} {p : Code S W α} {q : α → Code S W β} {f : S → Option (α × S)}
  {g : α → S → Option (β × S)} {c c' : Cpu S W}

/-! ## Code under the mask -/

/-- What follows a branch follows in both. -/
theorem ite_bind {b : Prop} [Decidable b] (p p' : Code S W α) (q : α → Code S W β) :
    (if b then p else p') >>= q = if b then p >>= q else p' >>= q := by
  split <;> rfl

/-- The processor with other interrupts due. -/
def Cpu.expect (c : Cpu S W) (hs : List (S → Option S)) : Cpu S W := { c with interrupts := hs }

/-- Under the mask the code leaves the mask set, and the interrupts that are due change
nothing and stay due. -/
structure Deaf (p : Code S W α) : Prop where
  mask : ∀ {c : Cpu S W} {r}, c.primask = true → p c = some r → r.2.primask = true
  blind : ∀ {c : Cpu S W} (hs), c.primask = true →
    p (c.expect hs) = (p c).map fun r => (r.1, r.2.expect hs)

theorem interrupt_of_mask (h : c.primask = true) : c.interrupt = some c := by
  rw [Cpu.interrupt, if_pos h]

theorem access_of_mask {a : Cpu S W → Option (α × Cpu S W)} (h : c.primask = true) :
    access a c = a c := by
  show c.interrupt >>= a = _
  rw [interrupt_of_mask h]
  rfl

namespace Deaf

theorem access {a : Cpu S W → Option (α × Cpu S W)}
    (hmask : ∀ {c r}, c.primask = true → a c = some r → r.2.primask = true)
    (hblind : ∀ c hs, a (Cpu.expect c hs) = (a c).map fun r => (r.1, r.2.expect hs)) :
    Deaf (Mask.access a) where
  mask h hrun := by
    rw [access_of_mask h] at hrun
    exact hmask h hrun
  blind hs h := by
    rw [access_of_mask h, access_of_mask (c := Cpu.expect _ hs) h]
    exact hblind _ hs

theorem pure (a : α) : Deaf (Pure.pure a : Code S W α) where
  mask h hrun := by cases hrun; exact h
  blind _ _ := rfl

theorem bind (h : Deaf p) (hq : ∀ a, Deaf (q a)) : Deaf (p >>= q) where
  mask hm hrun := by
    obtain ⟨r, hr, hrun⟩ := Option.bind_eq_some_iff.mp hrun
    exact (hq r.1).mask (h.mask hm hr) hrun
  blind {c} hs hm := by
    show p (c.expect hs) >>= _ = (p c >>= _).map _
    rw [h.blind hs hm]
    cases hp : p c with
    | none => rfl
    | some r => exact (hq r.1).blind hs (h.mask hm hp)

theorem ite {b : Prop} [Decidable b] {p' : Code S W α} (h : Deaf p) (h' : Deaf p') :
    Deaf (if b then p else p') := by
  split
  · exact h
  · exact h'

/-- The level saved is the mask as it was. -/
theorem disable {q : Bool → Code S W β} (h : Deaf (q true)) : Deaf (Mask.disable >>= q) where
  mask {c r} hm hrun := by
    obtain ⟨r₁, hr₁, hrun⟩ := Option.bind_eq_some_iff.mp hrun
    rw [Mask.disable, access_of_mask hm] at hr₁
    cases hr₁
    dsimp only at hrun
    rw [hm] at hrun
    exact h.mask rfl hrun
  blind {c} hs hm := by
    have hrun : ∀ c : Cpu S W, c.primask = true → (Mask.disable >>= q) c = q true c := by
      intro c hm
      show Mask.disable c >>= _ = _
      rw [Mask.disable, access_of_mask hm]
      show q c.primask { c with primask := true } = _
      rw [hm, show ({ c with primask := true } : Cpu S W) = c by rw [← hm]]
    rw [hrun c hm, hrun (c.expect hs) hm, h.blind hs hm]

theorem enable : Deaf (Mask.enable true : Code S W Unit) :=
  access (fun _ hrun => by cases hrun; rfl) fun _ _ => rfl

theorem fetch (f : S → Option α) : Deaf (Mask.fetch f : Code S W α) :=
  access
    (fun hm hrun => by
      obtain ⟨a, -, hret⟩ := Option.bind_eq_some_iff.mp hrun
      cases hret
      exact hm)
    fun c _ => by
      show f c.mem >>= _ = (f c.mem >>= _).map _
      cases f c.mem <;> rfl

theorem read (f : S → α) : Deaf (Mask.read f : Code S W α) := fetch fun s => some (f s)

theorem assign {L : Type} {shared : S → L} {f : S → S} {h : ∀ s, shared (f s) = shared s} :
    Deaf (Mask.assign shared f h : Code S W Unit) :=
  access (fun hm hrun => by cases hrun; exact hm) fun _ _ => rfl

theorem edit {part : W} {f : S → Option S} : Deaf (Mask.edit part f) :=
  access
    (fun hm hrun => by
      obtain ⟨s, -, hret⟩ := Option.bind_eq_some_iff.mp hrun
      cases hret
      exact hm)
    fun c _ => by
      show f c.mem >>= _ = (f c.mem >>= _).map _
      cases f c.mem <;> rfl

end Deaf

/-- Deaf code under the mask is one step, whatever is due. -/
theorem Deaf.step (h : Deaf p) (hd : Does true true p f) (hm : c.primask = true) :
    Option.Rel (fun r r' => r.1 = r'.1 ∧ r.2.mem = r'.2 ∧ r.2.primask = true ∧
      r.2.interrupts = c.interrupts) (p c) (f c.mem) := by
  have hrun : p c = (p (c.expect [])).map fun r => (r.1, r.2.expect c.interrupts) :=
    h.blind (c := c.expect []) c.interrupts hm
  have heffect := hd.effect (c := c.expect []) hm rfl
  rw [hrun]
  cases hx : p (c.expect []) with
  | none =>
    rw [hx] at heffect
    generalize hy : f (c.expect []).mem = y at heffect
    cases heffect
    rw [show f c.mem = none from hy]
    exact .none
  | some r =>
    obtain ⟨r', hy, hr⟩ := Lockstep.exists_of_left heffect hx
    rw [show f c.mem = some r' from hy]
    have hmask : r.2.primask = true := h.mask (c := c.expect []) hm hx
    exact .some ⟨hr.1, hr.2.1, hmask, rfl⟩

/-! ## From section to section -/

/-- One step on memory, before which an interrupt may come in. -/
def atomically (f : S → Option (α × S)) : Code S W α := access fun c => do
  let (a, s) ← f c.mem
  return (a, { c with mem := s })

/-- The same memory and interrupts due, and the mask open. -/
structure BothOpen (c c' : Cpu S W) : Prop where
  mem : c.mem = c'.mem
  interrupts : c.interrupts = c'.interrupts
  left : c.primask = false
  right : c'.primask = false

/-- From an open mask `p` does what `q` does, whatever interrupts are due. -/
structure Sections (p q : Code S W α) : Prop where
  rel : ∀ {c c' : Cpu S W}, BothOpen c c' →
    Option.Rel (fun r r' => r.1 = r'.1 ∧ BothOpen r.2 r'.2) (p c) (q c')

/-- Under the mask `p` does `f` in one step, opens the mask and goes on as `q`. -/
structure Opens (p : Code S W β) (f : S → Option (α × S)) (q : α → Code S W β) : Prop where
  rel : ∀ {c c' : Cpu S W}, BothOpen c c' →
    Option.Rel (fun r r' => r.1 = r'.1 ∧ BothOpen r.2 r'.2) (p { c with primask := true })
      (f c'.mem >>= fun r => q r.1 { c' with mem := r.2 })

/-- The same interrupt comes in on both. -/
theorem BothOpen.interrupt (h : BothOpen c c') :
    Option.Rel BothOpen c.interrupt c'.interrupt := by
  simp only [Cpu.interrupt, h.left, h.right, Bool.false_eq_true, if_false, h.interrupts]
  cases c'.interrupts with
  | nil => exact .some h
  | cons i is =>
    dsimp only
    rw [h.mem]
    cases i c'.mem with
    | none => exact .none
    | some s => exact .some ⟨rfl, rfl, rfl, rfl⟩

namespace Opens
variable {p' : α → Code S W γ} {q : β → Code S W γ} {r r' : Code S W γ}
  {f₁ f₂ : S → Option (β × S)}

theorem bind (h : Deaf p) (hd : Does true true p f) (ho : ∀ a, Opens (p' a) (g a) q) :
    Opens (p >>= p') (fun s => f s >>= fun r => g r.1 r.2) q := by
  refine ⟨fun {c c'} hc => ?_⟩
  show Option.Rel _ (p _ >>= fun r => p' r.1 r.2) ((f c'.mem >>= _) >>= _)
  rw [bind_assoc]
  have hstep := h.step hd (c := { c with primask := true }) rfl
  generalize hc₁ : ({ c with primask := true } : Cpu S W) = c₁ at hstep ⊢
  have hirq₁ : c₁.interrupts = c'.interrupts := by rw [← hc₁]; exact hc.interrupts
  rw [show c₁.mem = c'.mem by rw [← hc₁]; exact hc.mem] at hstep
  refine Lockstep.bind hstep fun x y _ _ hxy => ?_
  obtain ⟨v, d⟩ := x
  obtain ⟨v', m⟩ := y
  obtain ⟨rfl, rfl, hmask, hirq⟩ := hxy
  have hd : BothOpen { d with primask := false } { c' with mem := d.mem } :=
    ⟨rfl, hirq.trans hirq₁, rfl, hc.right⟩
  have hrun := (ho v).rel hd
  rwa [show ({ d with primask := true } : Cpu S W) = d by rw [← hmask]] at hrun

/-- The mask is opened, and the rest has sections of its own. -/
theorem enable (b : β) (h : Sections r (q b)) :
    Opens (Mask.enable false >>= fun _ => r) (fun s => some (b, s)) q := by
  refine ⟨fun {c c'} hc => ?_⟩
  have hrun : (Mask.enable false >>= fun _ => r) { c with primask := true } = r c := by
    have hclosed : Mask.enable false { c with primask := true } = some ((), c) := by
      rw [Mask.enable, access_of_mask rfl, ← hc.left]
    show (Mask.enable false { c with primask := true } >>= fun x : Unit × Cpu S W => r x.2) = r c
    rw [hclosed]
    rfl
  rw [hrun]
  exact h.rel hc

/-- The mask is opened, and that was all. -/
theorem last : Opens (Mask.enable false : Code S W Unit) (fun s => some ((), s)) Pure.pure := by
  have h : Opens (Mask.enable false >>= fun _ => (Pure.pure () : Code S W Unit))
      (fun s => some ((), s)) Pure.pure := enable () ⟨fun hc => .some ⟨rfl, hc⟩⟩
  exact bind_pure (Mask.enable false : Code S W Unit) ▸ h

theorem ite {b : Prop} [Decidable b] (h : b → Opens r f₁ q) (h' : ¬ b → Opens r' f₂ q) :
    Opens (if b then r else r') (fun s => if b then f₁ s else f₂ s) q := by
  by_cases hb : b
  · simpa only [hb, if_true] using h hb
  · simpa only [hb, if_false] using h' hb

theorem congr (h : Opens r f₁ q) (hf : ∀ s, f₁ s = f₂ s) : Opens r f₂ q := by
  rwa [← funext hf]

end Opens

namespace Sections
variable {p' p₁ p₂ q₁ q₂ : Code S W α} {q' : α → Code S W β}

theorem pure (a : α) : Sections (Pure.pure a : Code S W α) (Pure.pure a) :=
  ⟨fun hc => .some ⟨rfl, hc⟩⟩

theorem bind (h : Sections p p') (hq : ∀ a, Sections (q a) (q' a)) :
    Sections (p >>= q) (p' >>= q') := by
  refine ⟨fun {c c'} hc => ?_⟩
  refine Lockstep.bind (h.rel hc) fun r r' _ _ hr => ?_
  obtain ⟨a, d⟩ := r
  obtain ⟨a', d'⟩ := r'
  obtain ⟨rfl, hd⟩ := hr
  exact (hq a).rel hd

theorem fetch (f : S → Option α) : Sections (Mask.fetch f : Code S W α) (Mask.fetch f) := by
  refine ⟨fun {c c'} hc => ?_⟩
  refine Lockstep.bind hc.interrupt fun d d' _ _ hd => ?_
  show Option.Rel _ (f d.mem >>= _) (f d'.mem >>= _)
  rw [hd.mem]
  cases f d'.mem with
  | none => exact .none
  | some a => exact .some ⟨rfl, hd⟩

theorem read (f : S → α) : Sections (Mask.read f : Code S W α) (Mask.read f) :=
  fetch fun s => some (f s)

theorem ite {b : Prop} [Decidable b] (h : Sections p₁ q₁) (h' : Sections p₂ q₂) :
    Sections (if b then p₁ else p₂) (if b then q₁ else q₂) := by
  split
  · exact h
  · exact h'

/-- A section from `disable` to the access that opens the mask again is one step. -/
theorem disable {p : Bool → Code S W β} (h : Opens (p false) f q) :
    Sections (Mask.disable >>= p) (atomically f >>= q) := by
  refine ⟨fun {c c'} hc => ?_⟩
  have hleft : (Mask.disable >>= p) c =
      c.interrupt >>= fun c => p c.primask { c with primask := true } := by
    show (c.interrupt >>= _) >>= _ = _
    rw [bind_assoc]
    rfl
  have hright : (atomically f >>= q) c' =
      c'.interrupt >>= fun c => f c.mem >>= fun r => q r.1 { c with mem := r.2 } := by
    show (c'.interrupt >>= fun c => f c.mem >>= _) >>= _ = _
    simp only [bind_assoc]
    rfl
  rw [hleft, hright]
  refine Lockstep.bind hc.interrupt fun d d' _ _ hd => ?_
  rw [hd.left]
  exact h.rel hd

end Sections

end Section

end Mask
