import SampleRtos.Port.Switch

/-!
# Who changes the context of a thread

The code of a thread and its initialisation change the context of that thread and no other.
Exception entry and return, and the handler between them, move contexts about, from the
registers to the stack and from one stack to the registers, and change none. Of the thread in
question only that its own context lies in its stack is needed.
-/

namespace SampleRtos

section Contexts
variable {τ : Type} [DecidableEq τ] {st : Stacks τ} {s s' : Machine τ} {t u c : τ}

/-- The thread on the processor has room on its stack, and the context of `u`, if it is not
that thread, lies on the stack of `u`. -/
structure Placed (st : Stacks τ) (s : Machine τ) (u : τ) : Prop where
  room : ∀ t, s.cpu = some t → s.HasRoom st t
  saved : s.cpu ≠ some u → s.SavedOnStack st u

theorem context_live (h : s.cpu = some u) : s.context st u = s.liveContext st u := if_pos h

theorem context_saved (h : s.cpu ≠ some u) : s.context st u = s.savedContext st u := if_neg h

section
omit [DecidableEq τ]

/-- Memory outside the stack of the running thread is no part of its context. -/
theorem liveContext_congr (hroom : s.HasRoom st u) {m : Memory}
    (hmem : ∀ x, st.base u ≤ x → x < st.top u → m x = s.mem x) :
    { s with mem := m }.liveContext st u = s.liveContext st u := by
  have hstack : ∀ a, st.base u ≤ a → stackFrom st u m a = stackFrom st u s.mem a := fun a ha =>
    stackFrom_congr fun x hx hx' => hmem x (by omega) hx'
  unfold Machine.HasRoom at hroom
  unfold Machine.liveContext
  cases hmode : s.mode with
  | thread =>
    simp only [hmode] at hroom ⊢
    rw [hstack s.psp (by omega)]
  | _ =>
    simp only [hmode] at hroom ⊢
    have hload : m.load s.psp = s.mem.load s.psp :=
      Memory.load_congr fun x hx hx' => hmem x (by omega) (by omega)
    rw [hstack (s.psp + 8) (by omega), hload]

end

namespace Placed

/-- Nothing in the stack of `u` changes, nor where its context is. -/
theorem congr (h : Placed st s u) {m : Memory} {sp : τ → Nat} (hsp : sp u = s.sp u)
    (hmem : ∀ x, st.base u ≤ x → x < st.top u → m x = s.mem x) :
    { s with mem := m, sp := sp }.context st u = s.context st u := by
  by_cases hcpu : s.cpu = some u
  · rw [context_live hcpu, context_live (show ({ s with mem := m, sp := sp }).cpu = _ from hcpu)]
    exact liveContext_congr (h.room u hcpu) hmem
  · rw [context_saved hcpu, context_saved (show ({ s with mem := m, sp := sp }).cpu ≠ _ from hcpu)]
    obtain ⟨hlo, hhi⟩ := h.saved hcpu
    exact savedContext_congr hsp hlo hhi hmem

/-- Another thread is initialised. -/
theorem initThread (h : Placed st s u) (hut : u ≠ t) :
    (s.initThread st t).context st u = s.context st u := by
  have hroom := st.room_aligned t
  have htop := alignDown_le (st.top t)
  refine h.congr (by simp [hut]) fun x hx hx' => initThread_mem s t ?_
  by_contra hin
  exact hut (st.disjoint (a := x) hx hx' (by omega) (by omega))

/-- Another thread executes. -/
theorem execute (h : Placed st s u) {high low : Regs} {psp : Nat} {mem : Memory}
    (hok : (MachineOp.execute high low psp mem).Allowed st s) (hcpu : s.cpu ≠ some u) :
    (s.execute high low psp mem).context st u = s.context st u := by
  obtain ⟨-, t, ht, -, -, hmem⟩ := hok
  have hut : u ≠ t := fun hut => hcpu (hut ▸ ht)
  rw [context_saved hcpu, context_saved (show (s.execute high low psp mem).cpu ≠ _ from hcpu)]
  obtain ⟨hlo, hhi⟩ := h.saved hcpu
  exact savedContext_congr rfl hlo hhi (hmem u hut)

theorem pendSvEntry (h : Placed st s u) (hmode : s.mode = .thread) :
    s.pendSvEntry.context st u = s.context st u := by
  obtain ⟨hcpu', -⟩ := pendSvEntry_frame s
  cases hcpu : s.cpu with
  | none =>
    rw [context_saved (s := s.pendSvEntry) (by rw [hcpu', hcpu]; simp),
      context_saved (s := s) (by rw [hcpu]; simp)]
    simp [Machine.pendSvEntry, hcpu, Machine.savedContext]
  | some t =>
    obtain ⟨-, hlive, hother⟩ := HasRoom.entry (h.room t hcpu) hmode hcpu
    by_cases hut : u = t
    · subst hut
      rw [context_live hcpu, context_live (hcpu'.trans hcpu), hlive]
    · have hne : s.cpu ≠ some u := by rw [hcpu]; simpa using Ne.symm hut
      rw [context_saved hne, context_saved (hcpu' ▸ hne), hother u hut (h.saved hne)]

theorem pendSvReturn (h : Placed st s u) (hmode : s.mode = .leaving) :
    s.pendSvReturn.context st u = s.context st u := by
  by_cases hcpu : s.cpu = some u
  · rw [context_live hcpu, context_live (show s.pendSvReturn.cpu = _ from hcpu)]
    exact (HasRoom.return (h.room u hcpu) hmode).2
  · rw [context_saved hcpu, context_saved (show s.pendSvReturn.cpu ≠ _ from hcpu)]
    rfl

/-- The context that is loaded is the one that was saved. -/
theorem switchToThread (hmode : s.mode ≠ .thread) (c u : τ) :
    (s.switchToThread c).context st u = s.savedContext st u := by
  by_cases huc : c = u
  · subst huc
    rw [context_live rfl, switchToThread_live hmode]
  · rw [context_saved (by simpa [Machine.switchToThread] using huc)]
    rfl

/-- The handler moves the context of the thread it finds to the stack of that thread. -/
theorem saveTo (h : Placed st s u) (hmode : s.mode ≠ .thread) (hcpu : s.cpu = some t) :
    (s.saveTo t).savedContext st u = s.context st u := by
  by_cases hut : u = t
  · subst hut
    rw [context_live hcpu, (saveTo_saved (h.room u hcpu) hmode).1]
  · have hne : s.cpu ≠ some u := by rw [hcpu]; simpa using Ne.symm hut
    rw [context_saved hne, (saveTo_other (h.room t hcpu) hmode hut (h.saved hne)).1]

theorem pendSvHandler (h : Placed st s u) (hmode : s.mode = .entered)
    (hrequested : s.port.switchInterruptFlag = true → ∃ c, s.Requested c)
    (hrun : s.pendSvHandler = some s') : s'.context st u = s.context st u := by
  -- leaving the handler instead of entering it shows in no context
  have hleaving : ∀ p : Port τ, { s with mode := .leaving, port := p }.context st u =
      s.context st u := by
    intro p
    simp only [Machine.context, Machine.liveContext, Machine.savedContext, hmode]
  cases hflag : s.port.switchInterruptFlag with
  | false =>
    obtain rfl : { s with mode := .leaving } = s' := by
      simpa [Machine.pendSvHandler, hflag] using hrun
    exact hleaving s.port
  | true =>
    obtain ⟨c, -, hresume, hsave⟩ := hrequested hflag
    set s₀ : Machine τ :=
      { s with mode := .leaving, port := { s.port with switchInterruptFlag := false } } with hs₀
    have hmode₀ : s₀.mode ≠ .thread := by simp [hs₀]
    have h₀ : Placed st s₀ u := by
      refine ⟨fun t ht => ?_, h.saved⟩
      have hroom := h.room t ht
      simp only [Machine.HasRoom, hmode] at hroom
      exact hroom
    rcases hsave with ⟨hcpu, hfrom⟩ | ⟨t, hcpu, hfrom⟩
    · obtain rfl : s₀.switchToThread c = s' := by
        simpa [Machine.pendSvHandler, hflag, hfrom, hresume, hs₀] using hrun
      rw [Placed.switchToThread hmode₀, ← hleaving]
      exact (context_saved (by rw [hcpu]; simp)).symm
    · obtain rfl : (s₀.saveTo t).switchToThread c = s' := by
        simpa [Machine.pendSvHandler, hflag, hfrom, hresume, hs₀, saveTo_port] using hrun
      rw [Placed.switchToThread (s := s₀.saveTo t) hmode₀, h₀.saveTo hmode₀ hcpu]
      exact hleaving _

end Placed

end Contexts

end SampleRtos
