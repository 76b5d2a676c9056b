import SampleRtos.Timer.Flag

/-!
# One call of `rt_timer_check` comes to its end

The loop takes every due timer off the list and puts the periodic ones back into it.
A timer put back for at least one tick is not due again. A periodic timer with
`init_tick` 0 is: its new deadline is the present tick. The loop gets back to it,
unless a timer that is not due has come to stand in front of it.
-/

namespace SampleRtos

open Intrusive HalfRange

/-! ## What ends up in front -/

section Front
variable {half p : Nat} {ahead₀ ps : List Nat}

/-- What is in front once something `p` ahead is put in before or behind `c`. -/
def frontAfter (half : Nat) : Option Nat → Nat → Option Nat
  | none, p => some p
  | some c, p => if p < c ∧ c < p + half then some p else some c

/-- Of the distances `ps` put in one after the other, starting from `ahead₀`, some 0 is put in
when none is as far as `half` or another is nearer. -/
def ComesFirst (half : Nat) (ahead₀ ps : List Nat) : Prop :=
  ∃ as bs, ps = as ++ 0 :: bs ∧
    (half ∈ as ++ ahead₀ → ∃ c ∈ as ++ ahead₀, 0 < c ∧ c < half)

theorem comesFirst_snoc : ComesFirst half ahead₀ (ps ++ [p]) ↔
    ComesFirst half ahead₀ ps ∨
      (p = 0 ∧ (half ∈ ps ++ ahead₀ → ∃ c ∈ ps ++ ahead₀, 0 < c ∧ c < half)) := by
  constructor
  · rintro ⟨as, bs, hcut, has⟩
    rcases bs.eq_nil_or_concat with rfl | ⟨bs, b, rfl⟩
    · obtain ⟨rfl, hp⟩ := List.append_inj' hcut rfl
      exact .inr ⟨by simpa using hp, has⟩
    · refine .inl ⟨as, bs, ?_, has⟩
      rw [List.concat_eq_append, ← List.cons_append, ← List.append_assoc] at hcut
      exact (List.append_inj' hcut rfl).1
  · rintro (⟨as, bs, rfl, has⟩ | ⟨rfl, hps⟩)
    · exact ⟨as, bs ++ [p], by simp, has⟩
    · exact ⟨ps, [], rfl, hps⟩

/-- What `ps` leave in front. -/
structure FrontIs (half : Nat) (ahead₀ ps : List Nat) (c : Option Nat) : Prop where
  none : c = none → ps ++ ahead₀ = []
  zero : c = some 0 ↔ ComesFirst half ahead₀ ps
  near : ∀ n, c = some n → 0 < n → n < half → ∃ m ∈ ps ++ ahead₀, 0 < m ∧ m < half
  far : c = some half → half ∈ ps ++ ahead₀ ∧ ∀ m ∈ ps ++ ahead₀, m = 0 ∨ half ≤ m
  le : ∀ n, c = some n → n ≤ half

theorem FrontIs.snoc {c : Option Nat} (hpos : 0 < half) (h : FrontIs half ahead₀ ps c)
    (hp : p ≤ half) : FrontIs half ahead₀ (ps ++ [p]) (frontAfter half c p) := by
  have hmem : ∀ m, m ∈ (ps ++ [p]) ++ ahead₀ ↔ m = p ∨ m ∈ ps ++ ahead₀ := by
    intro m
    simp only [List.mem_append, List.mem_singleton]
    tauto
  have hnear : (∃ m ∈ ps ++ ahead₀, 0 < m ∧ m < half) →
      ∃ m ∈ (ps ++ [p]) ++ ahead₀, 0 < m ∧ m < half :=
    fun ⟨m, hm, hlt⟩ => ⟨m, (hmem m).mpr (.inr hm), hlt⟩
  cases c with
  | none =>
    obtain ⟨rfl, rfl⟩ := List.append_eq_nil_iff.mp (h.none rfl)
    refine ⟨by simp [frontAfter], ?_, ?_, ?_, ?_⟩
    · rw [comesFirst_snoc, ← h.zero]
      simp [frontAfter]
    · intro n hn hn₀ hlt
      cases hn
      exact ⟨p, by simp, hn₀, hlt⟩
    · intro hn
      cases hn
      simp
    · intro n hn
      cases hn
      exact hp
  | some c =>
    have hc := h.le c rfl
    by_cases hfront : p < c ∧ c < p + half
    · -- `p` is put in front of the one that was first
      have hstep : frontAfter half (some c) p = some p := if_pos hfront
      rw [hstep]
      refine ⟨by simp, ?_, ?_, ?_, ?_⟩
      · rw [comesFirst_snoc, ← h.zero]
        constructor
        · intro h₀
          have hp₀ : p = 0 := by simpa using h₀
          exact .inr ⟨hp₀, fun _ => h.near c rfl (by omega) (by omega)⟩
        · rintro (h₀ | ⟨rfl, -⟩)
          · have hc₀ : c = 0 := by simpa using h₀
            omega
          · rfl
      · intro n hn hn₀ hlt
        cases hn
        exact ⟨p, by simp, hn₀, hlt⟩
      · intro hn
        cases hn
        omega
      · intro n hn
        cases hn
        exact hp
    · -- and here somewhere behind it
      have hstep : frontAfter half (some c) p = some c := if_neg hfront
      rw [hstep]
      refine ⟨by simp, ?_, ?_, ?_, ?_⟩
      · rw [comesFirst_snoc, ← h.zero]
        constructor
        · exact .inl
        · rintro (h₀ | ⟨rfl, hps⟩)
          · exact h₀
          · by_cases hc₀ : c = 0
            · exact congrArg some hc₀
            · -- only what stands `half` ahead is not passed by a 0
              obtain rfl : c = half := by omega
              obtain ⟨hhalf, hall⟩ := h.far rfl
              obtain ⟨m, hm, hlt⟩ := hps hhalf
              have := hall m hm
              omega
      · intro n hn hn₀ hlt
        exact hnear (h.near n hn hn₀ hlt)
      · intro hn
        obtain ⟨hhalf, hall⟩ := h.far hn
        cases hn
        refine ⟨(hmem _).mpr (.inr hhalf), fun m hm => ?_⟩
        rcases (hmem m).mp hm with rfl | hm
        · omega
        · exact hall m hm
      · intro n hn
        exact h.le n hn

/-- Whatever is put in, one after the other. -/
theorem frontIs_foldl {c : Option Nat} (hpos : 0 < half) (hc : ∀ n ∈ c, 0 < n ∧ n ≤ half)
    (hps : ∀ p ∈ ps, p ≤ half) :
    FrontIs half c.toList ps (ps.foldl (frontAfter half) c) := by
  induction ps using List.reverseRecOn with
  | nil =>
    cases c with
    | none => exact ⟨by simp, by simp [ComesFirst], by simp, by simp, by simp⟩
    | some n =>
      have hn := hc n rfl
      refine ⟨by simp, ?_, ?_, ?_, ?_⟩
      · simpa [ComesFirst] using Nat.pos_iff_ne_zero.mp hn.1
      · rintro m ⟨⟩ hm hlt
        exact ⟨n, by simp, hm, hlt⟩
      · rintro ⟨⟩
        simp
      · rintro m ⟨⟩
        exact hn.2
  | append_singleton ps p ih =>
    rw [List.foldl_append]
    refine (ih fun q hq => hps q (by simp [hq])).snoc hpos (hps p (by simp))

end Front

/-! ## Deadlines by their distance -/

section Drain
variable {ι γ E : Type} [DecidableEq ι] {r r' : RtTimer γ} {now : Tick}

theorem due_iff_ahead : r.due now ↔
    ahead now r.timeoutTick = 0 ∨ 2 ^ 32 < ahead now r.timeoutTick + halfRange := by
  have hneg : now - r.timeoutTick = -(r.timeoutTick - now) := by ring
  have hlt := (r.timeoutTick - now).isLt
  have hhalf : halfRange = 2147483647 := by decide
  rw [RtTimer.due, BitVec.lt_def, hneg, BitVec.toNat_neg]
  change _ < halfRange ↔ _
  unfold ahead
  omega

/-- Where a restart puts a timer. -/
theorem started_precedes_iff (hr : r.initTick ≤ RT_TICK_MAX / 2) :
    (r.started now).precedes r' ↔ r.initTick.toNat < ahead now r'.timeoutTick ∧
      ahead now r'.timeoutTick < r.initTick.toNat + halfRange := by
  have hhalf := two_mul_halfRange
  have hle : r.initTick.toNat ≤ halfRange := BitVec.le_def.mp hr
  have hahead : ahead now (now + r.initTick) = r.initTick.toNat := ahead_add now r.initTick
  have hroom : ahead now (now + r.initTick) + halfRange ≤ 2 ^ 32 := by omega
  have hiff := sub_lt_half_iff (y := r'.timeoutTick) hroom
  rw [hahead] at hiff
  exact hiff

/-- A timer put back for at least one tick is not due, one put back for none is. -/
theorem started_due_iff (hr : r.initTick ≤ RT_TICK_MAX / 2) :
    (r.started now).due now ↔ r.initTick.toNat = 0 := by
  have hhalf : halfRange = 2147483647 := by decide
  have hle : r.initTick.toNat ≤ halfRange := BitVec.le_def.mp hr
  have hahead : ahead now (r.started now).timeoutTick = r.initTick.toNat :=
    ahead_add now r.initTick
  rw [due_iff_ahead, hahead]
  omega

/-! ## The state of the loop -/

/-- An active timer with a callback, for at most `RT_TICK_MAX / 2` ticks. -/
structure RtTimer.Loaded (r : RtTimer γ) : Prop where
  activated : r.activated
  timeoutFunc : r.timeoutFunc ≠ none
  le : r.initTick ≤ RT_TICK_MAX / 2

/-- The distances for which the periodic timers of `ts` are put back. -/
def periods {L : Type} (k : TimerSys ι γ L) (ts : List ι) : List Nat :=
  (ts.filter fun t => (k.timer t).periodic).map fun t => (k.timer t).initTick.toNat

/-- How far ahead the first of `ts` is. -/
def frontOf {L : Type} (k : TimerSys ι γ L) (ts : List ι) : Option Nat :=
  ts.head?.map fun t => ahead k.rtTick (k.timer t).timeoutTick

/-- No periodic timer of `ts`, put back, comes before one behind it. -/
def Unhindered {L : Type} (k : TimerSys ι γ L) (ts : List ι) : Prop :=
  ts.Pairwise fun t u => (k.timer t).periodic →
    ¬ ((k.timer t).started k.rtTick).precedes (k.timer u)

instance {L : Type} (k : TimerSys ι γ L) (ts : List ι) : Decidable (Unhindered k ts) :=
  inferInstanceAs (Decidable (ts.Pairwise _))

/-- Callbacks that act on their environment, with a note of the timers that fired. -/
def noting (act : ι → γ → E → E) (t : ι) (f : γ) (e : E × List ι) : E × List ι :=
  (act t f e.1, e.2 ++ [t])

variable {A : ι → γ → E → E} {a : TimerSys ι γ (TimerRings ι)} {t : ι} {ts rest : List ι}
  {b b' : Sys ι γ (TimerRings ι) (E × List ι)}

/-- The timers `ts` are still as they were and first in the list. -/
structure Draining (a : TimerSys ι γ (TimerRings ι)) (ts rest : List ι)
    (b : Sys ι γ (TimerRings ι) (E × List ι)) : Prop where
  valid : b.timers.timerList.Valid
  head : b.timers.timerList.live timerHead = true
  queue : b.timers.queue = ts ++ rest
  rtTick : b.timers.rtTick = a.rtTick
  timer : ∀ u ∈ ts, b.timers.timer u = a.timer u

/-- One iteration, on the first of the timers. -/
theorem Draining.fire (h : Draining a (t :: ts) rest b) (ht : (a.timer t).Loaded) :
    ∃ b', Abs.timerFire (ownCallback (noting A)) () t b = some b' ∧
      b'.env.2 = b.env.2 ++ [t] ∧ b'.timers.timerList.live = b.timers.timerList.live ∧
      b'.timers.timerList.Valid ∧ b'.timers.rtTick = a.rtTick ∧
      (∀ u ≠ t, b'.timers.timer u = b.timers.timer u) ∧
      ((a.timer t).periodic ∧ (b'.timers.timer t).timeoutTick = a.rtTick + (a.timer t).initTick ∧
          (∃ xs ys, ts ++ rest = xs ++ ys ∧ b'.timers.queue = xs ++ t :: ys ∧
            (∀ u ∈ xs, ¬ ((a.timer t).started a.rtTick).precedes (b.timers.timer u)) ∧
            ∀ u ∈ ys.head?, ((a.timer t).started a.rtTick).precedes (b.timers.timer u)) ∨
        ¬ (a.timer t).periodic ∧ b'.timers.queue = ts ++ rest) := by
  rw [← h.timer t (List.mem_cons_self ..)] at ht ⊢
  rw [← h.rtTick]
  have hlive : b.timers.timerList.live (.item t) = true := by
    refine h.valid.item_live (h := .rtTimerList) ?_
    show t ∈ b.timers.queue
    simp [h.queue]
  have hothers : b.timers.others t = ts ++ rest := by
    rw [TimerSys.others, Rings.erase_seq]
    show b.timers.queue.erase t = _
    simp [h.queue]
  obtain ⟨f, hf⟩ := Option.ne_none_iff_exists'.mp ht.timeoutFunc
  have hcall : ownCallback (noting A) t f () (b.unlinked t) = some _ := rfl
  have hfire := Abs.timerFire_eq hlive hf hcall
  by_cases hper : (b.timers.timer t).periodic
  · obtain ⟨k, hk⟩ := Abs.timerStart_of_live (t := t)
      (a := (b.unlinked t).timers.deactivate t) hlive h.head
    rw [if_pos ⟨hper, ht.activated⟩] at hfire
    dsimp only at hfire
    rw [hk] at hfire
    obtain ⟨xs, ys, hm⟩ := Abs.timerStart_started (h.valid.erase t) hk
    have herase : ((b.unlinked t).timers.deactivate t).timerList.erase t =
        b.timers.timerList.erase t := Rings.erase_of_free (h.valid.erase_free t)
    have hcut : ts ++ rest = xs ++ ys := by
      rw [← hothers, ← hm.others, TimerSys.others, TimerSys.others, herase]
    have hother : ∀ u ∈ xs ++ ys, u ≠ t := fun u hu => (hm.mem_rest.mp hu).2
    have hold : ∀ u, u ≠ t → ((b.unlinked t).timers.deactivate t).timer u = b.timers.timer u :=
      fun u hu => by simp [Sys.unlinked, hu]
    -- the flag that is cleared before the restart is none of what the comparison reads
    have hself : ∀ r : RtTimer γ,
        ((((b.unlinked t).timers.deactivate t).timer t).started b.timers.rtTick).precedes r ↔
          ((b.timers.timer t).started b.timers.rtTick).precedes r := by
      intro r
      simp [Sys.unlinked, RtTimer.precedes, RtTimer.started, RtTimer.deactivate]
    refine ⟨_, hfire, rfl, hm.live, hm.valid_after, hm.rtTick,
      fun u hu => (hm.other u hu).trans (hold u hu),
      .inl ⟨hper, ?_, xs, ys, hcut, hm.queue, fun u hu => ?_, fun u hu => ?_⟩⟩
    · rw [hm.self]
      simp [RtTimer.started, Sys.unlinked, RtTimer.deactivate]
    · have hut := hother u (List.mem_append_left _ hu)
      rw [← hself, ← hold u hut]
      exact hm.passed u hu
    · have hut := hother u (List.mem_append_right _ (List.mem_of_mem_head? hu))
      rw [← hself, ← hold u hut]
      exact hm.reached u hu
  · rw [if_neg fun hc => hper hc.1] at hfire
    refine ⟨_, hfire, rfl, rfl, h.valid.erase t, rfl, fun u hu => ?_, .inr ⟨hper, hothers⟩⟩
    simp [hu, Sys.unlinked]

/-- A timer that none of those still due is put back before goes behind them all. -/
theorem Draining.step (h : Draining a (t :: ts) rest b) (ht : (a.timer t).Loaded)
    (hclear : ∀ u ∈ ts, (a.timer t).periodic →
      ¬ ((a.timer t).started a.rtTick).precedes (a.timer u)) :
    ∃ b' rest', Abs.timerFire (ownCallback (noting A)) () t b = some b' ∧
      Draining a ts rest' b' ∧ b'.env.2 = b.env.2 ++ [t] ∧
      frontOf b'.timers rest' =
        (periods a [t]).foldl (frontAfter halfRange) (frontOf b.timers rest) ∧
      ∀ x ∈ rest'.head?, x = t ∨ x ∈ rest.head? ∧ b'.timers.timer x = b.timers.timer x := by
  obtain ⟨b', hfire, hlog, hlive, hvalid, htick, hsame, hput⟩ := h.fire (A := A) ht
  have hnd : (t :: (ts ++ rest)).Nodup := by
    have hnd := h.valid.nodup .rtTimerList
    change b.timers.queue.Nodup at hnd
    rwa [h.queue] at hnd
  have hts : ∀ u ∈ ts ++ rest, u ≠ t := fun u hu hut => (List.nodup_cons.mp hnd).1 (hut ▸ hu)
  have htimer : ∀ u ∈ ts, b'.timers.timer u = a.timer u := fun u hu =>
    (hsame u (hts u (by simp [hu]))).trans (h.timer u (by simp [hu]))
  have hfront : ∀ zs : List ι, (∀ x ∈ zs.head?, x ≠ t) →
      frontOf b'.timers zs = frontOf b.timers zs := by
    intro zs hzs
    cases zs with
    | nil => rfl
    | cons z zs => simp [frontOf, htick, h.rtTick, hsame z (hzs z rfl)]
  rcases hput with ⟨hper, hdead, xs, ys, hcut, hqueue, hxs, hys⟩ | ⟨hper, hqueue⟩
  · -- it goes behind all of `ts`: it precedes none of them
    obtain ⟨zs, rfl, rfl⟩ : ∃ zs, xs = ts ++ zs ∧ rest = zs ++ ys := by
      rcases List.append_eq_append_iff.mp hcut with ⟨zs, hxs', hys'⟩ | ⟨zs, hts', hys'⟩
      · exact ⟨zs, hxs', hys'⟩
      · cases zs with
        | nil => exact ⟨[], by simpa using hts'.symm, by simpa using hys'.symm⟩
        | cons z zs =>
          have hz : z ∈ ts := by simp [hts']
          have hpre := hys z (by simp [hys'])
          rw [h.timer z (by simp [hz])] at hpre
          exact absurd hpre (hclear z hz hper)
    refine ⟨b', zs ++ t :: ys, hfire, ⟨hvalid, hlive ▸ h.head, by simp [hqueue], htick, htimer⟩,
      hlog, ?_, ?_⟩
    · have hself : frontOf b'.timers (t :: ys) = some (a.timer t).initTick.toNat := by
        simp [frontOf, htick, hdead]
      have hperiods : periods a [t] = [(a.timer t).initTick.toNat] := by
        simp [periods, hper]
      rw [hperiods, List.foldl_cons, List.foldl_nil]
      cases zs with
      | nil =>
        -- at the front of the rest
        rw [List.nil_append, List.nil_append, hself]
        cases ys with
        | nil => rfl
        | cons y ys =>
          have hpre := (started_precedes_iff ht.le).mp (hys y rfl)
          rw [frontOf, List.head?_cons, Option.map_some, h.rtTick]
          exact (if_pos hpre).symm
      | cons z zs =>
        -- behind `z`, which stays in front
        have hpre := mt (started_precedes_iff ht.le).mpr (hxs z (by simp))
        rw [List.cons_append, List.cons_append, hfront _ (by simpa using hts z (by simp)), frontOf,
          frontOf, List.head?_cons, List.head?_cons, Option.map_some, h.rtTick]
        exact (if_neg hpre).symm
    · cases zs with
      | nil => exact fun x hx => .inl (by simpa using hx.symm)
      | cons z zs =>
        refine fun x hx => .inr ⟨hx, hsame x (hts x ?_)⟩
        obtain rfl : z = x := by simpa using hx
        simp
  · have hhead : ∀ x ∈ rest.head?, x ≠ t := fun x hx =>
      hts x (by simp [List.mem_of_mem_head? hx])
    refine ⟨b', rest, hfire, ⟨hvalid, hlive ▸ h.head, hqueue, htick, htimer⟩, hlog, ?_,
      fun x hx => .inr ⟨hx, hsame x (hhead x hx)⟩⟩
    simp [hfront rest hhead, periods, hper]

/-! ## Runs of the loop -/

/-- `rt_timer_check`, called in `b`, returns in `b'`. -/
def Returns (act : ι → γ → E → E) (b b' : Sys ι γ (TimerRings ι) (E × List ι)) : Prop :=
  ∃ fires, Abs.timerCheck (ownCallback (noting act)) (List.replicate fires ()) b = some b'

theorem Returns.of_quiet (hhead : b.timers.timerList.live timerHead = true) (hq : Quiet b) :
    Returns A b b :=
  ⟨0, Abs.timerCheck_quiet hhead hq⟩

theorem returns_iff_fire {b₁ : Sys ι γ (TimerRings ι) (E × List ι)}
    (ht : b.timers.queue.head? = some t) (hdue : (b.timers.timer t).due b.timers.rtTick)
    (hfire : Abs.timerFire (ownCallback (noting A)) () t b = some b₁) :
    Returns A b b' ↔ Returns A b₁ b' := by
  constructor
  · rintro ⟨fires, h⟩
    rcases Abs.timerCheck_cases h with ⟨-, hq⟩ | ⟨c, script, u, b₂, hscript, hu, -, hf, hrest⟩
    · exact absurd hdue (hq t ht)
    · rw [ht] at hu
      cases hu
      rw [hfire] at hf
      cases hf
      cases fires with
      | zero => cases hscript
      | succ fires =>
        rw [List.replicate_succ] at hscript
        cases hscript
        exact ⟨fires, hrest⟩
  · rintro ⟨fires, h⟩
    refine ⟨fires + 1, ?_⟩
    rw [List.replicate_succ, Abs.timerCheck_due ht hdue, hfire]
    exact h

theorem fire_log (h : Abs.timerFire (ownCallback (noting A)) () t b = some b') :
    b'.env.2 = b.env.2 ++ [t] := by
  obtain ⟨-, f, b₁, -, hcall, hend⟩ := Abs.timerFire_spec h
  cases hcall
  rcases hend with ⟨-, -, -, henv⟩ | ⟨-, rfl⟩
  · rw [henv]
    rfl
  · rfl

/-- The log grows at its end. -/
theorem Returns.log_prefix (h : Returns A b b') : b.env.2 <+: b'.env.2 := by
  obtain ⟨fires, h⟩ := h
  refine (Abs.timerCheck_invariant (fun b' => b.env.2 <+: b'.env.2) _ ?_
    (List.prefix_refl _) h).1
  intro b₁ t c b₂ _ hpre _ _ hf
  rw [fire_log hf]
  exact hpre.trans (List.prefix_append ..)

/-- Where nobody is hindered the loop fires them all once and looks at what is in front. -/
theorem Draining.drain : ∀ {ts rest : List ι} {b : Sys ι γ (TimerRings ι) (E × List ι)},
    Draining a ts rest b → (∀ t ∈ ts, (a.timer t).Loaded ∧ (a.timer t).due a.rtTick) →
    Unhindered a ts → ∃ b₁ rest₁, (∀ b', Returns A b b' ↔ Returns A b₁ b') ∧
      Draining a [] rest₁ b₁ ∧ b₁.env.2 = b.env.2 ++ ts ∧
      frontOf b₁.timers rest₁ =
        (periods a ts).foldl (frontAfter halfRange) (frontOf b.timers rest) ∧
      ∀ x ∈ rest₁.head?, x ∈ ts ∨ x ∈ rest.head? ∧ b₁.timers.timer x = b.timers.timer x := by
  intro ts
  induction ts with
  | nil =>
    intro rest b h _ _
    exact ⟨b, rest, fun _ => Iff.rfl, h, by simp, rfl, fun x hx => .inr ⟨hx, rfl⟩⟩
  | cons t ts ih =>
    intro rest b h hts hun
    obtain ⟨hclear, hun⟩ := List.pairwise_cons.mp hun
    obtain ⟨ht, hdue⟩ := hts t (List.mem_cons_self ..)
    obtain ⟨b', rest', hfire, h', hlog, hfront, hhead⟩ := h.step (A := A) ht hclear
    obtain ⟨b₁, rest₁, hret, h₁, hlog₁, hfront₁, hhead₁⟩ :=
      ih h' (fun u hu => hts u (List.mem_cons_of_mem _ hu)) hun
    have hfirst : b.timers.queue.head? = some t := by simp [h.queue]
    have hnow : (b.timers.timer t).due b.timers.rtTick := by
      rw [h.timer t (List.mem_cons_self ..), h.rtTick]
      exact hdue
    have hperiods : periods a (t :: ts) = periods a [t] ++ periods a ts := by
      simp [periods, List.filter_cons]
      split <;> simp
    refine ⟨b₁, rest₁, fun b'' => (returns_iff_fire hfirst hnow hfire).trans (hret b''), h₁,
      by simp [hlog₁, hlog], ?_, fun x hx => ?_⟩
    · rw [hfront₁, hfront, hperiods, List.foldl_append]
    · rcases hhead₁ x hx with hx₁ | ⟨hx₁, hsame₁⟩
      · exact .inl (List.mem_cons_of_mem _ hx₁)
      · rcases hhead x hx₁ with rfl | ⟨hx₂, hsame⟩
        · exact .inl (List.mem_cons_self ..)
        · exact .inr ⟨hx₂, hsame₁.trans hsame⟩

/-! ## Hindered -/

/-- Sorted by the comparison of `rt_timer_start`. -/
def InOrder {L : Type} (k : TimerSys ι γ L) (ts : List ι) : Prop :=
  ts.Pairwise fun t u => (k.timer u).timeoutTick - (k.timer t).timeoutTick ≤ RT_TICK_MAX / 2

instance {L : Type} (k : TimerSys ι γ L) (ts : List ι) : Decidable (InOrder k ts) :=
  inferInstanceAs (Decidable (ts.Pairwise _))

/-- The comparison of two timers, in ticks from now. -/
theorem diff_le_half (now : Tick) (hle : r'.timeoutTick - r.timeoutTick ≤ RT_TICK_MAX / 2) :
    (2 ^ 32 - (r.timeoutTick - now).toNat + (r'.timeoutTick - now).toNat) % 2 ^ 32 ≤
      halfRange := by
  have hdiff : r'.timeoutTick - r.timeoutTick =
      (r'.timeoutTick - now) - (r.timeoutTick - now) := by ring
  rw [hdiff, BitVec.le_def, BitVec.toNat_sub] at hle
  exact hle

/-- Of two due timers the second is not the longer overdue. -/
theorem ahead_le_of_due (hr' : r'.due now)
    (hle : r'.timeoutTick - r.timeoutTick ≤ RT_TICK_MAX / 2) :
    ahead now r'.timeoutTick = 0 ∨
      ahead now r.timeoutTick ≠ 0 ∧ ahead now r.timeoutTick ≤ ahead now r'.timeoutTick := by
  have hhalf : halfRange = 2147483647 := by decide
  have hlt := (r.timeoutTick - now).isLt
  have hlt' := (r'.timeoutTick - now).isLt
  have hdiff := diff_le_half now hle
  rw [due_iff_ahead] at hr'
  unfold ahead at hr' ⊢
  omega

/-- A timer that is not due stands less than half the range ahead of a due one before it. -/
theorem ahead_le_of_not_due (hr : r.due now) (hr' : ¬ r'.due now)
    (hle : r'.timeoutTick - r.timeoutTick ≤ RT_TICK_MAX / 2) :
    0 < ahead now r'.timeoutTick ∧ ahead now r'.timeoutTick ≤ halfRange := by
  have hhalf : halfRange = 2147483647 := by decide
  have hlt := (r.timeoutTick - now).isLt
  have hlt' := (r'.timeoutTick - now).isLt
  have hdiff := diff_le_half now hle
  rw [due_iff_ahead] at hr hr'
  unfold ahead at hr hr' ⊢
  omega

/-- Only a timer put back for a positive time comes before a due one, and then before
every due one that is overdue as long. -/
theorem hinders_earlier {s : RtTimer γ} (hs : s.initTick ≤ RT_TICK_MAX / 2) (hr : r.due now)
    (hr' : r'.due now) (hle : r'.timeoutTick - r.timeoutTick ≤ RT_TICK_MAX / 2)
    (hpre : (s.started now).precedes r') : (s.started now).precedes r := by
  have hhalf : halfRange = 2147483647 := by decide
  have hinit : s.initTick.toNat ≤ halfRange := BitVec.le_def.mp hs
  have hahead := ahead_le_of_due hr' hle
  rw [started_precedes_iff hs] at hpre ⊢
  rw [due_iff_ahead] at hr
  omega

theorem pos_of_hinders {s : RtTimer γ} (hs : s.initTick ≤ RT_TICK_MAX / 2) (hr : r.due now)
    (hpre : (s.started now).precedes r) : s.initTick.toNat ≠ 0 := by
  have hhalf : halfRange = 2147483647 := by decide
  rw [started_precedes_iff hs] at hpre
  rw [due_iff_ahead] at hr
  omega

/-- A timer put back in front of the others ends the loop. -/
theorem Draining.hindered_now (h : Draining a (t :: ts) rest b)
    (hts : ∀ u ∈ t :: ts, (a.timer u).Loaded ∧ (a.timer u).due a.rtTick)
    (hord : InOrder a (t :: ts)) {u : ι} (hu : u ∈ ts) (hper : (a.timer t).periodic)
    (hpre : ((a.timer t).started a.rtTick).precedes (a.timer u)) :
    ∃ b', Returns A b b' ∧ b'.env.2 = b.env.2 ++ [t] := by
  obtain ⟨ht, hdue⟩ := hts t (List.mem_cons_self ..)
  obtain ⟨b', hfire, hlog, hlive, -, htick, -, hput⟩ := h.fire (A := A) ht
  have hnow : (b.timers.timer t).due b.timers.rtTick := by
    rw [h.timer t (List.mem_cons_self ..), h.rtTick]
    exact hdue
  have hpos := pos_of_hinders ht.le (hts u (List.mem_cons_of_mem _ hu)).2 hpre
  refine ⟨b', (returns_iff_fire (by simp [h.queue]) hnow hfire).mpr (.of_quiet (hlive ▸ h.head) ?_),
    hlog⟩
  rcases hput with ⟨-, hdead, xs, ys, hcut, hqueue, hxs, -⟩ | ⟨hnot, -⟩
  · obtain rfl : xs = [] := by
      cases xs with
      | nil => rfl
      | cons x xs =>
        obtain ⟨v, vs, rfl⟩ := List.exists_cons_of_ne_nil (List.ne_nil_of_mem hu)
        obtain rfl : v = x := (List.cons.inj hcut).1
        have hx := hxs v (List.mem_cons_self ..)
        rw [h.timer v (by simp)] at hx
        refine absurd ?_ hx
        rcases List.mem_cons.mp hu with rfl | hu'
        · exact hpre
        · have hle := (List.pairwise_cons.mp (List.pairwise_cons.mp hord).2).1 u hu'
          exact hinders_earlier ht.le (hts v (by simp)).2 (hts u (by simp [hu'])).2 hle hpre
    intro v hv
    obtain rfl : t = v := by simpa [hqueue] using hv
    have hsame : (b'.timers.timer t).timeoutTick =
        ((a.timer t).started a.rtTick).timeoutTick := hdead
    rw [due_iff_ahead, hsame, htick, ← due_iff_ahead, started_due_iff ht.le]
    exact hpos
  · exact absurd hper hnot

/-- Where some timer is hindered, each fires at most once. -/
theorem Draining.hindered : ∀ {ts rest : List ι} {b : Sys ι γ (TimerRings ι) (E × List ι)},
    Draining a ts rest b → (∀ t ∈ ts, (a.timer t).Loaded ∧ (a.timer t).due a.rtTick) →
    InOrder a ts → ¬ Unhindered a ts →
    ∃ b' us, Returns A b b' ∧ us <+: ts ∧ b'.env.2 = b.env.2 ++ us := by
  intro ts
  induction ts with
  | nil => exact fun _ _ _ hun => absurd List.Pairwise.nil hun
  | cons t ts ih =>
    intro rest b h hts hord hun
    by_cases hclear : ∀ u ∈ ts, (a.timer t).periodic →
        ¬ ((a.timer t).started a.rtTick).precedes (a.timer u)
    · obtain ⟨ht, hdue⟩ := hts t (List.mem_cons_self ..)
      obtain ⟨b₁, rest₁, hfire, h₁, hlog, -⟩ := h.step (A := A) ht hclear
      have hun₁ : ¬ Unhindered a ts := fun hts => hun (List.pairwise_cons.mpr ⟨hclear, hts⟩)
      obtain ⟨b', us, hret, hus, hlog'⟩ :=
        ih h₁ (fun u hu => hts u (List.mem_cons_of_mem _ hu)) (List.pairwise_cons.mp hord).2 hun₁
      have hnow : (b.timers.timer t).due b.timers.rtTick := by
        rw [h.timer t (List.mem_cons_self ..), h.rtTick]
        exact hdue
      exact ⟨b', t :: us, (returns_iff_fire (by simp [h.queue]) hnow hfire).mpr hret,
        (List.prefix_cons_inj t).mpr hus, by simp [hlog', hlog]⟩
    · simp only [not_forall, not_not] at hclear
      obtain ⟨u, hu, hper, hpre⟩ := hclear
      obtain ⟨b', hret, hlog⟩ := h.hindered_now (A := A) hts hord hu hper hpre
      exact ⟨b', [t], hret, by simp, hlog⟩

/-! ## Both ways -/

/-- Of the due timers `ts` one is fired again: none is hindered, and one that is due
as soon as it is put back comes first. -/
def ComesRound {L : Type} (k : TimerSys ι γ L) (ts rest : List ι) : Prop :=
  Unhindered k ts ∧ ComesFirst halfRange (frontOf k rest).toList (periods k ts)

theorem Draining.once_iff (h : Draining b.timers ts rest b) (hlog : b.env.2 = [])
    (hts : ∀ t ∈ ts, (b.timers.timer t).Loaded ∧ (b.timers.timer t).due b.timers.rtTick)
    (hrest : ∀ x ∈ rest.head?, ¬ (b.timers.timer x).due b.timers.rtTick)
    (hord : InOrder b.timers (ts ++ rest)) :
    (∃ b', Returns A b b' ∧ b'.env.2.Nodup) ↔ ¬ ComesRound b.timers ts rest := by
  have hnd : ts.Nodup := by
    have hnd := h.valid.nodup .rtTimerList
    change b.timers.queue.Nodup at hnd
    rw [h.queue] at hnd
    exact (List.nodup_append.mp hnd).1
  by_cases hun : Unhindered b.timers ts
  · -- all of `ts` fire once, and what was put back stands at the front
    obtain ⟨b₁, rest₁, hret, h₁, hlog₁, hfront, hhead⟩ := h.drain (A := A) hts hun
    rw [hlog, List.nil_append] at hlog₁
    have hrange : ∀ t ∈ ts, ∀ n ∈ frontOf b.timers rest, 0 < n ∧ n ≤ halfRange := by
      intro t ht n hn
      obtain ⟨x, hx, rfl⟩ := Option.map_eq_some_iff.mp hn
      exact ahead_le_of_not_due (hts t ht).2 (hrest x hx)
        ((List.pairwise_append.mp hord).2.2 t ht x (List.mem_of_mem_head? hx))
    have hperiods : ∀ p ∈ periods b.timers ts, p ≤ halfRange := by
      intro p hp
      obtain ⟨t, ht, rfl⟩ := List.mem_map.mp hp
      exact BitVec.le_def.mp (hts t (List.mem_of_mem_filter ht)).1.le
    have hfinal : ∀ t ∈ ts, FrontIs halfRange (frontOf b.timers rest).toList
        (periods b.timers ts) (frontOf b₁.timers rest₁) := by
      intro t ht
      rw [hfront]
      exact frontIs_foldl (by decide) (hrange t ht) hperiods
    by_cases hzero : frontOf b₁.timers rest₁ = some 0
    · -- whoever is at the front again has fired before
      obtain ⟨x, hx, hahead⟩ := Option.map_eq_some_iff.mp hzero
      have hdue : (b₁.timers.timer x).due b₁.timers.rtTick := due_iff_ahead.mpr (.inl hahead)
      have hmem : x ∈ ts := by
        rcases hhead x hx with hmem | ⟨hx', hsame⟩
        · exact hmem
        · rw [hsame, h₁.rtTick] at hdue
          exact absurd hdue (hrest x hx')
      refine iff_of_false ?_ (not_not.mpr ⟨hun, (hfinal x hmem).zero.mp hzero⟩)
      rintro ⟨b', hb', hnd'⟩
      obtain ⟨fires, hcheck⟩ := (hret b').mp hb'
      rcases Abs.timerCheck_cases hcheck with
        ⟨-, hq⟩ | ⟨c, script, u, b₂, hscript, hu, -, hf, hmore⟩
      · exact hq x (by simpa [h₁.queue] using hx) hdue
      · -- so its second firing is in the log of any run that returns
        obtain rfl : x = u := by simpa [h₁.queue, hx] using hu
        obtain ⟨fires, rfl⟩ : ∃ n, script = List.replicate n () :=
          ⟨script.length, List.eq_replicate_of_mem fun _ _ => rfl⟩
        have hpre := Returns.log_prefix (A := A) ⟨fires, hmore⟩
        rw [fire_log hf, hlog₁] at hpre
        have htwice := hnd'.sublist hpre.sublist
        exact (List.nodup_append.mp htwice).2.2 x hmem x (by simp) rfl
    · refine iff_of_true ⟨b₁, (hret b₁).mpr (.of_quiet h₁.head ?_), hlog₁ ▸ hnd⟩ ?_
      · intro x hx
        rw [h₁.queue, List.nil_append] at hx
        rcases hhead x hx with hmem | ⟨hx', hsame⟩
        · have hx₁ : frontOf b₁.timers rest₁ =
              some (ahead b₁.timers.rtTick (b₁.timers.timer x).timeoutTick) := by
            rw [frontOf, hx]
            rfl
          have hle := (hfinal x hmem).le _ hx₁
          rw [hx₁] at hzero
          have hne : ahead b₁.timers.rtTick (b₁.timers.timer x).timeoutTick ≠ 0 :=
            fun h₀ => hzero (congrArg some h₀)
          have hhalf : halfRange = 2147483647 := by decide
          rw [due_iff_ahead]
          omega
        · rw [hsame, h₁.rtTick]
          exact hrest x hx'
      · rintro ⟨-, hfirst⟩
        cases ts with
        | nil =>
          obtain ⟨as, bs, hnil, -⟩ := hfirst
          simp [periods] at hnil
        | cons t ts => exact hzero ((hfinal t (List.mem_cons_self ..)).zero.mpr hfirst)
  · -- the loop stops at the timer that was put in front of others still due
    obtain ⟨b', us, hret, hus, hlog'⟩ :=
      h.hindered (A := A) hts (List.pairwise_append.mp hord).1 hun
    refine iff_of_true ⟨b', hret, ?_⟩ fun hc => hun hc.1
    rw [hlog', hlog, List.nil_append]
    exact hnd.sublist hus.sublist

/-! ## The theorem -/

/-- The timer list is `ts`, sorted, of active timers with callbacks, each for at most
`RT_TICK_MAX / 2` ticks; the other timers are linked to nothing. -/
structure Lists (k : TimerSys ι γ (TimerLinks ι)) (ts : List ι) : Prop where
  ring : Ring k.timerList .rtTimerList ts
  nodup : ts.Nodup
  apart : ∀ t ∉ ts, k.timerList.Linked (.item t) (.item t) ∨
    k.timerList.next (.item t) = none ∧ k.timerList.prev (.item t) = none
  order : InOrder k ts
  loaded : ∀ t ∈ ts, (k.timer t).Loaded

/-- `rt_timer_check` returns, having fired no timer twice. -/
def ChecksOnce [Fintype ι] (act : ι → γ → E → E) (k : TimerSys ι γ (TimerLinks ι)) (e : E) :
    Prop :=
  ∃ fires s', rtTimerCheck (ownCallback (noting act)) (List.replicate fires ())
    { timers := k, env := (e, []) } = some s' ∧ s'.env.2.Nodup

variable {k : TimerSys ι γ (TimerLinks ι)} {e : E}

/-- The sequence of a list that is a ring. -/
def TimerSys.sequence (k : TimerSys ι γ (TimerLinks ι)) (ts : List ι) :
    TimerSys ι γ (TimerRings ι) :=
  k.withList { seq := fun _ => ts, live := fun n => (k.timerList.next n).isSome }

theorem Lists.rel (h : Lists k ts) : TimerRel k (k.sequence ts) := by
  have hnext : ∀ t ∈ ts, k.timerList.next (.item t) ≠ none := by
    intro t ht
    obtain ⟨xs, ys, rfl⟩ := List.append_of_mem ht
    have hring := h.ring
    rw [show xs ++ t :: ys = (xs ++ [t]) ++ ys by simp] at hring
    have hlink := (ring_cut.mp hring).2.2.1
    rw [lastNode_append] at hlink
    simp [hlink]
  have hhead : k.timerList.next timerHead ≠ none := by
    have hring := h.ring
    rw [show ts = [] ++ ts from rfl] at hring
    have hlink := (ring_cut.mp hring).2.2.1
    rw [lastNode_nil] at hlink
    simp [hlink]
  refine .mk (k.sequence ts) k.timerList ⟨⟨fun _ => h.nodup, fun {t h₁ h₂} _ _ => ?_, ?_, ?_⟩, ?_,
    ?_, ?_⟩
  · cases h₁
    cases h₂
    rfl
  · exact fun {t _} ht => Option.isSome_iff_ne_none.mpr (hnext t ht)
  · rintro ⟨⟩ -
    exact Option.isSome_iff_ne_none.mpr hhead
  · rintro ⟨⟩ -
    exact h.ring
  · intro t hlive hfree
    rcases h.apart t (hfree .rtTimerList) with hself | ⟨hnull, -⟩
    · exact hself
    · exact absurd hnull (Option.isSome_iff_ne_none.mp hlive)
  · rintro n hdead
    have hnull : k.timerList.next n = none := by
      by_contra hne
      have hdead' : (k.timerList.next n).isSome = false := hdead
      simp [Option.isSome_iff_ne_none.mpr hne] at hdead'
    cases n with
    | head hd =>
      cases hd
      exact absurd hnull hhead
    | item t =>
      have ht : t ∉ ts := fun ht => hnext t ht hnull
      rcases h.apart t ht with hself | hnull'
      · exact absurd hself.1 (by simp [hnull])
      · exact hnull'

/-- The timers at the front of the list that are due, and those behind them. -/
def dueFirst {L : Type} (k : TimerSys ι γ L) (ts : List ι) : List ι :=
  ts.takeWhile fun t => (k.timer t).due k.rtTick

def notYet {L : Type} (k : TimerSys ι γ L) (ts : List ι) : List ι :=
  ts.dropWhile fun t => (k.timer t).due k.rtTick

section
omit [DecidableEq ι]

theorem due_of_mem_dueFirst (ht : t ∈ dueFirst k ts) : (k.timer t).due k.rtTick :=
  of_decide_eq_true (List.mem_takeWhile_imp (p := fun t => decide ((k.timer t).due k.rtTick)) ht)

theorem not_due_of_head_notYet (ht : t ∈ (notYet k ts).head?) : ¬ (k.timer t).due k.rtTick := by
  have hnot := List.head?_dropWhile_not (fun t => decide ((k.timer t).due k.rtTick)) ts
  rw [show (ts.dropWhile fun t => decide ((k.timer t).due k.rtTick)).head? = some t from ht] at hnot
  exact of_decide_eq_false hnot

end

theorem Lists.checksOnce_iff [Fintype ι] (h : Lists k ts) : ChecksOnce A k e ↔
    ∃ b', Returns A ⟨k.sequence ts, (e, [])⟩ b' ∧ b'.env.2.Nodup := by
  have hrel : ∀ fires, Option.Rel (SysRel Eq)
      (rtTimerCheck (ownCallback (noting A)) (List.replicate fires ()) ⟨k, (e, [])⟩)
      (Abs.timerCheck (ownCallback (noting A)) (List.replicate fires ())
        ⟨k.sequence ts, (e, [])⟩) :=
    fun fires => ownCheck_rel ⟨h.rel, rfl⟩ _
  constructor
  · rintro ⟨fires, s', hs, hnd⟩
    obtain ⟨b', hb', h'⟩ := Lockstep.exists_of_left (hrel fires) hs
    exact ⟨b', ⟨fires, hb'⟩, h'.env ▸ hnd⟩
  · rintro ⟨b', ⟨fires, hb'⟩, hnd⟩
    obtain ⟨s', hs, h'⟩ := Lockstep.exists_of_right (hrel fires) hb'
    exact ⟨fires, s', hs, h'.env ▸ hnd⟩

theorem Lists.returns_once_iff (h : Lists k ts) :
    (∃ b', Returns A ⟨k.sequence ts, (e, [])⟩ b' ∧ b'.env.2.Nodup) ↔
      ¬ ComesRound k (dueFirst k ts) (notYet k ts) := by
  have hrep := h.rel.rep
  have hcut : dueFirst k ts ++ notYet k ts = ts := List.takeWhile_append_dropWhile
  have hhead : (k.sequence ts).timerList.live timerHead = true := by
    by_contra hdead
    have hnull := (hrep.null timerHead (by simpa using hdead)).1
    have hring := h.ring
    rw [show ts = [] ++ ts from rfl] at hring
    have hlink := (ring_cut.mp hring).2.2.1
    rw [lastNode_nil, show k.timerList.next (.head .rtTimerList) = none from hnull] at hlink
    cases hlink
  have hdraining : Draining (k.sequence ts) (dueFirst k ts) (notYet k ts)
      (⟨k.sequence ts, (e, [])⟩ : Sys ι γ (TimerRings ι) (E × List ι)) :=
    ⟨hrep.valid, hhead, hcut.symm, rfl, fun _ _ => rfl⟩
  exact hdraining.once_iff rfl
    (fun t ht => ⟨h.loaded t (List.takeWhile_subset _ ht), due_of_mem_dueFirst ht⟩)
    (fun x hx => not_due_of_head_notYet hx) (hcut.symm ▸ h.order)

/-- **One call of `rt_timer_check` comes to its end**, each timer having fired at most
once, if and only if it does not come round to a timer it has put back. -/
theorem timer_check_once_iff [Fintype ι] (h : Lists k ts) :
    ChecksOnce A k e ↔ ¬ ComesRound k (dueFirst k ts) (notYet k ts) :=
  h.checksOnce_iff.trans h.returns_once_iff

section
omit [DecidableEq ι]

/-- Without a timer that is put back for no time the loop does not come round. -/
theorem not_comesRound {L : Type} {k : TimerSys ι γ L}
    (hpos : ∀ t ∈ ts, (k.timer t).periodic → (k.timer t).initTick ≠ 0) :
    ¬ ComesRound k ts rest := by
  rintro ⟨-, as, bs, hcut, -⟩
  have hzero : 0 ∈ periods k ts := by simp [hcut]
  obtain ⟨t, ht, hinit⟩ := List.mem_map.mp hzero
  obtain ⟨ht, hper⟩ := List.mem_filter.mp ht
  exact hpos t ht (of_decide_eq_true hper) (BitVec.eq_of_toNat_eq hinit)

end

/-- A periodic timer a tick overdue, and another due in a tick. -/
def overdueByOne : TimerSys (Fin 2) Unit (TimerLinks (Fin 2)) where
  rtTick := 7
  randomNr := 2
  timer t := {
    flag := RT_TIMER_FLAG_ACTIVATED ||| RT_TIMER_FLAG_PERIODIC
    timeoutFunc := some ()
    initTick := 2
    timeoutTick := if t = 0 then 6 else 8 }
  timerList := {
    next := fun
      | .head _ => some (.item 0)
      | .item t => if t = 0 then some (.item 1) else some timerHead
    prev := fun
      | .head _ => some (.item 1)
      | .item t => if t = 0 then some timerHead else some (.item 0) }

theorem overdue_checked_once :
    Lists overdueByOne [0, 1] ∧ ChecksOnce (fun _ _ => id) overdueByOne () := by
  have hlists : Lists overdueByOne [0, 1] := {
    ring := .cons_cons ⟨rfl, rfl⟩ (.cons_cons ⟨rfl, rfl⟩ (.cons_cons ⟨rfl, rfl⟩ (.singleton _)))
    nodup := by decide
    apart := fun t ht => absurd ((by decide : ∀ t : Fin 2, t ∈ [0, 1]) t) ht
    order := by decide
    loaded := fun t _ => ⟨by decide +revert, Option.some_ne_none (), by decide +revert⟩ }
  exact ⟨hlists, (timer_check_once_iff hlists).mpr (not_comesRound (by decide))⟩

/-- A periodic timer with `init_tick` 0 as `rt_timer_start` leaves it. -/
def periodZero : TimerSys (Fin 1) Unit (TimerLinks (Fin 1)) where
  rtTick := 7
  randomNr := 1
  timer _ := {
    flag := RT_TIMER_FLAG_ACTIVATED ||| RT_TIMER_FLAG_PERIODIC
    timeoutFunc := some ()
    initTick := 0
    timeoutTick := 7 }
  timerList := {
    next := fun
      | .head _ => some (.item 0)
      | .item _ => some timerHead
    prev := fun
      | .head _ => some (.item 0)
      | .item _ => some timerHead }

/-- It is fired for ever. -/
theorem period_zero_never_ends :
    ¬ ∀ (k : TimerSys (Fin 1) Unit (TimerLinks (Fin 1))) (ts : List (Fin 1)),
      Lists k ts → ChecksOnce (fun _ _ => id) k () := by
  intro hclaim
  have hlists : Lists periodZero [0] := {
    ring := .cons_cons ⟨rfl, rfl⟩ (.cons_cons ⟨rfl, rfl⟩ (.singleton _))
    nodup := by decide
    apart := fun t ht => absurd ((by decide : ∀ t : Fin 1, t ∈ [0]) t) ht
    order := by decide
    loaded := fun t _ => ⟨by decide +revert, Option.some_ne_none (), by decide +revert⟩ }
  have hround : ComesRound periodZero (dueFirst periodZero [0]) (notYet periodZero [0]) :=
    ⟨by decide, [], [], by decide, by decide⟩
  exact hlists.returns_once_iff.mp (hlists.checksOnce_iff.mp (hclaim _ _ hlists)) hround

end Drain

end SampleRtos
