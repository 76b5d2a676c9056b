import SampleRtos.Lib.Cut
import SampleRtos.Timer.Rows

/-!
# The search through the rows

A timer is linked in some row and in every row below it, so each row is a subsequence
of the row below. When what ends a search ends it for good, that is when everything
before a timer that is passed is passed as well, the search in a row ends where it
would have ended from the head of that row, wherever the search in the row above ended.
-/

namespace SampleRtos

open Intrusive Cut

namespace SkipList
variable {ι γ : Type} [DecidableEq ι]

/-! ## Rows as rings -/

/-- The rings of `L` rows. -/
def rowRings (L : Nat) (rows : Nat → List ι) : Rings Nat (ι × Nat) where
  seq r := (rows r).map fun t => (t, r)
  live n := match n with
    | .head r | .item (_, r) => decide (r < L)

/-- The last node of row `r` up to the timers `xs`. -/
def lastIn (r : Nat) (xs : List ι) : RowNode ι := lastNode r (xs.map fun t => (t, r))

variable {L : Nat} {rows : Nat → List ι} {l : RowLinks ι} {t : ι} {r : Nat}

section
omit [DecidableEq ι]

@[simp] theorem rowRings_live_head : (rowRings L rows).live (.head r) = true ↔ r < L :=
  decide_eq_true_iff

@[simp] theorem rowRings_live_item : (rowRings L rows).live (.item (t, r)) = true ↔ r < L :=
  decide_eq_true_iff

theorem rowRings_free : (rowRings L rows).Free (t, r) ↔ t ∉ rows r := by
  constructor
  · intro h ht
    exact h r (List.mem_map.mpr ⟨t, ht, rfl⟩)
  · intro h r' ht
    obtain ⟨u, hu, heq⟩ := List.mem_map.mp ht
    cases heq
    exact h hu

theorem rowRings_setSeq (xs : List ι) : (rowRings L rows).setSeq r (xs.map fun t => (t, r)) =
    rowRings L (Function.update rows r xs) := by
  refine congrArg (fun s => Rings.mk s _) (funext fun r' => ?_)
  by_cases hr : r' = r
  · subst hr
    simp [rowRings]
  · simp [rowRings, hr]

end

theorem rowRings_erase : (rowRings L rows).erase (t, r) =
    rowRings L (Function.update rows r ((rows r).erase t)) := by
  refine congrArg (fun s => Rings.mk s _) (funext fun r' => ?_)
  by_cases hr : r' = r
  · subst hr
    have hinj : Function.Injective fun u : ι => (u, r') := fun _ _ h => congrArg Prod.fst h
    refine (Rings.erase_seq_map (r := rowRings L rows) hinj rfl t).trans ?_
    simp
  · refine (Rings.erase_seq_of_not_mem (r := rowRings L rows) fun ht => ?_).trans ?_
    · obtain ⟨u, -, heq⟩ := List.mem_map.mp ht
      exact hr (congrArg Prod.snd heq)
    · simp [rowRings, hr]

theorem nodup_row (h : Rep l (rowRings L rows)) (r : Nat) : (rows r).Nodup :=
  List.Nodup.of_map _ (h.valid.nodup r)

section
omit [DecidableEq ι]

theorem below_lastIn {xs ys : List ι} (h : ys.getLast? = xs.getLast?) :
    below (lastIn r xs) = lastIn (r + 1) ys := by
  unfold lastIn lastNode
  rw [List.getLast?_map, List.getLast?_map, h]
  cases xs.getLast? <;> rfl

end

/-- Taking a timer off the first `n` rows. -/
theorem remove_rows (h : Rep l (rowRings L rows)) (t : ι) {n : Nat} (hn : n ≤ L) :
    ∃ l', (List.range n).foldlM (fun l i => rtListRemove l (.item (t, i))) l = some l' ∧
      Rep l' (rowRings L fun r => if r < n then (rows r).erase t else rows r) := by
  induction n with
  | zero => exact ⟨l, rfl, by simpa using h⟩
  | succ n ih =>
    obtain ⟨l₁, hl₁, h₁⟩ := ih (Nat.le_of_succ_le hn)
    have hremove := rtListRemove_rep h₁ (t, n)
    rw [remove, if_pos (rowRings_live_item.mpr hn)] at hremove
    obtain ⟨l₂, hl₂, h₂⟩ := Lockstep.exists_of_right hremove rfl
    refine ⟨l₂, ?_, ?_⟩
    · rw [List.range_succ, List.foldlM_append, hl₁]
      simp [hl₂]
    · rw [rowRings_erase] at h₂
      convert h₂ using 2
      funext r
      by_cases hr : r = n
      · subst hr
        simp
      · have hlt : r < n + 1 ↔ r < n := by omega
        simp [hr, hlt]

/-! ## The search -/

variable {k : TimerSys ι γ (RowLinks ι)}

/-- What the search for the place of `t` passes. -/
def passes (k : TimerSys ι γ (RowLinks ι)) (t u : ι) : Bool :=
  decide ¬ (k.timer t).precedes (k.timer u)

/-- In one row the search ends behind all that it has passed. -/
theorem rtTimerSearchRow_eq (h : Rep k.timerList (rowRings L rows)) (hr : r < L) (t : ι) :
    ∀ (fuel : Nat) (xs ys : List ι), rows r = xs ++ ys → ys.length < fuel →
      rtTimerSearchRow k t r fuel (lastIn r xs) =
        some (lastIn r (xs ++ ys.takeWhile (passes k t))) := by
  intro fuel
  induction fuel with
  | zero => intro xs ys _ hlen; omega
  | succ fuel ih =>
    intro xs ys hs hlen
    have hhead : (rowRings L rows).live (.head r) = true := rowRings_live_head.mpr hr
    have hprev : k.timerList.prev (.head r) = some (lastIn r (xs ++ ys)) := by
      rw [← hs]
      exact h.prev_head hhead
    cases ys with
    | nil => simp [rtTimerSearchRow, hprev]
    | cons u ys =>
      -- the node reached is not the last of the row, so the loop looks at `u`
      have hseq : (rowRings L rows).seq r =
          xs.map (fun t => (t, r)) ++ (u :: ys).map (fun t => (t, r)) := by
        rw [← List.map_append, ← hs]
        rfl
      have hne : lastIn r xs ≠ lastIn r (xs ++ u :: ys) := by
        have hnd := h.valid.nodup r
        rw [hseq] at hnd
        rw [lastIn, lastIn, List.map_append]
        exact Rep.lastNode_ne_append hnd (by simp)
      have hnext : k.timerList.next (lastIn r xs) = some (.item (u, r)) :=
        (h.linked_cut hseq hhead).1
      have hstep := ih (xs ++ [u]) ys (by simp [hs]) (by simpa using hlen)
      have hlast : lastIn r (xs ++ [u]) = .item (u, r) := by simp [lastIn]
      rw [hlast] at hstep
      simp only [rtTimerSearchRow, hprev, Option.some.injEq, hne, if_false, hnext, rtTimerEntry,
        if_true, Option.bind_eq_bind, Option.bind_some, Option.pure_def, List.takeWhile_cons]
      split
      · rename_i hpre
        simp [passes, hpre]
      · rename_i hpre
        rw [hstep]
        simp [passes, hpre]

/-- `row_head[r]` when all of its row has been searched. -/
def rowHead (k : TimerSys ι γ (RowLinks ι)) (rows : Nat → List ι) (t : ι) (r : Nat) : RowNode ι :=
  lastIn r ((rows r).takeWhile (passes k t))

/-- **Going down the rows** the search ends in each where it would have ended if it had
started at the head of that row. -/
theorem rtTimerSearch_eq [Fintype ι] (h : Rep k.timerList (rowRings L rows))
    (hupper : ∀ r, r + 1 < L → (rows r).Sublist (rows (r + 1)))
    (hdown : ∀ r < L, Down (passes k t) (rows r)) (n : Nat) :
    ∀ (r : Nat) (row : RowNode ι), r + n = L →
      (0 < n → ∃ xs ys, row = lastIn r xs ∧ rows r = xs ++ ys ∧
        (rows r).takeWhile (passes k t) = xs ++ ys.takeWhile (passes k t)) →
      rtTimerSearch k t n r row = some ((List.range' r n).map (rowHead k rows t)) := by
  induction n with
  | zero => exact fun _ _ _ _ => rfl
  | succ n ih =>
    intro r row hrn hrow
    obtain ⟨xs, ys, rfl, hcut, hpassed⟩ := hrow (Nat.succ_pos n)
    have hlen : ys.length < Fintype.card ι + 1 := by
      have hle := (nodup_row h r).length_le_card
      rw [hcut, List.length_append] at hle
      omega
    have hsearch := rtTimerSearchRow_eq h (by omega : r < L) t _ xs ys hcut hlen
    rw [← hpassed] at hsearch
    have hrest := ih (r + 1) (below (rowHead k rows t r)) (by omega) fun hn => by
      have hr : r + 1 < L := by omega
      obtain ⟨front, back, hback, hlast, htake⟩ := (hdown (r + 1) hr).resume (hupper r hr)
      exact ⟨front, back, below_lastIn hlast, hback, htake⟩
    rw [rtTimerSearch, hsearch, List.range'_succ, List.map_cons]
    show (rtTimerSearch k t n (r + 1) (below (rowHead k rows t r))).bind _ = _
    rw [hrest]
    rfl

/-! ## The insertion -/

/-- The rows when `t` has been put into row `d` and those below it. -/
def raised (L : Nat) (p : ι → Bool) (t : ι) (rows : Nat → List ι) (d : Nat) : Nat → List ι :=
  fun r => if d ≤ r ∧ r < L then place p t (rows r) else rows r

section
omit [DecidableEq ι]

theorem raised_of_lt {p : ι → Bool} {d : Nat} (hr : r < d) : raised L p t rows d r = rows r :=
  if_neg (by omega)

theorem raised_of_le {p : ι → Bool} {d : Nat} (hd : d ≤ r) (hr : r < L) :
    raised L p t rows d r = place p t (rows r) :=
  if_pos ⟨hd, hr⟩

end

/-- One row further up. -/
theorem insert_raised {n : Nat} (h : Rep l (rowRings L (raised L (passes k t) t rows (n + 1))))
    (hn : n < L) (ht : t ∉ rows n) :
    ∃ l', rtListInsertAfter l (rowHead k rows t n) (.item (t, n)) = some l' ∧
      Rep l' (rowRings L (raised L (passes k t) t rows n)) := by
  have hrow : raised L (passes k t) t rows (n + 1) n = rows n := raised_of_lt (Nat.lt_succ_self n)
  have hcut : (rowRings L (raised L (passes k t) t rows (n + 1))).seq n =
      ((rows n).takeWhile (passes k t)).map (fun t => (t, n)) ++
        ((rows n).dropWhile (passes k t)).map (fun t => (t, n)) := by
    rw [← List.map_append, List.takeWhile_append_dropWhile, ← hrow]
    rfl
  have hlive : (rowRings L (raised L (passes k t) t rows (n + 1))).live (.item (t, n)) = true :=
    rowRings_live_item.mpr hn
  have hhead : (rowRings L (raised L (passes k t) t rows (n + 1))).live (.head n) = true :=
    rowRings_live_head.mpr hn
  have hinsert := rtListInsertAfter_rep h hcut (rowRings_free.mpr (by rw [hrow]; exact ht)) hhead
  rw [insertAt, if_pos hhead, Rings.mark_of_live hlive] at hinsert
  obtain ⟨l', hl', h'⟩ := Lockstep.exists_of_right hinsert rfl
  refine ⟨l', hl', ?_⟩
  have hplace : ((rows n).takeWhile (passes k t)).map (fun t => (t, n)) ++
      (t, n) :: ((rows n).dropWhile (passes k t)).map (fun t => (t, n)) =
        (place (passes k t) t (rows n)).map fun t => (t, n) := by
    simp [place]
  rw [hplace, rowRings_setSeq] at h'
  convert h' using 2
  funext r
  by_cases hr : r = n
  · subst hr
    simp [raised_of_le (Nat.le_refl r) hn]
  · have hiff : n ≤ r ↔ n + 1 ≤ r := by omega
    simp [raised, hr, hiff]

/-- Whatever the bits of `tst_nr`, the timer ends up in some row and those below it. -/
theorem rtTimerRaise_rep {heads : List (RowNode ι)} (ht : ∀ r < L, t ∉ rows r)
    (hheads : ∀ r < L, heads[r]? = some (rowHead k rows t r)) (mask : BitVec 32) (n : Nat) :
    ∀ (tstNr : BitVec 32) (l : RowLinks ι), n ≤ L →
      Rep l (rowRings L (raised L (passes k t) t rows n)) →
      ∃ d l', d ≤ n ∧ rtTimerRaise mask heads t n tstNr l = some l' ∧
        Rep l' (rowRings L (raised L (passes k t) t rows d)) := by
  induction n with
  | zero => exact fun _ l _ h => ⟨0, l, Nat.le_refl 0, rfl, h⟩
  | succ n ih =>
    intro tstNr l hn h
    rw [rtTimerRaise]
    split
    · obtain ⟨l₁, hl₁, h₁⟩ := insert_raised h hn (ht n hn)
      obtain ⟨d, l', hd, hl', h'⟩ :=
        ih (tstNr >>> ((mask + 1) >>> 1)) l₁ (Nat.le_of_succ_le hn) h₁
      refine ⟨d, l', Nat.le_succ_of_le hd, ?_, h'⟩
      rw [hheads n hn]
      simp only [Option.bind_eq_bind, Option.bind_some, hl₁, hl']
    · exact ⟨n + 1, l, Nat.le_refl _, rfl, h⟩

section
omit [DecidableEq ι]

/-- The rows are nested still. -/
theorem raised_upper {p : ι → Bool} {d : Nat} (hdown : ∀ r < L, Down p (rows r))
    (hupper : ∀ r, r + 1 < L → (rows r).Sublist (rows (r + 1))) (hr : r + 1 < L) :
    (raised L p t rows d r).Sublist (raised L p t rows d (r + 1)) := by
  have hsub := hupper r hr
  by_cases hd : d ≤ r
  · rw [raised_of_le hd (Nat.lt_of_succ_lt hr), raised_of_le (Nat.le_succ_of_le hd) hr]
    exact (hdown (r + 1) hr).place_sublist hsub
  · rw [raised_of_lt (Nat.lt_of_not_le hd)]
    by_cases hd' : d ≤ r + 1
    · rw [raised_of_le hd' hr]
      exact hsub.trans (sublist_place p t _)
    · rw [raised_of_lt (Nat.lt_of_not_le hd')]
      exact hsub

end

/-! ## Rows and the single list -/

/-- The rows `rows` of `k`, each within the row below it, the bottom row being the list
of `a`. -/
structure Rows (L : Nat) (k : TimerSys ι γ (RowLinks ι)) (a : TimerSys ι γ (TimerRings ι))
    (rows : Nat → List ι) : Prop where
  rep : Rep k.timerList (rowRings L rows)
  bottom : rows (L - 1) = a.queue
  upper : ∀ r, r + 1 < L → (rows r).Sublist (rows (r + 1))
  rtTick : k.rtTick = a.rtTick
  timer : k.timer = a.timer

namespace Rows
variable {a : TimerSys ι γ (TimerRings ι)}

theorem setTimer (h : Rows L k a rows) (t : ι) (r : RtTimer γ) :
    Rows L (k.setTimer t r) (a.setTimer t r) rows where
  rep := h.rep
  bottom := h.bottom
  upper := h.upper
  rtTick := h.rtTick
  timer := by rw [TimerSys.setTimer_timer, TimerSys.setTimer_timer, h.timer]

theorem deactivate (h : Rows L k a rows) (t : ι) :
    Rows L (k.deactivate t) (a.deactivate t) rows := by
  rw [TimerSys.deactivate, TimerSys.deactivate, h.timer]
  exact h.setTimer t _

theorem arm (h : Rows L k a rows) (t : ι) :
    Rows L (rtTimerStartArm k t) (rtTimerStartArm a t) rows := by
  rw [rtTimerStartArm, rtTimerStartArm, h.timer, h.rtTick]
  exact h.setTimer t _

theorem setTick (h : Rows L k a rows) (n : Tick) :
    Rows L { k with rtTick := n } { a with rtTick := n } rows where
  rep := h.rep
  bottom := h.bottom
  upper := h.upper
  rtTick := rfl
  timer := h.timer

theorem sublist_queue (h : Rows L k a rows) (n : Nat) :
    ∀ {r : Nat}, r + n + 1 = L → (rows r).Sublist a.queue := by
  induction n with
  | zero =>
    intro r hr
    rw [← h.bottom, ← hr]
    exact List.Sublist.refl _
  | succ n ih =>
    intro r hr
    exact (h.upper r (by omega)).trans (ih (by omega))

theorem sublist (h : Rows L k a rows) (hr : r < L) : (rows r).Sublist a.queue :=
  h.sublist_queue (L - 1 - r) (by omega)

theorem remove (h : Rows L k a rows) (t : ι) :
    ∃ k', rtTimerRemove L k t = some k' ∧
      Rows L k' { a with timerList := a.timerList.erase t } fun r => (rows r).erase t := by
  obtain ⟨l, hl, hrep⟩ := remove_rows h.rep t (Nat.le_refl L)
  have hrows : (fun r => if r < L then (rows r).erase t else rows r) =
      fun r => (rows r).erase t := by
    funext r
    split
    · rfl
    · rename_i hr
      have hnil : rows r = [] := by
        by_contra hne
        exact hr (rowRings_live_head.mp (h.rep.valid.head_live (by simpa [rowRings] using hne)))
      rw [hnil, List.erase_nil]
  rw [hrows] at hrep
  refine ⟨{ k with timerList := l }, by rw [rtTimerRemove, hl]; rfl, hrep, ?_, ?_, h.rtTick,
    h.timer⟩
  · show (rows (L - 1)).erase t = a.queue.erase t
    rw [h.bottom]
  · exact fun r hr => (h.upper r hr).erase t

/-- The second half of a start, of a timer on no row. -/
theorem link [Fintype ι] (h : Rows L k a rows) (hL : 0 < L) (ht : t ∉ a.queue)
    (hdown : Down (passes k t) a.queue) (mask : BitVec 32) :
    ∃ k' rows', rtTimerStartLink L mask k t = some k' ∧
      Rows L k' (TimerSys.setTimer { a with
          randomNr := a.randomNr + 1
          timerList := a.timerList.setSeq .rtTimerList (place (passes k t) t a.queue) }
        t (a.timer t).activate) rows' := by
  have hdowns : ∀ r < L, Down (passes k t) (rows r) := fun r hr => hdown.sublist (h.sublist hr)
  have hnot : ∀ r < L, t ∉ rows r := fun r hr hmem => ht ((h.sublist hr).subset hmem)
  have hsearch := rtTimerSearch_eq h.rep h.upper hdowns L 0 (.head 0) (Nat.zero_add L)
    fun _ => ⟨[], rows 0, rfl, rfl, rfl⟩
  have hheads : ∀ r < L, ((List.range' 0 L).map (rowHead k rows t))[r]? =
      some (rowHead k rows t r) := by
    intro r hr
    simp [hr]
  have hstart : raised L (passes k t) t rows L = rows := by
    funext r
    exact if_neg (by omega)
  have hbottom : Rep k.timerList (rowRings L (raised L (passes k t) t rows (L - 1 + 1))) := by
    rw [Nat.sub_add_cancel hL, hstart]
    exact h.rep
  obtain ⟨l₁, hl₁, h₁⟩ := insert_raised hbottom (by omega) (hnot _ (by omega))
  obtain ⟨d, l₂, hd, hl₂, h₂⟩ := rtTimerRaise_rep hnot hheads mask (L - 1) (k.randomNr + 1) l₁
    (Nat.sub_le L 1) h₁
  refine ⟨TimerSys.setTimer { k with randomNr := k.randomNr + 1, timerList := l₂ } t
    (k.timer t).activate, raised L (passes k t) t rows d, ?_, ?_⟩
  · rw [rtTimerStartLink, hsearch]
    simp only [Option.bind_eq_bind, Option.bind_some, hheads (L - 1) (by omega), hl₁, hl₂,
      Option.pure_def]
  · have hact : (k.timer t).activate = (a.timer t).activate := by rw [h.timer]
    rw [hact]
    refine Rows.setTimer (k := { k with randomNr := k.randomNr + 1, timerList := l₂ }) ?_ t _
    refine ⟨h₂, ?_, fun r hr => raised_upper (r := r) hdowns h.upper hr, h.rtTick, h.timer⟩
    rw [raised_of_le hd (by omega), h.bottom]
    simp [TimerSys.queue]

end Rows

end SkipList

end SampleRtos
