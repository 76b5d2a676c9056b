import SampleRtos.Lib.Ring
import SampleRtos.Lib.Lockstep
import Mathlib.Data.List.TakeWhile

/-!
# rtservice.h: the kernel's linked lists

The `rt_list_*` functions on nullable links, write by write in the order of
the source (a dereferenced null link is `none`), and what they do to the
sequences the links stand for.
-/

namespace SampleRtos

open Intrusive

section RtList
variable {ν : Type} [DecidableEq ν]

/-- `l->next = l->prev = l`. -/
def rtListInit (m : Links ν) (l : ν) : Links ν :=
  (m.setPrev l l).setNext l l

def rtListInsertBefore (m : Links ν) (l n : ν) : Option (Links ν) := do
  let p ← m.prev l
  let m := m.setNext p n
  let p ← m.prev l
  let m := m.setPrev n p
  let m := m.setPrev l n
  return m.setNext n l

def rtListInsertAfter (m : Links ν) (l n : ν) : Option (Links ν) := do
  let s ← m.next l
  let m := m.setPrev s n
  let s ← m.next l
  let m := m.setNext n s
  let m := m.setNext l n
  return m.setPrev n l

def rtListRemove (m : Links ν) (n : ν) : Option (Links ν) := do
  let s ← m.next n
  let p ← m.prev n
  let m := m.setPrev s p
  let p ← m.prev n
  let s ← m.next n
  let m := m.setNext p s
  return (m.setPrev n n).setNext n n

/-- `l->next == l`: an uninitialised head, whose `next` is null, is not empty. -/
def rtListIsempty (m : Links ν) (l : ν) : Bool :=
  m.next l = some l

theorem rtListInit_eq (m : Links ν) (l : ν) : rtListInit m l = m.selfLink l := rfl

/-- What the four writes of an insertion leave, the inserted node being any. -/
theorem rtListInsertBefore_writes {m : Links ν} {p n l : ν} (hp : m.prev l = some p) :
    rtListInsertBefore m l n = some
      { next := Function.update (Function.update m.next p (some n)) n (some l)
        prev := Function.update (Function.update m.prev n (some p)) l (some n) } := by
  simp only [rtListInsertBefore, hp, Links.setNext, Links.setPrev, Option.bind_eq_bind,
    Option.bind_some, Option.pure_def]

theorem rtListInsertBefore_eq {m : Links ν} {p n l : ν} (hp : m.prev l = some p)
    (hpn : p ≠ n) : rtListInsertBefore m l n = some (m.splice p n l) := by
  rw [rtListInsertBefore_writes hp, Function.update_comm hpn]
  rfl

theorem rtListInsertAfter_eq {m : Links ν} {l n q : ν} (hq : m.next l = some q)
    (hqn : q ≠ n) : rtListInsertAfter m l n = some (m.splice l n q) := by
  simp only [rtListInsertAfter, hq, Links.setNext, Links.setPrev, Links.splice,
    Option.bind_eq_bind, Option.bind_some, Option.pure_def]
  rw [Function.update_comm hqn]

theorem rtListRemove_eq {m : Links ν} {p n q : ν} (hq : m.next n = some q)
    (hp : m.prev n = some p) : rtListRemove m n = some (m.unlink p n q) := by
  have hp' : Function.update m.prev q (some p) n = some p := by
    simp only [Function.update_apply, hp, ite_self]
  simp [rtListRemove, hq, hp, hp', Links.setPrev, Links.setNext, Links.unlink]

end RtList

/-! ## A node no other node leads to -/

/-- No node but `z` leads to `z`, whose own links are both `own`. -/
structure Apart {ν : Type} (m : Links ν) (z : ν) (own : Option ν) : Prop where
  own_next : m.next z = own
  own_prev : m.prev z = own
  next : ∀ n, n ≠ z → m.next n ≠ some z
  prev : ∀ n, n ≠ z → m.prev n ≠ some z

namespace Apart
variable {ν : Type} [DecidableEq ν] {m m' : Links ν} {z l n s : ν} {own : Option ν}

section
omit [DecidableEq ν]

theorem ne_next (h : Apart m z own) (hn : n ≠ z) (hs : m.next n = some s) : s ≠ z := by
  intro hsz
  exact h.next n hn (by rw [hs, hsz])

theorem ne_prev (h : Apart m z own) (hn : n ≠ z) (hs : m.prev n = some s) : s ≠ z := by
  intro hsz
  exact h.prev n hn (by rw [hs, hsz])

end

theorem setNext (h : Apart m z own) (hn : n ≠ z) (hs : s ≠ z) : Apart (m.setNext n s) z own where
  own_next := by
    show Function.update m.next n (some s) z = own
    rw [Function.update_of_ne hn.symm, h.own_next]
  own_prev := h.own_prev
  next x hx := by
    show Function.update m.next n (some s) x ≠ some z
    rw [Function.update_apply]
    split
    · exact fun heq => hs (Option.some.inj heq)
    · exact h.next x hx
  prev := h.prev

theorem setPrev (h : Apart m z own) (hn : n ≠ z) (hs : s ≠ z) : Apart (m.setPrev n s) z own where
  own_next := h.own_next
  own_prev := by
    show Function.update m.prev n (some s) z = own
    rw [Function.update_of_ne hn.symm, h.own_prev]
  next := h.next
  prev x hx := by
    show Function.update m.prev n (some s) x ≠ some z
    rw [Function.update_apply]
    split
    · exact fun heq => hs (Option.some.inj heq)
    · exact h.prev x hx

theorem init (h : Apart m z own) (hl : l ≠ z) : Apart (rtListInit m l) z own :=
  (h.setPrev hl hl).setNext hl hl

theorem insertBefore (h : Apart m z own) (hl : l ≠ z) (hn : n ≠ z)
    (hrun : rtListInsertBefore m l n = some m') : Apart m' z own := by
  obtain ⟨p, hp, hrun⟩ := Option.bind_eq_some_iff.mp hrun
  have h₁ : Apart (m.setNext p n) z own := h.setNext (h.ne_prev hl hp) hn
  obtain ⟨p', hp', hret⟩ := Option.bind_eq_some_iff.mp hrun
  cases hret
  exact ((h₁.setPrev hn (h₁.ne_prev hl hp')).setPrev hl hn).setNext hn hl

theorem insertAfter (h : Apart m z own) (hl : l ≠ z) (hn : n ≠ z)
    (hrun : rtListInsertAfter m l n = some m') : Apart m' z own := by
  obtain ⟨s, hs, hrun⟩ := Option.bind_eq_some_iff.mp hrun
  have h₁ : Apart (m.setPrev s n) z own := h.setPrev (h.ne_next hl hs) hn
  obtain ⟨s', hs', hret⟩ := Option.bind_eq_some_iff.mp hrun
  cases hret
  exact ((h₁.setNext hn (h₁.ne_next hl hs')).setNext hl hn).setPrev hn hl

theorem remove (h : Apart m z own) (hn : n ≠ z) (hrun : rtListRemove m n = some m') :
    Apart m' z own := by
  obtain ⟨s, hs, hrun⟩ := Option.bind_eq_some_iff.mp hrun
  obtain ⟨p, hp, hrun⟩ := Option.bind_eq_some_iff.mp hrun
  have h₁ : Apart (m.setPrev s p) z own := h.setPrev (h.ne_next hn hs) (h.ne_prev hn hp)
  obtain ⟨p', hp', hrun⟩ := Option.bind_eq_some_iff.mp hrun
  obtain ⟨s', hs', hret⟩ := Option.bind_eq_some_iff.mp hrun
  cases hret
  have h₂ : Apart ((m.setPrev s p).setNext p' s') z own :=
    h₁.setNext (h₁.ne_prev hn hp') (h₁.ne_next hn hs')
  exact (h₂.setPrev hn hn).setNext hn hn

/-- Inserting behind a null node dereferences its link. -/
theorem insertAfter_null (h : Apart m z none) : rtListInsertAfter m z n = none := by
  rw [rtListInsertAfter, h.own_next]
  rfl

/-- Taking off its list a node that is on none changes nothing. -/
theorem remove_own (h : Apart m z (some z)) : rtListRemove m z = some m := by
  rw [rtListRemove_eq h.own_next h.own_prev, Links.unlink_of_linked_self ⟨h.own_next, h.own_prev⟩]

theorem init_own (h : Apart m z (some z)) : Apart (rtListInit m z) z (some z) where
  own_next := by simp [rtListInit, Links.setNext]
  own_prev := by simp [rtListInit, Links.setNext, Links.setPrev]
  next n hn := by simpa [rtListInit, Links.setNext, Links.setPrev, hn] using h.next n hn
  prev n hn := by simpa [rtListInit, Links.setNext, Links.setPrev, hn] using h.prev n hn

end Apart

/-! ## A node that is led back to -/

/-- Whatever node leads to `z` is led back to from `z`. -/
structure Answered {ν : Type} (m : Links ν) (z : ν) : Prop where
  next : ∀ n, n ≠ z → m.next n = some z → m.prev z = some n
  prev : ∀ n, n ≠ z → m.prev n = some z → m.next z = some n
  self : m.next z = some z ↔ m.prev z = some z

namespace Answered
variable {ν : Type} [DecidableEq ν] {m m' : Links ν} {z l n : ν}

theorem init (h : Answered m z) (hl : l ≠ z) : Answered (rtListInit m l) z where
  next x hx hnext := by
    simp only [rtListInit, Links.setNext, Links.setPrev, Function.update_apply] at hnext ⊢
    grind [h.next x hx]
  prev x hx hprev := by
    simp only [rtListInit, Links.setNext, Links.setPrev, Function.update_apply] at hprev ⊢
    grind [h.prev x hx]
  self := by
    simp only [rtListInit, Links.setNext, Links.setPrev, Function.update_of_ne hl.symm, h.self]

theorem remove (h : Answered m z) (hn : n ≠ z) (hrun : rtListRemove m n = some m') :
    Answered m' z := by
  obtain ⟨q, hq, hrest⟩ := Option.bind_eq_some_iff.mp hrun
  obtain ⟨p, hp, -⟩ := Option.bind_eq_some_iff.mp hrest
  rw [rtListRemove_eq hq hp] at hrun
  cases hrun
  have hnext := h.next n hn
  have hprev := h.prev n hn
  have hself := h.self
  constructor
  · intro x hx hxz
    have := h.next x hx
    simp only [Links.unlink, Function.update_apply] at hxz ⊢
    grind
  · intro x hx hxz
    have := h.prev x hx
    simp only [Links.unlink, Function.update_apply] at hxz ⊢
    grind
  · simp only [Links.unlink, Function.update_apply]
    grind

theorem insertAfter (h : Answered m z) (hn : n ≠ z)
    (hrun : rtListInsertAfter m l n = some m') : Answered m' z := by
  obtain ⟨q, hq, hrest⟩ := Option.bind_eq_some_iff.mp hrun
  obtain ⟨q', hq', hret⟩ := Option.bind_eq_some_iff.mp hrest
  obtain rfl : q = q' := Option.some.inj (hq.symm.trans hq')
  cases hret
  clear hrest hrun hq'
  have hself := h.self
  -- what follows `l` now is led back to `l`, so no third node leads to it
  have hback : q = z → m.prev z = some l := by
    rintro rfl
    by_cases hl : l = q
    · subst hl
      exact hself.mp hq
    · exact h.next l hl hq
  constructor
  · intro x hx hxz
    have hold := h.next x hx
    simp only [Links.setNext, Links.setPrev, Function.update_apply] at hxz ⊢
    grind
  · intro x hx hxz
    have hold := h.prev x hx
    simp only [Links.setNext, Links.setPrev, Function.update_apply] at hxz ⊢
    grind
  · have hlz := h.next l
    simp only [Links.setNext, Links.setPrev, Function.update_apply]
    grind

/-- Taken off its list, it is led to by no other node. -/
theorem remove_own (h : Answered m z) (hrun : rtListRemove m z = some m') :
    Apart m' z (some z) := by
  obtain ⟨q, hq, hrest⟩ := Option.bind_eq_some_iff.mp hrun
  obtain ⟨p, hp, -⟩ := Option.bind_eq_some_iff.mp hrest
  rw [rtListRemove_eq hq hp] at hrun
  cases hrun
  have hself := h.self
  constructor
  · simp [Links.unlink]
  · simp [Links.unlink]
  · intro x hx hxz
    have := h.next x hx
    simp only [Links.unlink, Function.update_apply] at hxz
    grind
  · intro x hx hxz
    have := h.prev x hx
    simp only [Links.unlink, Function.update_apply] at hxz
    grind

section
omit [DecidableEq ν]

theorem of_apart (h : Apart m z (some z)) : Answered m z where
  next n hn hnz := absurd hnz (h.next n hn)
  prev n hn hnz := absurd hnz (h.prev n hn)
  self := iff_of_true h.own_next h.own_prev

end

end Answered

/-! ## The same operations on sequences -/

section Sequences
variable {H α : Type} [DecidableEq H] [DecidableEq α]

/-- Taking an item off its list; its node must have been initialised. -/
def remove (r : Rings H α) (a : α) : Option (Rings H α) :=
  if r.live (.item a) then some (r.erase a) else none

/-- Listing an item under `h` at a given cut; the head must have been initialised. -/
def insertAt (r : Rings H α) (h : H) (xs : List α) (a : α) (ys : List α) :
    Option (Rings H α) :=
  if r.live (.head h) then some ((r.mark (.item a)).setSeq h (xs ++ a :: ys)) else none

/-- Listing an item last under `h`. -/
def pushBack (r : Rings H α) (h : H) (a : α) : Option (Rings H α) :=
  insertAt r h (r.seq h) a []

/-- Listing an item first under `h`. -/
def pushFront (r : Rings H α) (h : H) (a : α) : Option (Rings H α) :=
  insertAt r h [] a (r.seq h)

/-- Listing an item under `h` before the first item it is to precede. -/
def insertOrdered (before : α → α → Prop) [DecidableRel before] (r : Rings H α) (h : H)
    (a : α) : Option (Rings H α) :=
  insertAt r h ((r.seq h).takeWhile fun b => ¬ before a b) a
    ((r.seq h).dropWhile fun b => ¬ before a b)

def isEmpty (r : Rings H α) (h : H) : Bool :=
  r.live (.head h) && (r.seq h).isEmpty

/-- An ordered insertion cuts the list behind everything `a` is not to precede. -/
theorem insertOrdered_spec {before : α → α → Prop} [DecidableRel before] {r r' : Rings H α}
    {h : H} {a : α} (hins : insertOrdered before r h a = some r') :
    r.live (.head h) = true ∧ ∃ xs ys, r.seq h = xs ++ ys ∧
      r' = (r.mark (.item a)).setSeq h (xs ++ a :: ys) ∧
      (∀ b ∈ xs, ¬ before a b) ∧ ∀ b ∈ ys.head?, before a b := by
  unfold insertOrdered insertAt at hins
  split at hins
  · rename_i hhead
    cases hins
    refine ⟨hhead, _, _, List.takeWhile_append_dropWhile.symm, rfl, fun b hb => ?_,
      fun b hb => ?_⟩
    · simpa using List.mem_takeWhile_imp hb
    · have hnot := List.head?_dropWhile_not (fun b => decide ¬ before a b) (r.seq h)
      rw [Option.mem_def.mp hb] at hnot
      simpa using hnot
  · cases hins

variable {m : Links (Node H α)} {r : Rings H α}

section
omit [DecidableEq H] [DecidableEq α]

/-- Following links from another node never meets `z`. -/
theorem Apart.not_mem_read {x : α} {own : Option (Node H α)}
    (h : Apart m (.item x) own) (fuel : Nat) : ∀ {n : Node H α}, n ≠ .item x →
      x ∉ m.read fuel n := by
  induction fuel with
  | zero => intro n _; simp [Links.read]
  | succ fuel ih =>
    intro n hn
    rw [Links.read]
    split
    · rename_i y hy
      have hyx : (.item y : Node H α) ≠ .item x := h.ne_next hn hy
      rw [List.mem_cons, not_or]
      exact ⟨fun hxy => hyx (by rw [hxy]), ih hyx⟩
    · simp

end

/-- An initialised item on no list is its own neighbour and no one else's. -/
theorem Apart.of_free (hr : Rep m r) {x : α} (hlive : r.live (.item x) = true) (hx : r.Free x) :
    Apart m (.item x) (some (.item x)) where
  own_next := (hr.free x hlive hx).1
  own_prev := (hr.free x hlive hx).2
  next n hn h := by
    rcases hr.leads (.inl h) with heq | ⟨hd, heq, -⟩ | ⟨hd, y, heq, hy⟩
    · exact hn heq.symm
    · cases heq
    · cases heq
      exact hx hd hy
  prev n hn h := by
    rcases hr.leads (.inr h) with heq | ⟨hd, heq, -⟩ | ⟨hd, y, heq, hy⟩
    · exact hn heq.symm
    · cases heq
    · cases heq
      exact hx hd hy

/-- On rings every node is led back to. -/
theorem Answered.of_rep (hr : Rep m r) (n : Node H α) : Answered m n where
  next _ _ h := hr.prev_of_next h
  prev _ _ h := hr.next_of_prev h
  self := ⟨hr.prev_of_next, hr.next_of_prev⟩

theorem rtListRemove_rep (hr : Rep m r) (a : α) :
    Option.Rel Rep (rtListRemove m (.item a)) (remove r a) := by
  unfold remove
  split
  · rename_i ha
    by_cases hf : r.Free a
    · have hself := hr.free a ha hf
      rw [rtListRemove_eq hself.1 hself.2, Rings.erase_of_free hf,
        Links.unlink_of_linked_self hself]
      exact .some hr
    · obtain ⟨h, hmem⟩ : ∃ h, a ∈ r.seq h := by simpa [Rings.Free] using hf
      obtain ⟨xs, ys, hs⟩ := List.append_of_mem hmem
      rw [rtListRemove_eq (hr.next_item hs) (hr.prev_item hs)]
      exact .some (hr.remove hs)
  · rename_i ha
    have hnull := hr.null (.item a) (by simpa using ha)
    simp only [rtListRemove, hnull.1, Option.bind_eq_bind, Option.bind_none]
    exact .none

theorem rtListInsertBefore_rep (hr : Rep m r) {h : H} {xs ys : List α} {a : α}
    (hs : r.seq h = xs ++ ys) (hf : r.Free a) (hh : r.live (.head h) = true) :
    Option.Rel Rep (rtListInsertBefore m (firstNode h ys) (.item a))
      (insertAt r h xs a ys) := by
  have ha : a ∉ xs := fun hx => hf h (by simp [hs, hx])
  rw [rtListInsertBefore_eq (hr.linked_cut hs hh).2 (Rep.lastNode_ne_item ha), insertAt, if_pos hh]
  exact .some (hr.insert hs hf hh)

theorem rtListInsertAfter_rep (hr : Rep m r) {h : H} {xs ys : List α} {a : α}
    (hs : r.seq h = xs ++ ys) (hf : r.Free a) (hh : r.live (.head h) = true) :
    Option.Rel Rep (rtListInsertAfter m (lastNode h xs) (.item a))
      (insertAt r h xs a ys) := by
  have ha : a ∉ ys := fun hy => hf h (by simp [hs, hy])
  rw [rtListInsertAfter_eq (hr.linked_cut hs hh).1 (Rep.firstNode_ne_item ha), insertAt, if_pos hh]
  exact .some (hr.insert hs hf hh)

/-- Inserting before the head appends. -/
theorem rtListInsertBefore_head (hr : Rep m r) (h : H) {a : α} (hf : r.Free a) :
    Option.Rel Rep (rtListInsertBefore m (.head h) (.item a)) (pushBack r h a) := by
  by_cases hh : r.live (.head h) = true
  · have hs : r.seq h = r.seq h ++ [] := (List.append_nil _).symm
    exact rtListInsertBefore_rep hr hs hf hh
  · have hnull := hr.null (.head h) (by simpa using hh)
    simp only [rtListInsertBefore, hnull.2, Option.bind_eq_bind, Option.bind_none, pushBack,
      insertAt, hh]
    exact .none

theorem rtListInsertAfter_head (hr : Rep m r) (h : H) {a : α} (hf : r.Free a) :
    Option.Rel Rep (rtListInsertAfter m (.head h) (.item a)) (pushFront r h a) := by
  by_cases hh : r.live (.head h) = true
  · have hs : r.seq h = [] ++ r.seq h := rfl
    exact rtListInsertAfter_rep hr hs hf hh
  · have hnull := hr.null (.head h) (by simpa using hh)
    simp only [rtListInsertAfter, hnull.1, Option.bind_eq_bind, Option.bind_none, pushFront,
      insertAt, hh]
    exact .none

/-- Inserting last what is listed already leaves no ring. -/
theorem rtListInsertBefore_listed (hr : Rep m r) {h : H} {a : α} (ha : a ∈ r.seq h) :
    ∃ m', rtListInsertBefore m (.head h) (.item a) = some m' ∧ ∀ s, ¬ Ring m' h s := by
  have hh : r.live (.head h) = true := hr.valid.head_live (List.ne_nil_of_mem ha)
  obtain ⟨xs, ys, hs⟩ := List.append_of_mem ha
  refine ⟨_, rtListInsertBefore_writes (hr.prev_head hh), fun s =>
    hr.not_ring_of_back_edge hs ?_ ?_ ?_ fun b hba => ?_⟩
  · simp
  · simp
  · simp
  · simp [hba]

theorem rtListIsempty_rep (hr : Rep m r) (h : H) :
    rtListIsempty m (.head h) = isEmpty r h := by
  by_cases hh : r.live (.head h) = true
  · rw [rtListIsempty, hr.next_head hh, isEmpty, hh]
    cases r.seq h <;> simp
  · have hnull := hr.null (.head h) (by simpa using hh)
    simp [rtListIsempty, hnull.1, isEmpty, hh]

/-- Initialising nodes that have no links yet. -/
theorem rtListInit_foldl_rep (nodes : List (Node H α)) :
    Rep (nodes.foldl rtListInit { next := fun _ => none, prev := fun _ => none })
      { seq := fun _ => [], live := fun n => decide (n ∈ nodes) } := by
  induction nodes using List.reverseRecOn with
  | nil => simpa using null_rep (H := H) (α := α)
  | append_singleton nodes n ih =>
    have hself := ih.selfLink (n := n) (by
      cases n with
      | head hd => exact .inl ⟨hd, rfl, rfl⟩
      | item a => exact .inr ⟨a, rfl, fun _ => List.not_mem_nil⟩)
    have hmark : (fun m => decide (m ∈ nodes ++ [n])) =
        Function.update (fun m => decide (m ∈ nodes)) n true := by
      funext m
      by_cases hm : m = n <;> simp [hm]
    rw [List.foldl_append, hmark]
    exact hself

end Sequences

end SampleRtos
