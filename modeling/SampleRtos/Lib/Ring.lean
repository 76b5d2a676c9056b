import Mathlib.Data.List.Chain
import Mathlib.Data.List.Nodup
import Mathlib.Logic.Function.Basic

/-!
# Intrusive rings

Circular doubly linked lists whose links live inside the listed objects, and
the sequences they stand for. A store of links gives each node a nullable
`next` and `prev`; a ring is a head node followed by the items reached from it.
`Rep l r` says that the links `l` are exactly the sequences `r`: one ring for
each live head, a self-linked node for each live item on no list, null links
for everything else. Two surgeries, `splice` and `unlink`, are proved to insert
into and to remove from one sequence and to leave every other one alone.
-/

namespace Intrusive

/-! ## Links -/

/-- Nullable forward and backward links over the nodes `ν`. -/
structure Links (ν : Type) where
  next : ν → Option ν
  prev : ν → Option ν

namespace Links
variable {ν : Type}

/-- `y` follows `x`, seen from both ends. -/
def Linked (l : Links ν) (x y : ν) : Prop :=
  l.next x = some y ∧ l.prev y = some x

variable [DecidableEq ν]

def setNext (l : Links ν) (x y : ν) : Links ν :=
  { l with next := Function.update l.next x (some y) }

def setPrev (l : Links ν) (x y : ν) : Links ν :=
  { l with prev := Function.update l.prev x (some y) }

/-- The links after `n` was put between `p` and `q`. -/
def splice (l : Links ν) (p n q : ν) : Links ν where
  next := Function.update (Function.update l.next n (some q)) p (some n)
  prev := Function.update (Function.update l.prev n (some p)) q (some n)

/-- The links after `n` was taken out from between `p` and `q`. -/
def unlink (l : Links ν) (p n q : ν) : Links ν where
  next := Function.update (Function.update l.next p (some q)) n (some n)
  prev := Function.update (Function.update l.prev q (some p)) n (some n)

/-- The links after `n` was linked to itself. -/
def selfLink (l : Links ν) (n : ν) : Links ν where
  next := Function.update l.next n (some n)
  prev := Function.update l.prev n (some n)

theorem selfLink_linked (l : Links ν) (n : ν) : (l.selfLink n).Linked n n := by
  simp [Linked, selfLink]

theorem selfLink_of_ne {l : Links ν} {n x y : ν} (h : l.Linked x y)
    (hx : x ≠ n) (hy : y ≠ n) : (l.selfLink n).Linked x y := by
  simpa [Linked, selfLink, hx, hy] using h

theorem splice_of_ne {l : Links ν} {p n q x y : ν} (h : l.Linked x y)
    (hxp : x ≠ p) (hxn : x ≠ n) (hyq : y ≠ q) (hyn : y ≠ n) :
    (l.splice p n q).Linked x y := by
  simpa [Linked, splice, hxp, hxn, hyq, hyn] using h

theorem unlink_of_ne {l : Links ν} {p n q x y : ν} (h : l.Linked x y)
    (hxp : x ≠ p) (hxn : x ≠ n) (hyq : y ≠ q) (hyn : y ≠ n) :
    (l.unlink p n q).Linked x y := by
  simpa [Linked, unlink, hxp, hxn, hyq, hyn] using h

theorem splice_left {l : Links ν} {p n q : ν} (hq : q ≠ n) :
    (l.splice p n q).Linked p n := by
  simp [Linked, splice, Function.update_of_ne hq.symm]

theorem splice_right {l : Links ν} {p n q : ν} (hp : p ≠ n) :
    (l.splice p n q).Linked n q := by
  simp [Linked, splice, Function.update_of_ne hp.symm]

theorem unlink_across {l : Links ν} {p n q : ν} (hp : p ≠ n) (hq : q ≠ n) :
    (l.unlink p n q).Linked p q := by
  simp [Linked, unlink, hp, hq]

theorem unlink_self {l : Links ν} {p n q : ν} : (l.unlink p n q).Linked n n := by
  simp [Linked, unlink]

/-- A self-linked node is its own neighbour: unlinking it rewrites its own links. -/
theorem unlink_of_linked_self {l : Links ν} {n : ν} (h : l.Linked n n) :
    l.unlink n n n = l := by
  have hnext : Function.update l.next n (some n) = l.next := by
    rw [← h.1, Function.update_eq_self]
  have hprev : Function.update l.prev n (some n) = l.prev := by
    rw [← h.2, Function.update_eq_self]
  simp only [unlink, hnext, hprev]

end Links

/-- A chain survives a change of relation that keeps its adjacent pairs. -/
theorem isChain_relink {ν : Type} {R R' : ν → ν → Prop} {l : List ν} (hl : l.IsChain R)
    (h : ∀ x ∈ l.dropLast, ∀ y ∈ l.tail, R x y → R' x y) : l.IsChain R' := by
  induction l with
  | nil => exact .nil
  | cons a l ih =>
    cases l with
    | nil => exact .singleton a
    | cons b l =>
      obtain ⟨hab, hl⟩ := List.isChain_cons_cons.mp hl
      refine List.isChain_cons_cons.mpr ⟨h a (by simp) b (by simp) hab, ih hl ?_⟩
      intro x hx y hy
      exact h x (by simp [hx]) y (List.mem_of_mem_tail hy)

/-! ## Nodes and sequences -/

/-- A node is a list head or the link field of an item. -/
inductive Node (H α : Type) where
  | head (h : H)
  | item (a : α)
  deriving DecidableEq, Repr

/-- What the links stand for: the items listed under each head, and which
nodes have been initialised at all. -/
structure Rings (H α : Type) where
  seq : H → List α
  live : Node H α → Bool

variable {H α : Type}

/-- The nodes of a ring in forward order, the head at both ends. -/
def cycle (h : H) (s : List α) : List (Node H α) :=
  .head h :: (s.map .item ++ [.head h])

/-- The links form a ring: forward from `h` they visit `s` and return, and
backward they visit the same nodes in reverse. -/
def Ring (l : Links (Node H α)) (h : H) (s : List α) : Prop :=
  (cycle h s).IsChain l.Linked

/-- The last node of the head followed by `s`. -/
def lastNode (h : H) (s : List α) : Node H α :=
  (s.getLast?.map .item).getD (.head h)

/-- The first node of `s` followed by the head. -/
def firstNode (h : H) (s : List α) : Node H α :=
  (s.head?.map .item).getD (.head h)

@[simp] theorem lastNode_nil (h : H) : lastNode h ([] : List α) = .head h := rfl

@[simp] theorem lastNode_append (h : H) (s : List α) (a : α) :
    lastNode h (s ++ [a]) = .item a := by simp [lastNode]

@[simp] theorem firstNode_nil (h : H) : firstNode h ([] : List α) = .head h := rfl

@[simp] theorem firstNode_cons (h : H) (a : α) (s : List α) :
    firstNode h (a :: s) = .item a := rfl

theorem lastNode_cases (h : H) (s : List α) :
    lastNode h s = .head h ∨ ∃ a ∈ s, lastNode h s = .item a := by
  rcases s.eq_nil_or_concat with rfl | ⟨s, a, rfl⟩ <;> simp

theorem firstNode_cases (h : H) (s : List α) :
    firstNode h s = .head h ∨ ∃ a ∈ s, firstNode h s = .item a := by
  cases s <;> simp

/-- A ring cut in two: the part up to the cut, the part after it, and the link
across. -/
theorem ring_cut {l : Links (Node H α)} {h : H} {xs ys : List α} :
    Ring l h (xs ++ ys) ↔
      (.head h :: xs.map .item : List (Node H α)).IsChain l.Linked ∧
      (ys.map .item ++ [.head h] : List (Node H α)).IsChain l.Linked ∧
      l.Linked (lastNode h xs) (firstNode h ys) := by
  have hcut : cycle h (xs ++ ys) =
      (.head h :: xs.map .item) ++ (ys.map .item ++ [.head h]) := by
    simp [cycle]
  rw [Ring, hcut, List.isChain_append]
  have hlast : (.head h :: xs.map .item : List (Node H α)).getLast? =
      some (lastNode h xs) := by
    rcases xs.eq_nil_or_concat with rfl | ⟨xs, a, rfl⟩
    · rfl
    · rw [List.map_concat, List.concat_eq_append, List.concat_eq_append, lastNode_append,
        ← List.cons_append, List.getLast?_append]
      rfl
  have hfirst : (ys.map .item ++ [.head h] : List (Node H α)).head? =
      some (firstNode h ys) := by cases ys <;> simp
  simp [hlast, hfirst]

/-- Every later member of a chain has a member before it. -/
theorem exists_of_isChain {ν : Type} {R : ν → ν → Prop} {x n : ν} {l : List ν}
    (hl : (x :: l).IsChain R) (hn : n ∈ l) : ∃ p ∈ x :: l, R p n := by
  induction l generalizing x with
  | nil => cases hn
  | cons y l ih =>
    obtain ⟨hxy, hl⟩ := List.isChain_cons_cons.mp hl
    rcases List.mem_cons.mp hn with rfl | hn
    · exact ⟨x, by simp, hxy⟩
    · obtain ⟨p, hp, hpn⟩ := ih hl hn
      exact ⟨p, List.mem_cons_of_mem _ hp, hpn⟩

/-- A ring is closed under walking backward, and the walk forward undoes it. -/
theorem Ring.exists_prev {l : Links (Node H α)} {h : H} {s : List α} (hs : Ring l h s)
    {n : Node H α} (hn : n ∈ cycle h s) : ∃ p ∈ cycle h s, l.Linked p n := by
  refine exists_of_isChain hs ?_
  rcases List.mem_cons.mp hn with rfl | hn
  · simp
  · exact hn

/-- A ring determines its sequence: the links are functions, and the head
closes the walk. -/
theorem Ring.unique {l : Links (Node H α)} {h : H} {s t : List α}
    (hs : Ring l h s) (ht : Ring l h t) : s = t := by
  suffices hgen : ∀ (n : Node H α) (s t : List α),
      (n :: (s.map .item ++ [.head h])).IsChain l.Linked →
      (n :: (t.map .item ++ [.head h])).IsChain l.Linked → s = t from
    hgen _ s t hs ht
  intro n s
  induction s generalizing n with
  | nil =>
    intro t hs ht
    cases t with
    | nil => rfl
    | cons b t =>
      have hs := (List.isChain_cons_cons.mp hs).1.1
      have ht := (List.isChain_cons_cons.mp ht).1.1
      simp [hs] at ht
  | cons a s ih =>
    intro t hs ht
    cases t with
    | nil =>
      have hs := (List.isChain_cons_cons.mp hs).1.1
      have ht := (List.isChain_cons_cons.mp ht).1.1
      simp [hs] at ht
    | cons b t =>
      obtain ⟨ha, hs⟩ := List.isChain_cons_cons.mp hs
      obtain ⟨hb, ht⟩ := List.isChain_cons_cons.mp ht
      have hab : a = b := by simpa [ha.1] using hb.1
      subst hab
      rw [ih (.item a) t hs ht]

/-! ## Rings of sequences -/

namespace Rings
variable [DecidableEq H] [DecidableEq α]

/-- `a` is on no list. -/
def Free (r : Rings H α) (a : α) : Prop := ∀ h, a ∉ r.seq h

def setSeq (r : Rings H α) (h : H) (s : List α) : Rings H α :=
  { r with seq := Function.update r.seq h s }

def mark (r : Rings H α) (n : Node H α) : Rings H α :=
  { r with live := Function.update r.live n true }

/-- `a` taken off whatever list it is on. -/
def erase (r : Rings H α) (a : α) : Rings H α :=
  { r with seq := fun h => (r.seq h).erase a }

section
omit [DecidableEq α]

@[simp] theorem setSeq_live (r : Rings H α) (h : H) (s : List α) :
    (r.setSeq h s).live = r.live := rfl

end

@[simp] theorem mark_seq (r : Rings H α) (n : Node H α) : (r.mark n).seq = r.seq := rfl

section
omit [DecidableEq H]

@[simp] theorem erase_live (r : Rings H α) (a : α) : (r.erase a).live = r.live := rfl

@[simp] theorem erase_seq (r : Rings H α) (a : α) (h : H) :
    (r.erase a).seq h = (r.seq h).erase a := rfl

theorem mem_of_mem_erase {r : Rings H α} {a b : α} {h : H} (hb : b ∈ (r.erase a).seq h) :
    b ∈ r.seq h :=
  List.mem_of_mem_erase hb

/-- Taking off the item that stands first. -/
theorem erase_seq_head {r : Rings H α} {h : H} {a : α} {s : List α} (hs : r.seq h = a :: s) :
    (r.erase a).seq h = s := by
  rw [erase_seq, hs, List.erase_cons_head]

theorem erase_seq_of_not_mem {r : Rings H α} {h : H} {a : α} (ha : a ∉ r.seq h) :
    (r.erase a).seq h = r.seq h :=
  List.erase_of_not_mem ha

/-- Taking off an item of a list of images. -/
theorem erase_seq_map {β : Type} [DecidableEq β] {r : Rings H α} {h : H} {f : β → α}
    (hf : Function.Injective f) {s : List β} (hs : r.seq h = s.map f) (b : β) :
    (r.erase (f b)).seq h = (s.erase b).map f := by
  rw [erase_seq, hs, List.map_erase hf]

end

section
omit [DecidableEq α]

@[simp] theorem setSeq_seq_self (r : Rings H α) (h : H) (s : List α) :
    (r.setSeq h s).seq h = s := by simp [setSeq]

theorem setSeq_seq_of_ne (r : Rings H α) {h h' : H} (s : List α) (hne : h' ≠ h) :
    (r.setSeq h s).seq h' = r.seq h' := by simp [setSeq, hne]

theorem setSeq_seq (r : Rings H α) (h h' : H) (s : List α) :
    (r.setSeq h s).seq h' = if h' = h then s else r.seq h' := by
  simp [setSeq, Function.update_apply]

end

theorem mark_live_mono {r : Rings H α} {n m : Node H α} (hm : r.live m = true) :
    (r.mark n).live m = true := by
  simp only [mark, Function.update_apply]
  split
  · rfl
  · exact hm

theorem mark_of_live {r : Rings H α} {n : Node H α} (hn : r.live n = true) :
    r.mark n = r := by
  simp only [mark, ← hn, Function.update_eq_self]

/-- The sequences are lists an intrusive store can hold: no item twice, no
item on two lists, nothing listed that was never initialised. -/
structure Valid (r : Rings H α) : Prop where
  nodup : ∀ h, (r.seq h).Nodup
  disjoint : ∀ {a h h'}, a ∈ r.seq h → a ∈ r.seq h' → h = h'
  item_live : ∀ {a h}, a ∈ r.seq h → r.live (.item a) = true
  head_live : ∀ {h}, r.seq h ≠ [] → r.live (.head h) = true

section
omit [DecidableEq H]

theorem Valid.erase {r : Rings H α} (hv : r.Valid) (a : α) : (r.erase a).Valid where
  nodup h := (hv.nodup h).erase a
  disjoint hb hb' := hv.disjoint (List.mem_of_mem_erase hb) (List.mem_of_mem_erase hb')
  item_live hb := hv.item_live (List.mem_of_mem_erase hb)
  head_live {h} hne := hv.head_live fun he => hne (by simp [he])

theorem Valid.erase_free {r : Rings H α} (hv : r.Valid) (a : α) : (r.erase a).Free a :=
  fun h => (hv.nodup h).not_mem_erase

theorem erase_of_free {r : Rings H α} {a : α} (hf : r.Free a) : r.erase a = r := by
  simp only [erase, List.erase_of_not_mem (hf _)]

end

/-- Taking an item off the list it is known to be on. -/
theorem Valid.erase_eq_setSeq {r : Rings H α} (hv : r.Valid) {h : H} {a : α}
    (ha : a ∈ r.seq h) : r.erase a = r.setSeq h ((r.seq h).erase a) := by
  have hother : ∀ h', h' ≠ h → (r.seq h').erase a = r.seq h' := fun h' hne =>
    List.erase_of_not_mem fun ha' => hne (hv.disjoint ha' ha)
  have hseq : (r.erase a).seq = (r.setSeq h ((r.seq h).erase a)).seq := by
    funext h'
    rw [setSeq_seq, erase_seq]
    split
    · rename_i hh; rw [hh]
    · rename_i hh; exact hother h' hh
  exact congrArg (fun s => Rings.mk s r.live) hseq

section
omit [DecidableEq α]

/-- A list may be changed by putting a free, initialised item anywhere in it. -/
theorem Valid.insert {r : Rings H α} (hv : r.Valid) {h : H} {xs ys : List α} {a : α}
    (hs : r.seq h = xs ++ ys) (hf : r.Free a) (ha : r.live (.item a) = true)
    (hh : r.live (.head h) = true) : (r.setSeq h (xs ++ a :: ys)).Valid := by
  have hmem : ∀ {b h'}, b ∈ (r.setSeq h (xs ++ a :: ys)).seq h' →
      (b = a ∧ h' = h) ∨ b ∈ r.seq h' := by
    intro b h' hb
    rw [setSeq_seq] at hb
    split at hb
    · rename_i heq
      subst heq
      rw [hs]
      simp only [List.mem_append, List.mem_cons] at hb ⊢
      tauto
    · exact .inr hb
  constructor
  · intro h'
    rw [setSeq_seq]
    split
    · have hnd := hv.nodup h
      rw [hs] at hnd
      have hna := hf h
      rw [hs] at hna
      exact (List.nodup_middle).mpr (List.nodup_cons.mpr ⟨hna, hnd⟩)
    · exact hv.nodup h'
  · intro b h₁ h₂ hb₁ hb₂
    rcases hmem hb₁ with ⟨hba, heq₁⟩ | hold₁ <;> rcases hmem hb₂ with ⟨hba', heq₂⟩ | hold₂
    · rw [heq₁, heq₂]
    · exact absurd (hba ▸ hold₂) (hf h₂)
    · exact absurd (hba' ▸ hold₁) (hf h₁)
    · exact hv.disjoint hold₁ hold₂
  · intro b h' hb
    rcases hmem hb with ⟨rfl, -⟩ | hb
    · exact ha
    · exact hv.item_live hb
  · intro h' hne
    by_cases hh' : h' = h
    · exact hh' ▸ hh
    · exact hv.head_live (by rwa [setSeq_seq_of_ne _ _ hh'] at hne)

end

theorem Valid.mark {r : Rings H α} (hv : r.Valid) (n : Node H α) : (r.mark n).Valid where
  nodup := hv.nodup
  disjoint := hv.disjoint
  item_live ha := mark_live_mono (hv.item_live ha)
  head_live hne := mark_live_mono (hv.head_live hne)

end Rings

/-! ## Representation -/

/-- The links `l` are the sequences `r`. -/
structure Rep [DecidableEq H] [DecidableEq α] (l : Links (Node H α)) (r : Rings H α) :
    Prop where
  valid : r.Valid
  ring : ∀ h, r.live (.head h) = true → Ring l h (r.seq h)
  free : ∀ a, r.live (.item a) = true → r.Free a → l.Linked (.item a) (.item a)
  null : ∀ n, r.live n = false → l.next n = none ∧ l.prev n = none

namespace Rep
variable [DecidableEq H] [DecidableEq α] {l : Links (Node H α)} {r : Rings H α}

/-- The two nodes at a cut of a ring are linked. -/
theorem linked_cut (hr : Rep l r) {h : H} {xs ys : List α} (hs : r.seq h = xs ++ ys)
    (hh : r.live (.head h) = true) : l.Linked (lastNode h xs) (firstNode h ys) :=
  (ring_cut.mp (hs ▸ hr.ring h hh)).2.2

theorem next_head (hr : Rep l r) {h : H} (hh : r.live (.head h) = true) :
    l.next (.head h) = some (firstNode h (r.seq h)) := by
  have hs : r.seq h = [] ++ r.seq h := rfl
  exact (hr.linked_cut hs hh).1

theorem prev_head (hr : Rep l r) {h : H} (hh : r.live (.head h) = true) :
    l.prev (.head h) = some (lastNode h (r.seq h)) := by
  have hs : r.seq h = r.seq h ++ [] := (List.append_nil _).symm
  exact (hr.linked_cut hs hh).2

theorem next_item (hr : Rep l r) {h : H} {xs ys : List α} {a : α}
    (hs : r.seq h = xs ++ a :: ys) : l.next (.item a) = some (firstNode h ys) := by
  have hh : r.live (.head h) = true := hr.valid.head_live (by simp [hs])
  have hs' : r.seq h = (xs ++ [a]) ++ ys := by simp [hs]
  simpa using (hr.linked_cut hs' hh).1

theorem prev_item (hr : Rep l r) {h : H} {xs ys : List α} {a : α}
    (hs : r.seq h = xs ++ a :: ys) : l.prev (.item a) = some (lastNode h xs) := by
  have hh : r.live (.head h) = true := hr.valid.head_live (by simp [hs])
  simpa using (hr.linked_cut hs hh).2

section
omit [DecidableEq H] [DecidableEq α]

/-- A node outside a ring may be relinked without the ring noticing. -/
theorem ring_frame {l l' : Links (Node H α)} {h : H} {s : List α} (hring : Ring l h s)
    (hframe : ∀ x ∈ cycle h s, ∀ y ∈ cycle h s, l.Linked x y → l'.Linked x y) :
    Ring l' h s :=
  isChain_relink hring fun x hx y hy =>
    hframe x (List.dropLast_subset _ hx) y (List.mem_of_mem_tail hy)

theorem mem_cycle {h : H} {s : List α} {n : Node H α} :
    n ∈ cycle h s ↔ n = .head h ∨ ∃ a ∈ s, n = .item a := by
  simp only [cycle, List.mem_cons, List.mem_append, List.mem_map, List.not_mem_nil, or_false]
  constructor
  · rintro (rfl | ⟨a, ha, rfl⟩ | rfl) <;> simp_all
  · rintro (rfl | ⟨a, ha, rfl⟩) <;> simp_all

theorem lastNode_not_mem_dropLast {h : H} {xs : List α} (hnd : xs.Nodup) :
    lastNode h xs ∉ (.head h :: xs.map .item : List (Node H α)).dropLast := by
  rcases xs.eq_nil_or_concat with rfl | ⟨xs, b, rfl⟩
  · simp
  · rw [List.concat_eq_append] at hnd ⊢
    have hb : b ∉ xs := fun hb =>
      (List.nodup_append.mp hnd).2.2 b hb b (by simp) rfl
    rw [lastNode_append, List.map_append, List.map_singleton, ← List.cons_append,
      List.dropLast_concat]
    simpa using hb

theorem firstNode_not_mem_tail {h : H} {ys : List α} (hnd : ys.Nodup) :
    firstNode h ys ∉ (ys.map .item ++ [.head h] : List (Node H α)).tail := by
  cases ys with
  | nil => simp
  | cons b ys => simpa using (List.nodup_cons.mp hnd).1

theorem lastNode_ne_item {h : H} {xs : List α} {a : α} (ha : a ∉ xs) :
    lastNode h xs ≠ .item a := by
  rcases lastNode_cases h xs with he | ⟨b, hb, he⟩ <;> rw [he]
  · simp
  · rintro ⟨⟩; exact ha hb

/-- A list without repetition ends elsewhere than any of its proper prefixes. -/
theorem lastNode_ne_append {h : H} {xs ys : List α} (hnd : (xs ++ ys).Nodup) (hys : ys ≠ []) :
    lastNode h xs ≠ lastNode h (xs ++ ys) := by
  obtain ⟨zs, z, rfl⟩ : ∃ zs z, ys = zs ++ [z] :=
    ⟨_, _, (List.dropLast_append_getLast hys).symm⟩
  rw [← List.append_assoc, lastNode_append]
  refine lastNode_ne_item fun hmem => ?_
  exact (List.nodup_append.mp hnd).2.2 z hmem z (by simp) rfl

theorem firstNode_ne_item {h : H} {ys : List α} {a : α} (ha : a ∉ ys) :
    firstNode h ys ≠ .item a := by
  rcases firstNode_cases h ys with he | ⟨b, hb, he⟩ <;> rw [he]
  · simp
  · rintro ⟨⟩; exact ha hb

/-- A surgery at the cut between `xs` and `ys` on a node outside both keeps the
links of the two halves. -/
theorem halves {l l' : Links (Node H α)} {h : H} {xs ys : List α} {a : α}
    (hnd : (xs ++ ys).Nodup) (ha : a ∉ xs ++ ys)
    (hkeep : ∀ {x y}, l.Linked x y → x ≠ lastNode h xs → x ≠ .item a →
      y ≠ firstNode h ys → y ≠ .item a → l'.Linked x y)
    (hfront : (.head h :: xs.map .item : List (Node H α)).IsChain l.Linked)
    (hback : (ys.map .item ++ [.head h] : List (Node H α)).IsChain l.Linked) :
    (.head h :: xs.map .item : List (Node H α)).IsChain l'.Linked ∧
      (ys.map .item ++ [.head h] : List (Node H α)).IsChain l'.Linked := by
  obtain ⟨hxs, hys, hdisj⟩ := List.nodup_append.mp hnd
  obtain ⟨hax, hay⟩ : a ∉ xs ∧ a ∉ ys := by simpa using ha
  constructor
  · refine isChain_relink hfront fun x hx y hy hxy => hkeep hxy ?_ ?_ ?_ ?_
    · rintro rfl; exact lastNode_not_mem_dropLast hxs hx
    · rintro rfl
      exact hax (by simpa using List.dropLast_subset _ hx)
    · rintro rfl
      have hy : firstNode h ys ∈ xs.map .item := hy
      obtain ⟨b, hb, hbe⟩ := List.mem_map.mp hy
      exact firstNode_ne_item (fun hb' => hdisj b hb b hb' rfl) hbe.symm
    · rintro rfl
      exact hax (by simpa using hy)
  · refine isChain_relink hback fun x hx y hy hxy => hkeep hxy ?_ ?_ ?_ ?_
    · rintro rfl
      rw [List.dropLast_concat] at hx
      obtain ⟨b, hb, hbe⟩ := List.mem_map.mp hx
      exact lastNode_ne_item (fun hb' => hdisj b hb' b hb rfl) hbe.symm
    · rintro rfl
      rw [List.dropLast_concat] at hx
      exact hay (by simpa using hx)
    · rintro rfl; exact firstNode_not_mem_tail hys hy
    · rintro rfl
      exact hay (by simpa using List.mem_of_mem_tail hy)

end

/-- A surgery at a cut of `h` leaves the rings of the other heads alone. -/
theorem other_ring (hr : Rep l r) {l' : Links (Node H α)} {h h' : H} {xs ys : List α} {a : α}
    (hne : h' ≠ h) (hh' : r.live (.head h') = true) (ha : a ∉ r.seq h')
    (hxs : ∀ b ∈ xs, b ∈ r.seq h) (hys : ∀ b ∈ ys, b ∈ r.seq h)
    (hkeep : ∀ {x y}, l.Linked x y → x ≠ lastNode h xs → x ≠ .item a →
      y ≠ firstNode h ys → y ≠ .item a → l'.Linked x y) :
    Ring l' h' (r.seq h') := by
  have hoff : ∀ b ∈ r.seq h', b ∉ r.seq h := fun b hb hb' => hne (hr.valid.disjoint hb hb')
  have hlast : lastNode h xs ∉ cycle h' (r.seq h') := by
    rw [mem_cycle]
    rcases lastNode_cases h xs with he | ⟨b, hb, he⟩ <;> rw [he]
    · simpa using hne.symm
    · rintro (⟨⟨⟩⟩ | ⟨c, hc, ⟨⟩⟩); exact hoff b hc (hxs b hb)
  have hfirst : firstNode h ys ∉ cycle h' (r.seq h') := by
    rw [mem_cycle]
    rcases firstNode_cases h ys with he | ⟨b, hb, he⟩ <;> rw [he]
    · simpa using hne.symm
    · rintro (⟨⟨⟩⟩ | ⟨c, hc, ⟨⟩⟩); exact hoff b hc (hys b hb)
  have hitem : Node.item a ∉ cycle h' (r.seq h') := by
    rw [mem_cycle]
    rintro (⟨⟨⟩⟩ | ⟨c, hc, ⟨⟩⟩); exact ha hc
  refine ring_frame (hr.ring h' hh') fun x hx y hy hxy => hkeep hxy ?_ ?_ ?_ ?_
  · rintro rfl; exact hlast hx
  · rintro rfl; exact hitem hx
  · rintro rfl; exact hfirst hy
  · rintro rfl; exact hitem hy

/-- **Insertion.** Splicing a free node into a cut of a ring inserts its item
there and touches no other list. -/
theorem insert (hr : Rep l r) {h : H} {xs ys : List α} {a : α} (hs : r.seq h = xs ++ ys)
    (hf : r.Free a) (hh : r.live (.head h) = true) :
    Rep (l.splice (lastNode h xs) (.item a) (firstNode h ys))
      ((r.mark (.item a)).setSeq h (xs ++ a :: ys)) := by
  have hah : a ∉ xs ++ ys := hs ▸ hf h
  obtain ⟨hax, hay⟩ : a ∉ xs ∧ a ∉ ys := by simpa using hah
  have hmark : (r.mark (.item a)).live (.item a) = true := by simp [Rings.mark]
  have hmarkh : (r.mark (.item a)).live (.head h) = true := by simp [Rings.mark, hh]
  constructor
  · exact (hr.valid.mark _).insert hs hf hmark hmarkh
  · intro h' hh'
    rw [Rings.setSeq_seq]
    split
    · -- the ring is cut where the item goes; both halves keep their links
      rename_i heq
      subst heq
      obtain ⟨hfront, hback, -⟩ := ring_cut.mp (hs ▸ hr.ring h' hh)
      obtain ⟨hfront, hback⟩ := halves (hs ▸ hr.valid.nodup h') hah
        (fun hxy => Links.splice_of_ne hxy) hfront hback
      refine ring_cut.mpr ⟨hfront, ?_, Links.splice_left (firstNode_ne_item hay)⟩
      have hlink : (l.splice (lastNode h' xs) (.item a) (firstNode h' ys)).Linked
          (.item a) (firstNode h' ys) := Links.splice_right (lastNode_ne_item hax)
      cases ys with
      | nil => exact List.isChain_cons_cons.mpr ⟨hlink, hback⟩
      | cons b ys => exact List.isChain_cons_cons.mpr ⟨hlink, hback⟩
    · rename_i hne
      have hh' : r.live (.head h') = true := by simpa [Rings.mark] using hh'
      exact hr.other_ring hne hh' (hf h') (fun b hb => by simp [hs, hb])
        (fun b hb => by simp [hs, hb]) fun hxy => Links.splice_of_ne hxy
  · intro b hb hfb
    have hba : b ≠ a := by
      rintro rfl
      exact hfb h (by simp)
    have hfree : r.Free b := by
      intro h' hb'
      refine hfb h' ?_
      rw [Rings.setSeq_seq]
      split
      · rename_i heq
        subst heq
        rw [hs] at hb'
        simp only [List.mem_append, List.mem_cons] at hb' ⊢
        tauto
      · exact hb'
    have hlive : r.live (.item b) = true := by
      simpa [Rings.mark, Function.update_apply, hba] using hb
    have hbx : b ∉ xs := fun hb' => hfree h (by simp [hs, hb'])
    have hby : b ∉ ys := fun hb' => hfree h (by simp [hs, hb'])
    exact Links.splice_of_ne (hr.free b hlive hfree) (lastNode_ne_item hbx).symm
      (by simpa using hba) (firstNode_ne_item hby).symm (by simpa using hba)
  · intro n hn
    obtain ⟨hna, hnull⟩ : n ≠ .item a ∧ r.live n = false := by
      by_cases hna : n = .item a
      · simp [hna, hmark] at hn
      · exact ⟨hna, by simpa [Rings.mark, Function.update_apply, hna] using hn⟩
    -- a null node is neither end of the cut: those two are linked
    have hcut : l.Linked (lastNode h xs) (firstNode h ys) := hr.linked_cut hs hh
    have hnp : n ≠ lastNode h xs := by
      rintro rfl; simp [(hr.null _ hnull).1, Links.Linked] at hcut
    have hnq : n ≠ firstNode h ys := by
      rintro rfl; simp [(hr.null _ hnull).2, Links.Linked] at hcut
    simpa [Links.splice, hna, hnp, hnq] using hr.null n hnull

/-- **Removal.** Unlinking a listed node erases its item from its list, touches
no other list and leaves the node linked to itself. -/
theorem remove (hr : Rep l r) {h : H} {xs ys : List α} {a : α} (hs : r.seq h = xs ++ a :: ys) :
    Rep (l.unlink (lastNode h xs) (.item a) (firstNode h ys)) (r.erase a) := by
  have hh : r.live (.head h) = true := hr.valid.head_live (by simp [hs])
  have hnd : (a :: (xs ++ ys)).Nodup := List.nodup_middle.mp (hs ▸ hr.valid.nodup h)
  obtain ⟨hah, hnd'⟩ := List.nodup_cons.mp hnd
  obtain ⟨hax, hay⟩ : a ∉ xs ∧ a ∉ ys := by simpa using hah
  have hers : (r.seq h).erase a = xs ++ ys := by
    rw [hs, List.erase_append_right _ hax, List.erase_cons_head]
  have heq : r.erase a = r.setSeq h (xs ++ ys) := by
    rw [hr.valid.erase_eq_setSeq (h := h) (by simp [hs]), hers]
  constructor
  · exact hr.valid.erase a
  · intro h' hh'
    rw [heq, Rings.setSeq_seq]
    split
    · rename_i heq'
      subst heq'
      have hring : Ring l h' (xs ++ a :: ys) := hs ▸ hr.ring h' hh
      obtain ⟨hfront, hback, -⟩ := ring_cut.mp hring
      obtain ⟨hfront, hback⟩ := halves hnd' hah (fun hxy => Links.unlink_of_ne hxy) hfront
        (by simpa using hback.tail)
      exact ring_cut.mpr ⟨hfront, hback,
        Links.unlink_across (lastNode_ne_item hax) (firstNode_ne_item hay)⟩
    · rename_i hne
      exact hr.other_ring hne hh' (fun ha' => hne (hr.valid.disjoint ha' (by simp [hs])))
        (fun b hb => by simp [hs, hb]) (fun b hb => by simp [hs, hb])
        fun hxy => Links.unlink_of_ne hxy
  · intro b hb hfb
    by_cases hba : b = a
    · -- the node just unlinked is one that is on no list now
      subst hba; exact Links.unlink_self
    · have hfree : r.Free b := fun h' hb' => hfb h' ((List.mem_erase_of_ne hba).mpr hb')
      have hbx : b ∉ xs := fun hb' => hfree h (by simp [hs, hb'])
      have hby : b ∉ ys := fun hb' => hfree h (by simp [hs, hb'])
      exact Links.unlink_of_ne (hr.free b hb hfree) (lastNode_ne_item hbx).symm
        (by simpa using hba) (firstNode_ne_item hby).symm (by simpa using hba)
  · intro n hn
    have hnull := hr.null n hn
    have hpa := hr.linked_cut hs hh
    have hs' : r.seq h = (xs ++ [a]) ++ ys := by simp [hs]
    have haq := hr.linked_cut hs' hh
    have hnp : n ≠ lastNode h xs := by
      rintro rfl; simp [hnull.1, Links.Linked] at hpa
    have hnq : n ≠ firstNode h ys := by
      rintro rfl; simp [hnull.2, Links.Linked] at haq
    have hna : n ≠ .item a := by
      rintro rfl; simp [hnull.2, Links.Linked] at hpa
    simpa [Links.unlink, hna, hnp, hnq] using hnull

/-- **Insertion twice.** If an item listed under `h` is linked in front of the head
again, the links under `h` form no ring any more: the item is followed by the head,
and yet walking back from the head meets the node that used to follow the item. -/
theorem not_ring_of_back_edge (hr : Rep l r) {l' : Links (Node H α)} {h : H} {xs ys s : List α}
    {a : α} (hs : r.seq h = xs ++ a :: ys) (hnext : l'.next (.item a) = some (.head h))
    (hhead : l'.prev (.head h) = some (.item a))
    (hlast : l'.prev (.item a) = some (lastNode h (r.seq h)))
    (hother : ∀ b, b ≠ a → l'.prev (.item b) = l.prev (.item b)) : ¬ Ring l' h s := by
  intro hring
  -- walking back from an item behind `a` ends at the one that follows `a`
  have hwalk : ∀ us vs, ys = us ++ vs → us ≠ [] → lastNode h (xs ++ a :: us) ∈ cycle h s →
      ∃ b, .item b ∈ cycle h s ∧ l'.prev (.item b) = some (.item a) := by
    intro us
    induction us using List.reverseRecOn with
    | nil => exact fun _ _ hne => absurd rfl hne
    | append_singleton us b ih =>
      intro vs hvs _ hmem
      rw [← List.cons_append, ← List.append_assoc, lastNode_append] at hmem
      have hcut : r.seq h = (xs ++ a :: us) ++ b :: vs := by simp [hs, hvs]
      have hba : b ≠ a := by
        have hnd := hr.valid.nodup h
        rw [hs, hvs] at hnd
        rintro rfl
        exact (List.nodup_cons.mp (List.nodup_append.mp hnd).2.1).1 (by simp)
      have hprev := (hother b hba).trans (hr.prev_item hcut)
      rcases us.eq_nil_or_concat with rfl | ⟨us', c, hus⟩
      · exact ⟨b, hmem, by simpa using hprev⟩
      · obtain ⟨p, hp, -, hpb⟩ := hring.exists_prev hmem
        rw [hprev] at hpb
        exact ih (b :: vs) (by simp [hvs]) (by simp [hus]) (Option.some.inj hpb ▸ hp)
  obtain ⟨p, hp, -, hpa⟩ := hring.exists_prev (n := .head h) (List.mem_cons_self ..)
  obtain rfl := Option.some.inj (hhead.symm.trans hpa)
  obtain ⟨q, hq, hqa, hpq⟩ := hring.exists_prev hp
  obtain rfl := Option.some.inj (hlast.symm.trans hpq)
  obtain ⟨b, hb, hprev⟩ : ∃ b, .item b ∈ cycle h s ∧ l'.prev (.item b) = some (.item a) := by
    rcases ys.eq_nil_or_concat with rfl | ⟨us, b, hys⟩
    · exact ⟨a, hp, by rw [hlast, hs, lastNode_append]⟩
    · exact hwalk ys [] (by simp) (by simp [hys]) (hs ▸ hq)
  obtain ⟨p, -, hpb, hbp⟩ := hring.exists_prev hb
  obtain rfl := Option.some.inj (hprev.symm.trans hbp)
  simp [hnext] at hpb

/-- Linking a node that heads no items and is on no list to itself initialises it. -/
theorem selfLink (hr : Rep l r) {n : Node H α}
    (hn : (∃ h, n = .head h ∧ r.seq h = []) ∨ ∃ a, n = .item a ∧ r.Free a) :
    Rep (l.selfLink n) (r.mark n) := by
  have hout : ∀ h, n ∈ cycle h (r.seq h) → n = .head h ∧ r.seq h = [] := by
    intro h hmem
    rcases mem_cycle.mp hmem with hnh | ⟨a, ha, hna⟩
    · rcases hn with ⟨h', rfl, he⟩ | ⟨a, rfl, -⟩
      · cases hnh; exact ⟨rfl, he⟩
      · cases hnh
    · rcases hn with ⟨h', rfl, -⟩ | ⟨b, rfl, hf⟩
      · cases hna
      · cases hna; exact absurd ha (hf h)
  have hlive : ∀ m, m ≠ n → (r.mark n).live m = r.live m := fun m hm => by
    simp [Rings.mark, hm]
  constructor
  · exact hr.valid.mark n
  · intro h hh
    rw [Rings.mark_seq]
    by_cases hmem : n ∈ cycle h (r.seq h)
    · obtain ⟨rfl, he⟩ := hout h hmem
      rw [he]
      exact List.isChain_pair.mpr (l.selfLink_linked _)
    · have hnh : Node.head h ≠ n := by
        rintro rfl; exact hmem (mem_cycle.mpr (.inl rfl))
      refine ring_frame (hr.ring h (by rwa [hlive _ hnh] at hh)) fun x hx y hy hxy => ?_
      exact Links.selfLink_of_ne hxy (by rintro rfl; exact hmem hx) (by rintro rfl; exact hmem hy)
  · intro b hb hfb
    by_cases hbn : Node.item b = n
    · subst hbn; exact l.selfLink_linked _
    · exact Links.selfLink_of_ne (hr.free b (by rwa [hlive _ hbn] at hb) hfb) hbn hbn
  · intro m hm
    have hmn : m ≠ n := by
      rintro rfl; simp [Rings.mark] at hm
    rw [hlive m hmn] at hm
    simpa [Links.selfLink, hmn] using hr.null m hm

end Rep

/-! ## Reading a list -/

/-- The items met on a walk forward from a node, of at most `n` steps. -/
def Links.read {H α : Type} (l : Links (Node H α)) : Nat → Node H α → List α
  | 0, _ => []
  | n + 1, x =>
      match l.next x with
      | some (.item a) => a :: l.read n (.item a)
      | _ => []

section Read
variable [DecidableEq H] [DecidableEq α] {l : Links (Node H α)} {r : Rings H α}

theorem Rep.read_suffix (hr : Rep l r) {h : H} {ys : List α} :
    ∀ {xs : List α} {a : α} {n : Nat}, r.seq h = xs ++ a :: ys → ys.length ≤ n →
      l.read n (.item a) = ys := by
  induction ys with
  | nil =>
    intro xs a n hs _
    cases n with
    | zero => rfl
    | succ n => simp [Links.read, hr.next_item hs]
  | cons b ys ih =>
    intro xs a n hs hn
    cases n with
    | zero => simp at hn
    | succ n =>
      have hs' : r.seq h = (xs ++ [a]) ++ b :: ys := by simp [hs]
      have hrest : l.read n (.item b) = ys := ih hs' (by simpa using hn)
      simp [Links.read, hr.next_item hs, hrest]

/-- A long enough walk from a head meets exactly what is listed under it. -/
theorem Rep.read_eq (hr : Rep l r) (h : H) {n : Nat} (hn : (r.seq h).length ≤ n) :
    l.read n (.head h) = r.seq h := by
  by_cases hlive : r.live (.head h) = true
  · cases hs : r.seq h with
    | nil =>
      cases n with
      | zero => rfl
      | succ n => simp [Links.read, hr.next_head hlive, hs]
    | cons a ys =>
      rw [hs] at hn
      cases n with
      | zero => simp at hn
      | succ n =>
        have hrest : l.read n (.item a) = ys :=
          hr.read_suffix (hs.trans (List.nil_append _).symm) (by simpa using hn)
        simp [Links.read, hr.next_head hlive, hs, hrest]
  · have hempty : r.seq h = [] := by
      by_contra hne
      exact hlive (hr.valid.head_live hne)
    cases n with
    | zero => simp [Links.read, hempty]
    | succ n => simp [Links.read, (hr.null _ (by simpa using hlive)).1, hempty]

/-! ## Nodes on no list -/

theorem next_head_iff (hr : Rep l r) (hd : H) :
    (l.next (.head hd) = none ∨ l.next (.head hd) = some (.head hd)) ↔ r.seq hd = [] := by
  by_cases hlive : r.live (.head hd) = true
  · rw [hr.next_head hlive]
    cases r.seq hd <;> simp
  · have hempty : r.seq hd = [] := by
      by_contra hne
      exact hlive (hr.valid.head_live hne)
    simp [(hr.null _ (by simpa using hlive)).1, hempty]

/-- An item that links to itself, or nowhere, is on no list. -/
theorem next_item_iff (hr : Rep l r) (x : α) :
    (l.next (.item x) = none ∨ l.next (.item x) = some (.item x)) ↔ r.Free x := by
  constructor
  · intro hnext hd hmem
    obtain ⟨xs, ys, hs⟩ := List.append_of_mem hmem
    have hnd := hr.valid.nodup hd
    rw [hs] at hnd
    have hx : x ∉ ys := fun hy => (List.nodup_cons.mp (List.nodup_append.mp hnd).2.1).1 hy
    rw [hr.next_item hs] at hnext
    rcases hnext with hnone | hself
    · cases hnone
    · exact Rep.firstNode_ne_item hx (Option.some.inj hself)
  · intro hfree
    by_cases hlive : r.live (.item x) = true
    · exact .inr (hr.free x hlive hfree).1
    · exact .inl (hr.null _ (by simpa using hlive)).1

/-- A node links somewhere exactly when it has been initialised. -/
theorem next_ne_none_iff (hr : Rep l r) (n : Node H α) : l.next n ≠ none ↔ r.live n = true := by
  constructor
  · intro h
    by_contra hlive
    exact h (hr.null n (by simpa using hlive)).1
  · intro hlive hnone
    cases n with
    | head hd =>
      rw [hr.next_head hlive] at hnone
      cases hnone
    | item x =>
      by_cases hfree : r.Free x
      · rw [(hr.free x hlive hfree).1] at hnone
        cases hnone
      · obtain ⟨hd, hmem⟩ : ∃ hd, x ∈ r.seq hd := by simpa [Rings.Free] using hfree
        obtain ⟨xs, ys, hs⟩ := List.append_of_mem hmem
        rw [hr.next_item hs] at hnone
        cases hnone

/-- An item that links to itself has been initialised and is on no list. -/
theorem next_self_iff (hr : Rep l r) (x : α) :
    l.next (.item x) = some (.item x) ↔ r.live (.item x) = true ∧ r.Free x := by
  rw [← next_ne_none_iff hr, ← next_item_iff hr]
  constructor
  · intro h
    exact ⟨by rw [h]; simp, .inr h⟩
  · rintro ⟨hne, hnone | hself⟩
    · exact absurd hnone hne
    · exact hself

/-- The node is a head in use or a listed item. -/
def Rings.Reached (r : Rings H α) (n : Node H α) : Prop :=
  (∃ hd, n = .head hd ∧ r.live (.head hd) = true) ∨ ∃ hd x, n = .item x ∧ x ∈ r.seq hd

/-- Forward or backward, a link leads back to its own node or to one that is reached. -/
theorem Rep.leads (hr : Rep l r) {n m : Node H α} (h : l.next n = some m ∨ l.prev n = some m) :
    m = n ∨ r.Reached m := by
  by_cases hlive : r.live n = true
  · cases n with
    | head hd =>
      rw [hr.next_head hlive, hr.prev_head hlive] at h
      rcases h with h | h
      · obtain rfl := Option.some.inj h
        rcases firstNode_cases hd (r.seq hd) with he | ⟨x, hx, he⟩
        · exact .inl he
        · exact .inr (.inr ⟨hd, x, he, hx⟩)
      · obtain rfl := Option.some.inj h
        rcases lastNode_cases hd (r.seq hd) with he | ⟨x, hx, he⟩
        · exact .inl he
        · exact .inr (.inr ⟨hd, x, he, hx⟩)
    | item y =>
      by_cases hfree : r.Free y
      · obtain ⟨hnext, hprev⟩ := hr.free y hlive hfree
        rw [hnext, hprev, or_self] at h
        exact .inl (Option.some.inj h).symm
      · obtain ⟨hd, hy⟩ : ∃ hd, y ∈ r.seq hd := by simpa [Rings.Free] using hfree
        obtain ⟨xs, ys, hs⟩ := List.append_of_mem hy
        have hhead := hr.valid.head_live (List.ne_nil_of_mem hy)
        rw [hr.next_item hs, hr.prev_item hs] at h
        rcases h with h | h
        · obtain rfl := Option.some.inj h
          rcases firstNode_cases hd ys with he | ⟨x, hx, he⟩
          · exact .inr (.inl ⟨hd, he, hhead⟩)
          · exact .inr (.inr ⟨hd, x, he, by simp [hs, hx]⟩)
        · obtain rfl := Option.some.inj h
          rcases lastNode_cases hd xs with he | ⟨x, hx, he⟩
          · exact .inr (.inl ⟨hd, he, hhead⟩)
          · exact .inr (.inr ⟨hd, x, he, by simp [hs, hx]⟩)
  · obtain ⟨hnext, hprev⟩ := hr.null n (by simpa using hlive)
    rw [hnext, hprev, or_self] at h
    cases h

/-- A link forward is answered by one backward. -/
theorem Rep.prev_of_next (hr : Rep l r) {n m : Node H α} (h : l.next n = some m) :
    l.prev m = some n := by
  have hcut : ∀ hd xs ys, r.seq hd = xs ++ ys → r.live (.head hd) = true →
      n = lastNode hd xs → l.prev m = some n := by
    intro hd xs ys hs hlive hn
    subst hn
    have hlink := hr.linked_cut hs hlive
    obtain rfl := Option.some.inj (h.symm.trans hlink.1)
    exact hlink.2
  by_cases hlive : r.live n = true
  · cases n with
    | head hd => exact hcut hd [] _ rfl hlive rfl
    | item y =>
      by_cases hfree : r.Free y
      · obtain ⟨hnext, hprev⟩ := hr.free y hlive hfree
        obtain rfl := Option.some.inj (h.symm.trans hnext)
        exact hprev
      · obtain ⟨hd, hy⟩ : ∃ hd, y ∈ r.seq hd := by simpa [Rings.Free] using hfree
        obtain ⟨xs, ys, hs⟩ := List.append_of_mem hy
        exact hcut hd (xs ++ [y]) ys (by simp [hs])
          (hr.valid.head_live (List.ne_nil_of_mem hy)) (by simp [lastNode])
  · rw [(hr.null n (by simpa using hlive)).1] at h
    cases h

/-- A link backward is answered by one forward. -/
theorem Rep.next_of_prev (hr : Rep l r) {n m : Node H α} (h : l.prev n = some m) :
    l.next m = some n := by
  have hcut : ∀ {hd xs ys}, r.seq hd = xs ++ ys → r.live (.head hd) = true →
      n = firstNode hd ys → l.next m = some n := by
    intro hd xs ys hs hlive hn
    subst hn
    have hlink := hr.linked_cut hs hlive
    obtain rfl := Option.some.inj (h.symm.trans hlink.2)
    exact hlink.1
  by_cases hlive : r.live n = true
  · cases n with
    | head hd => exact hcut (List.append_nil _).symm hlive rfl
    | item y =>
      by_cases hfree : r.Free y
      · obtain ⟨hnext, hprev⟩ := hr.free y hlive hfree
        obtain rfl := Option.some.inj (h.symm.trans hprev)
        exact hnext
      · obtain ⟨hd, hy⟩ : ∃ hd, y ∈ r.seq hd := by simpa [Rings.Free] using hfree
        obtain ⟨xs, ys, hs⟩ := List.append_of_mem hy
        exact hcut hs (hr.valid.head_live (List.ne_nil_of_mem hy)) rfl
  · rw [(hr.null n (by simpa using hlive)).2] at h
    cases h

/-- Links are determined by the lists they represent. -/
theorem Rep.unique {m : Links (Node H α)} (hr : Rep l r) (hm : Rep m r) : l = m := by
  have hlinks : ∀ n, l.next n = m.next n ∧ l.prev n = m.prev n := by
    intro n
    by_cases hlive : r.live n = true
    · cases n with
      | head hd =>
        exact ⟨(hr.next_head hlive).trans (hm.next_head hlive).symm,
          (hr.prev_head hlive).trans (hm.prev_head hlive).symm⟩
      | item y =>
        by_cases hfree : r.Free y
        · exact ⟨(hr.free y hlive hfree).1.trans (hm.free y hlive hfree).1.symm,
            (hr.free y hlive hfree).2.trans (hm.free y hlive hfree).2.symm⟩
        · obtain ⟨hd, hy⟩ : ∃ hd, y ∈ r.seq hd := by simpa [Rings.Free] using hfree
          obtain ⟨xs, ys, hs⟩ := List.append_of_mem hy
          exact ⟨(hr.next_item hs).trans (hm.next_item hs).symm,
            (hr.prev_item hs).trans (hm.prev_item hs).symm⟩
    · have hdead : r.live n = false := by simpa using hlive
      exact ⟨(hr.null n hdead).1.trans (hm.null n hdead).1.symm,
        (hr.null n hdead).2.trans (hm.null n hdead).2.symm⟩
  have hnext : l.next = m.next := funext fun n => (hlinks n).1
  have hprev : l.prev = m.prev := funext fun n => (hlinks n).2
  cases l
  cases m
  rw [Links.mk.injEq]
  exact ⟨hnext, hprev⟩

/-- Null links everywhere hold no list. -/
theorem null_rep :
    Rep ({ next := fun _ => none, prev := fun _ => none } : Links (Node H α))
      { seq := fun _ => [], live := fun _ => false } :=
  ⟨⟨by simp, by simp, by simp, by simp⟩, by simp, by simp, by simp⟩

end Read

end Intrusive
