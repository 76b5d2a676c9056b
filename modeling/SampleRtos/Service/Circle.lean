import SampleRtos.Lib.Run
import SampleRtos.Lib.Circle
import SampleRtos.Service.List

/-!
# rtservice.h: the list functions refine sequences

Service/List follows the lists of the kernel, whose heads are known. Here any node of
any heap that falls into circles is a place to insert at, a node to remove or a head to
ask, and the neighbours may coincide.
-/

namespace SampleRtos

open Intrusive

section Circles
variable {ν : Type} [DecidableEq ν] {l : Links ν} {D : Set ν} {h m n : ν} {s : List ν}

/-- The loop of `rt_list_len(l)` from `p` on, if it ends within `fuel` rounds. -/
def rtListLenFrom (m : Links ν) (l : ν) : Nat → ν → BitVec 32 → Option (BitVec 32)
  | 0, _, _ => none
  | fuel + 1, p, len => do
      let q ← m.next p
      if q ≠ l then rtListLenFrom m l fuel q (len + 1) else return len

def rtListLen (m : Links ν) (fuel : Nat) (l : ν) : Option (BitVec 32) :=
  rtListLenFrom m l fuel l 0

/-! ## Initialisation -/

/-- A node that is initialised joins the heap, unless it stood on one of its circles. -/
theorem rtListInit_circles (hD : Circles l D) (hn : n ∉ D) :
    Circles (rtListInit l n) (insert n D) := by
  rw [rtListInit_eq]
  exact hD.selfLink hn

/-! ## Insertion -/

/-- A self-linked node put in next to itself stays as it is. -/
theorem rtListInsertAfter_self (hn : Circle l n []) : rtListInsertAfter l n n = some l := by
  have hlink : l.Linked n n := hn.linked_next
  obtain ⟨hnext, hprev⟩ := hn.update_alone
  simp only [rtListInsertAfter, hlink.1, Links.setNext, Links.setPrev, hnext, hprev,
    Option.bind_eq_bind, Option.bind_some, Option.pure_def]

theorem rtListInsertBefore_self (hn : Circle l n []) : rtListInsertBefore l n n = some l := by
  have hlink : l.Linked n n := hn.linked_next
  obtain ⟨hnext, hprev⟩ := hn.update_alone
  rw [rtListInsertBefore_writes hlink.2, hnext, hnext, hprev, hprev]

/-- Inserting in front of a node is inserting behind its predecessor. -/
theorem rtListInsertBefore_eq_after {p : ν} (hlink : l.Linked p m) (hpn : p ≠ n) (hmn : m ≠ n) :
    rtListInsertBefore l m n = rtListInsertAfter l p n := by
  rw [rtListInsertBefore_eq hlink.2 hpn, rtListInsertAfter_eq hlink.1 hmn]

theorem rtListInsertAfter_putBehind (hD : Circles l D) (hm : m ∈ D) (hn : n ∈ D)
    (hself : Circle l n []) (hmn : m ≠ n) :
    ∃ l', rtListInsertAfter l m n = some l' ∧ Circles l' D ∧ PutBehind l l' m n := by
  obtain ⟨s, hs, -⟩ := hD m hm
  have hput := hs.putBehind hself hmn
  have hsn : s.headD m ≠ n := by
    intro heq
    exact hs.not_mem_of_alone hself hmn (heq ▸ headD_mem m s)
  exact ⟨_, rtListInsertAfter_eq hs.linked_next.1 hsn, hD.putBehind hput hm hn hself, hput⟩

theorem rtListInsertBefore_putBefore (hD : Circles l D) (hm : m ∈ D) (hn : n ∈ D)
    (hself : Circle l n []) (hmn : m ≠ n) :
    ∃ l', rtListInsertBefore l m n = some l' ∧ Circles l' D ∧ PutBefore l l' m n := by
  obtain ⟨s, hs, -⟩ := hD m hm
  have hpn : s.getLastD m ≠ n := by
    intro heq
    exact hs.not_mem_of_alone hself hmn (heq ▸ getLastD_mem m s)
  have hp : s.getLastD m ∈ D := hD.mem_of_circle hm hs (getLastD_mem m s)
  obtain ⟨l', hrun, hD', hput⟩ := rtListInsertAfter_putBehind hD hp hn hself hpn
  exact ⟨l', (rtListInsertBefore_eq_after hs.linked_prev hpn hmn).trans hrun, hD',
    hput.putBefore hs rfl⟩

/-! ## Removal -/

theorem rtListRemove_self (hn : Circle l n []) : rtListRemove l n = some l := by
  have hlink : l.Linked n n := hn.linked_next
  rw [rtListRemove_eq hlink.1 hlink.2, Links.unlink_of_linked_self hlink]

theorem rtListRemove_takenOut (hD : Circles l D) (hn : n ∈ D) :
    ∃ l', rtListRemove l n = some l' ∧ Circles l' D ∧ TakenOut l l' n := by
  obtain ⟨s, hs, -⟩ := hD n hn
  exact ⟨_, rtListRemove_eq hs.linked_next.1 hs.linked_prev.2, hD.takenOut hs.takenOut hn,
    hs.takenOut⟩

/-! ## Reading -/

theorem rtListIsempty_iff (hs : Circle l h s) : rtListIsempty l h = true ↔ s = [] := by
  rw [rtListIsempty, hs.linked_next.1, decide_eq_true_eq, Option.some.injEq]
  cases s with
  | nil => simp
  | cons a s =>
    have hah : a ≠ h := by
      rintro rfl
      simpa using hs.nodup
    simpa using hah

/-- The loop counts what is left of the way round. -/
theorem rtListLenFrom_eq {t : List ν} : ∀ {p : ν} {fuel : Nat} {len : BitVec 32},
    (p :: (t ++ [h])).IsChain l.Linked → h ∉ t → t.length < fuel →
      rtListLenFrom l h fuel p len = some (len + BitVec.ofNat 32 t.length) := by
  induction t with
  | nil =>
    intro p fuel len hchain _ hfuel
    obtain ⟨fuel, rfl⟩ := Nat.exists_eq_add_of_lt hfuel
    have hnext : l.next p = some h := (List.isChain_cons_cons.mp hchain).1.1
    simp [rtListLenFrom, hnext]
  | cons a t ih =>
    intro p fuel len hchain ht hfuel
    obtain ⟨fuel, rfl⟩ : ∃ f, fuel = f + 1 := ⟨fuel - 1, by simp at hfuel; omega⟩
    obtain ⟨hpa, hchain⟩ := List.isChain_cons_cons.mp hchain
    have hah : a ≠ h := by rintro rfl; simp at ht
    have hrest : rtListLenFrom l h fuel a (len + 1) = _ :=
      ih hchain (by simp at ht; tauto) (Nat.lt_of_succ_lt_succ hfuel)
    rw [rtListLenFrom, hpa.1, Option.bind_eq_bind, Option.bind_some, if_pos hah, hrest,
      List.length_cons, BitVec.ofNat_add, BitVec.add_assoc, BitVec.add_comm 1]
    rfl

section
omit [DecidableEq ν]

/-- Nodes have 32-bit addresses, so the count does not come round. -/
theorem circle_length_lt (hs : Circle l h s) (addr : ν ↪ BitVec 32) : s.length < 2 ^ 32 := by
  have hinj : Function.Injective fun x => (addr x).toFin := fun x y hxy =>
    addr.injective (BitVec.eq_of_toFin_eq hxy)
  have hcard := (hs.nodup.map hinj).length_le_card
  rw [List.length_map, List.length_cons, Fintype.card_fin] at hcard
  omega

end

theorem rtListLen_eq (hs : Circle l h s) (addr : ν ↪ BitVec 32) :
    ∃ len : BitVec 32, len.toNat = s.length ∧
      ∀ fuel, s.length < fuel → rtListLen l fuel h = some len := by
  refine ⟨BitVec.ofNat 32 s.length, ?_, fun fuel hfuel => ?_⟩
  · rw [BitVec.toNat_ofNat, Nat.mod_eq_of_lt (circle_length_lt hs addr)]
  · rw [rtListLen, rtListLenFrom_eq hs.chain (List.nodup_cons.mp hs.nodup).1 hfuel]
    simp

/-! ## The operations on any heap -/

/-- **The list operations refine sequences.** On a heap that falls into circles,
`rt_list_insert_after` and `rt_list_insert_before` put a self-linked node directly behind or
in front of any node, wherever that node stands and whichever node of its circle is read as
the head (next to itself it stays as it is); `rt_list_remove` takes a node out of its circle,
leaves it linked to itself and done twice changes nothing more; none touches a node of
another circle, and the heap still falls into circles. `rt_list_isempty` and `rt_list_len`
read off whether the sequence behind a head is empty and how long it is. -/
theorem list_refines_sequences (hD : Circles l D) :
    (∀ m ∈ D, ∀ n ∈ D, Circle l n [] →
      (∃ l', rtListInsertAfter l m n = some l' ∧ Circles l' D ∧
        (m ≠ n → PutBehind l l' m n) ∧ (m = n → l' = l)) ∧
      ∃ l', rtListInsertBefore l m n = some l' ∧ Circles l' D ∧
        (m ≠ n → PutBefore l l' m n) ∧ (m = n → l' = l)) ∧
      (∀ k ∈ D, ∃ l', rtListRemove l k = some l' ∧ Circles l' D ∧ TakenOut l l' k ∧
        rtListRemove l' k = some l') ∧
      ∀ h s, Circle l h s →
        (rtListIsempty l h = true ↔ s = []) ∧
          ∀ _ : ν ↪ BitVec 32, ∃ len : BitVec 32, len.toNat = s.length ∧
            ∀ fuel, s.length < fuel → rtListLen l fuel h = some len := by
  refine ⟨fun m hm n hn hself => ?_, fun k hk => ?_, fun h s hs => ?_⟩
  · by_cases hmn : m = n
    · subst hmn
      exact ⟨⟨l, rtListInsertAfter_self hself, hD, fun hne => absurd rfl hne, fun _ => rfl⟩,
        ⟨l, rtListInsertBefore_self hself, hD, fun hne => absurd rfl hne, fun _ => rfl⟩⟩
    · obtain ⟨l₁, hrun₁, hD₁, hput₁⟩ := rtListInsertAfter_putBehind hD hm hn hself hmn
      obtain ⟨l₂, hrun₂, hD₂, hput₂⟩ := rtListInsertBefore_putBefore hD hm hn hself hmn
      exact ⟨⟨l₁, hrun₁, hD₁, fun _ => hput₁, fun heq => absurd heq hmn⟩,
        ⟨l₂, hrun₂, hD₂, fun _ => hput₂, fun heq => absurd heq hmn⟩⟩
  · obtain ⟨l', hrun, hD', htaken⟩ := rtListRemove_takenOut hD hk
    exact ⟨l', hrun, hD', htaken, rtListRemove_self htaken.alone⟩
  · exact ⟨rtListIsempty_iff hs, fun addr => rtListLen_eq hs addr⟩

end Circles

/-- Nodes 0, 1 and 2 in a circle and node 3 by itself. -/
def threeAndOne : Links (Fin 4) where
  next n := if n = 3 then some 3 else if n = 2 then some 0 else some (n + 1)
  prev n := if n = 3 then some 3 else if n = 0 then some 2 else some (n - 1)

theorem one_put_in : ∃ l', rtListInsertAfter threeAndOne 1 3 = some l' ∧
    Circle l' 0 [1, 3, 2] ∧ rtListLen l' 4 0 = some 3 := by
  have hlinked : ∀ n, threeAndOne.Linked n (if n = 3 then 3 else if n = 2 then 0 else n + 1) := by
    decide
  have hD : Circles threeAndOne Set.univ :=
    Circles.of_linked Set.finite_univ fun n _ => ⟨_, trivial, hlinked n⟩
  have hring : Circle threeAndOne 0 ([] ++ 1 :: [2]) := ⟨by decide, by decide⟩
  obtain ⟨hinsert, -⟩ := list_refines_sequences hD
  obtain ⟨⟨l', hrun, hD', hput, -⟩, -⟩ :=
    hinsert 1 trivial 3 trivial ⟨by decide, by decide⟩
  have hring' : Circle l' 0 ([] ++ 1 :: 3 :: [2]) := (hput (by decide)).behind hring
  obtain ⟨len, hlen, hrun'⟩ := rtListLen_eq hring' ⟨fun n => BitVec.ofNat 32 n.val, by decide⟩
  refine ⟨l', hrun, hring', ?_⟩
  rw [hrun' 4 (by decide)]
  exact congrArg some (BitVec.eq_of_toNat_eq hlen)

/-! ## The kernel's lists -/

section Heads
variable {H α : Type} [DecidableEq H] [DecidableEq α] {m : Links (Node H α)} {r : Rings H α}

/-- What is listed under a head follows it on its circle. -/
theorem rep_circle (hr : Rep m r) {hd : H} (hlive : r.live (.head hd) = true) :
    Circle m (.head hd) ((r.seq hd).map .item) := by
  refine ⟨hr.ring hd hlive, List.nodup_cons.mpr ⟨by simp, ?_⟩⟩
  exact (hr.valid.nodup hd).map fun a b hab => by injection hab

/-- The kernel's lists are a heap of this kind. -/
theorem rep_circles (hr : Rep m r) : Circles m {n | r.live n = true} := by
  have hhead : ∀ hd, r.live (.head hd) = true →
      ∀ n ∈ Node.head hd :: (r.seq hd).map .item, r.live n = true := by
    intro hd hlive n hn
    rcases List.mem_cons.mp hn with rfl | hn
    · exact hlive
    · obtain ⟨a, ha, rfl⟩ := List.mem_map.mp hn
      exact hr.valid.item_live ha
  intro n hn
  cases n with
  | head hd => exact ⟨_, rep_circle hr hn, fun x hx => hhead hd hn x (by simp [hx])⟩
  | item a =>
    by_cases hfree : r.Free a
    · exact ⟨[], ⟨List.isChain_pair.mpr (hr.free a hn hfree), List.nodup_singleton _⟩, by simp⟩
    · obtain ⟨hd, hmem⟩ : ∃ hd, a ∈ r.seq hd := by simpa [Rings.Free] using hfree
      have hlive := hr.valid.head_live (List.ne_nil_of_mem hmem)
      exact Circles.of_circle (rep_circle hr hlive) (hhead hd hlive) (by simp [hmem])

end Heads

end SampleRtos
