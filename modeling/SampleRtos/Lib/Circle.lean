import SampleRtos.Lib.Ring
import Mathlib.Data.List.Rotate
import Mathlib.Data.Set.Finite.Basic
import Mathlib.Dynamics.PeriodicPts.Lemmas

/-!
# Intrusive circles

The rings of Lib/Ring seen without heads: any node of a circle may be asked for the
sequence that follows it. `Circle l h s` says that the links lead from `h` through `s`
back to `h`, `Circles l D` that the nodes of `D` fall into such circles. On a finite
set that is the same as each link being answered by the one back (`Circles.iff_linked`).
-/

namespace Intrusive

section Circle
variable {ν : Type} {l l' : Links ν} {h m n x : ν} {s t xs ys : List ν}

/-- Forward from `h` the links visit the nodes `s` and come back to `h`, no node twice;
backward they visit the same nodes in reverse. -/
structure Circle (l : Links ν) (h : ν) (s : List ν) : Prop where
  chain : (h :: (s ++ [h])).IsChain l.Linked
  nodup : (h :: s).Nodup

instance [DecidableEq ν] {y : ν} : Decidable (l.Linked x y) :=
  inferInstanceAs (Decidable (_ ∧ _))

/-- Both links of `x` are the same in `l'` as in `l`. -/
def SameLinks (l l' : Links ν) (x : ν) : Prop := l'.next x = l.next x ∧ l'.prev x = l.prev x

namespace Circle

/-- A circle read from another of its nodes. -/
theorem rotate (hc : Circle l h (xs ++ m :: ys)) : Circle l m (ys ++ h :: xs) where
  chain := by
    have hchain : ((h :: xs) ++ m :: (ys ++ [h])).IsChain l.Linked := by simpa using hc.chain
    obtain ⟨hfront, hback⟩ := List.isChain_split.mp hchain
    have hturned : ((m :: ys) ++ h :: (xs ++ [m])).IsChain l.Linked :=
      List.isChain_split.mpr ⟨hback, hfront⟩
    simpa using hturned
  nodup := by
    have hperm : List.Perm (m :: (ys ++ h :: xs)) (h :: (xs ++ m :: ys)) := by
      rw [← List.cons_append, ← List.cons_append]
      exact List.perm_append_comm.trans (by simp)
    exact hperm.nodup_iff.mpr hc.nodup

/-- Every node of a circle can be its head. -/
theorem at_mem (hc : Circle l h s) (hx : x ∈ h :: s) :
    ∃ t, Circle l x t ∧ ∀ y, y ∈ x :: t ↔ y ∈ h :: s := by
  rcases List.mem_cons.mp hx with rfl | hx
  · exact ⟨s, hc, fun _ => .rfl⟩
  · obtain ⟨xs, ys, rfl⟩ := List.append_of_mem hx
    refine ⟨ys ++ h :: xs, hc.rotate, fun y => ?_⟩
    simp only [List.mem_cons, List.mem_append]
    tauto

theorem linked_next (hc : Circle l h s) : l.Linked h (s.headD h) := by
  cases s with
  | nil => exact (List.isChain_cons_cons.mp hc.chain).1
  | cons a s => exact (List.isChain_cons_cons.mp hc.chain).1

theorem linked_prev (hc : Circle l h s) : l.Linked (s.getLastD h) h := by
  rcases s.eq_nil_or_concat with rfl | ⟨s, p, rfl⟩
  · exact hc.linked_next
  · rw [List.concat_eq_append] at hc ⊢
    simpa using hc.rotate.linked_next

/-- The links determine the sequence that follows a node. -/
theorem unique (hs : Circle l h s) (ht : Circle l h t) : s = t := by
  suffices hgen : ∀ (n : ν) (s t : List ν), (n :: (s ++ [h])).IsChain l.Linked → h ∉ s →
      (n :: (t ++ [h])).IsChain l.Linked → h ∉ t → s = t from
    hgen h s t hs.chain (List.nodup_cons.mp hs.nodup).1 ht.chain (List.nodup_cons.mp ht.nodup).1
  intro n s
  induction s generalizing n with
  | nil =>
    intro t hs _ ht hht
    cases t with
    | nil => rfl
    | cons b t =>
      have hb := (List.isChain_cons_cons.mp ht).1.1
      rw [(List.isChain_cons_cons.mp hs).1.1] at hb
      exact absurd (Option.some.inj hb) (by rintro rfl; simp at hht)
  | cons a s ih =>
    intro t hs hhs ht hht
    obtain ⟨ha, hs⟩ := List.isChain_cons_cons.mp hs
    cases t with
    | nil =>
      have hh := (List.isChain_cons_cons.mp ht).1.1
      rw [ha.1] at hh
      exact absurd (Option.some.inj hh) (by rintro rfl; simp at hhs)
    | cons b t =>
      obtain ⟨hb, ht⟩ := List.isChain_cons_cons.mp ht
      obtain rfl : a = b := Option.some.inj (ha.1.symm.trans hb.1)
      rw [ih a t hs (by simp_all) ht (by simp_all)]

/-- Two circles with a node in common have all nodes in common. -/
theorem apart (hc : Circle l h s) (hc' : Circle l m t) (hm : m ∉ h :: s) (hx : x ∈ m :: t) :
    x ∉ h :: s := by
  intro hx'
  obtain ⟨u, hu, hmem⟩ := hc.at_mem hx'
  obtain ⟨u', hu', hmem'⟩ := hc'.at_mem hx
  obtain rfl := hu.unique hu'
  exact hm ((hmem m).mp ((hmem' m).mpr (by simp)))

/-- A circle depends on the links of its own nodes only. -/
theorem congr (hc : Circle l h s) (hsame : ∀ x ∈ h :: s, SameLinks l l' x) : Circle l' h s where
  chain := by
    have hmem : ∀ x ∈ h :: (s ++ [h]), x ∈ h :: s := by
      intro x hx
      simp only [List.mem_cons, List.mem_append, List.not_mem_nil, or_false] at hx ⊢
      tauto
    refine isChain_relink hc.chain fun x hx y hy hxy => ⟨?_, ?_⟩
    · rw [(hsame x (hmem x (List.dropLast_subset _ hx))).1, hxy.1]
    · rw [(hsame y (hmem y (List.mem_of_mem_tail hy))).2, hxy.2]
  nodup := hc.nodup

variable [DecidableEq ν]

/-- A node put in behind the head. -/
theorem splice (hc : Circle l m t) (hn : n ∉ m :: t) :
    Circle (l.splice m n (t.headD m)) m (n :: t) where
  chain := by
    obtain ⟨hnm, hnt⟩ : n ≠ m ∧ n ∉ t := by simpa using hn
    have hfirst : t.headD m ∉ (t ++ [m]).tail := by
      have hnd : (t ++ [m]).Nodup := (List.perm_append_singleton m t).nodup_iff.mpr hc.nodup
      cases t with
      | nil => simp
      | cons a t => exact (List.nodup_cons.mp hnd).1
    have hq : t.headD m ≠ n := by
      cases t with
      | nil => exact hnm.symm
      | cons a t => rintro rfl; simp at hnt
    have hrest : (t ++ [m]).IsChain (l.splice m n (t.headD m)).Linked := by
      refine isChain_relink hc.chain.tail fun x hx y hy hxy => ?_
      rw [List.dropLast_concat] at hx
      have hyn : y ≠ n := by
        rintro rfl
        exact hn (by simpa [or_comm] using List.mem_of_mem_tail hy)
      exact Links.splice_of_ne hxy (by rintro rfl; exact (List.nodup_cons.mp hc.nodup).1 hx)
        (by rintro rfl; exact hnt hx) (by rintro rfl; exact hfirst hy) hyn
    refine List.isChain_cons_cons.mpr ⟨Links.splice_left hq, ?_⟩
    have hright : (l.splice m n (t.headD m)).Linked n (t.headD m) := Links.splice_right hnm.symm
    cases t with
    | nil => exact List.isChain_pair.mpr hright
    | cons a t => exact List.isChain_cons_cons.mpr ⟨hright, hrest⟩
  nodup := by
    obtain ⟨hnm, hnt⟩ : n ≠ m ∧ n ∉ t := by simpa using hn
    obtain ⟨hmt, ht⟩ := List.nodup_cons.mp hc.nodup
    exact List.nodup_cons.mpr ⟨by simp [hnm.symm, hmt], List.nodup_cons.mpr ⟨hnt, ht⟩⟩

/-- The circle that is left when its head is taken out. -/
theorem unlink (hc : Circle l n (m :: t)) :
    Circle (l.unlink ((m :: t).getLastD n) n m) m t where
  chain := by
    obtain ⟨hn, hmt⟩ := List.nodup_cons.mp hc.nodup
    have hlast : (m :: t).getLastD n = (m :: t).getLast (by simp) := by
      rw [List.getLastD_eq_getLast?, List.getLast?_eq_some_getLast (by simp), Option.getD_some]
    have hinner : (m :: t).IsChain (l.unlink ((m :: t).getLastD n) n m).Linked := by
      have hold : ((m :: t) ++ [n]).IsChain l.Linked := hc.chain.tail
      refine isChain_relink hold.left_of_append fun x hx y hy hxy => ?_
      have hxm : x ∈ m :: t := List.dropLast_subset _ hx
      have hym : y ∈ m :: t := List.mem_of_mem_tail hy
      refine Links.unlink_of_ne hxy ?_ (by rintro rfl; exact hn hxm) ?_
        (by rintro rfl; exact hn hym)
      · rintro rfl
        rw [hlast] at hx
        have hnd := hmt
        rw [← List.dropLast_append_getLast (l := m :: t) (by simp)] at hnd
        exact (List.nodup_append.mp hnd).2.2 _ hx _ (by simp) rfl
      · rintro rfl
        exact (List.nodup_cons.mp hmt).1 hy
    have hmem : (m :: t).getLastD n ∈ m :: t := by rw [hlast]; exact List.getLast_mem _
    show ((m :: t) ++ [m]).IsChain _
    refine List.isChain_append.mpr ⟨hinner, List.isChain_singleton m, fun x hx y hy => ?_⟩
    obtain rfl : m = y := by simpa using hy
    have hxl : x = (m :: t).getLastD n := by
      rw [List.getLastD_eq_getLast?, Option.mem_def.mp hx, Option.getD_some]
    rw [hxl]
    exact Links.unlink_across (by intro heq; exact hn (heq ▸ hmem)) (by rintro rfl; simp at hn)
  nodup := (List.nodup_cons.mp hc.nodup).2

end Circle

/-! ## Putting in and taking out -/

/-- `n` stands directly behind `m` wherever `m` stands, and nothing else has changed. -/
structure PutBehind (l l' : Links ν) (m n : ν) : Prop where
  front : ∀ {s}, Circle l m s → Circle l' m (n :: s)
  behind : ∀ {h xs ys}, Circle l h (xs ++ m :: ys) → Circle l' h (xs ++ m :: n :: ys)
  other : ∀ x, x ≠ n → (∀ s, Circle l m s → x ∉ m :: s) → SameLinks l l' x

/-- `n` stands directly in front of `m` wherever `m` stands, and nothing else has changed. -/
structure PutBefore (l l' : Links ν) (m n : ν) : Prop where
  back : ∀ {s}, Circle l m s → Circle l' m (s ++ [n])
  before : ∀ {h xs ys}, Circle l h (xs ++ m :: ys) → Circle l' h (xs ++ n :: m :: ys)
  other : ∀ x, x ≠ n → (∀ s, Circle l m s → x ∉ m :: s) → SameLinks l l' x

/-- `n` is taken out wherever it stood and is a circle of its own, and nothing else has
changed. -/
structure TakenOut (l l' : Links ν) (n : ν) : Prop where
  alone : Circle l' n []
  gone : ∀ {h xs ys}, Circle l h (xs ++ n :: ys) → Circle l' h (xs ++ ys)
  other : ∀ x, (∀ s, Circle l n s → x ∉ n :: s) → SameLinks l l' x

variable [DecidableEq ν]

theorem sameLinks_splice {p q : ν} (hp : x ≠ p) (hn : x ≠ n) (hq : x ≠ q) :
    SameLinks l (l.splice p n q) x := by
  simp [SameLinks, Links.splice, hp, hn, hq]

theorem sameLinks_unlink {p q : ν} (hp : x ≠ p) (hn : x ≠ n) (hq : x ≠ q) :
    SameLinks l (l.unlink p n q) x := by
  simp [SameLinks, Links.unlink, hp, hn, hq]

section
omit [DecidableEq ν]

theorem headD_mem (m : ν) (t : List ν) : t.headD m ∈ m :: t := by
  cases t <;> simp

theorem getLastD_mem (m : ν) (t : List ν) : t.getLastD m ∈ m :: t := by
  rcases t.eq_nil_or_concat with rfl | ⟨t, p, rfl⟩ <;> simp

/-- A node that is a circle of its own is on no other. -/
theorem Circle.not_mem_of_alone (hc : Circle l m t) (hn : Circle l n []) (hmn : m ≠ n) :
    n ∉ m :: t := by
  intro hmem
  exact hn.apart hc (by simpa using hmn) hmem (by simp)

end

/-- Linking a node to itself that is linked to itself changes nothing. -/
theorem Circle.update_alone (hn : Circle l n []) :
    Function.update l.next n (some n) = l.next ∧ Function.update l.prev n (some n) = l.prev := by
  have hlink : l.Linked n n := hn.linked_next
  constructor
  · rw [← hlink.1, Function.update_eq_self]
  · rw [← hlink.2, Function.update_eq_self]

theorem Circle.putBehind (hc : Circle l m t) (hn : Circle l n []) (hmn : m ≠ n) :
    PutBehind l (l.splice m n (t.headD m)) m n where
  front hs := by
    obtain rfl := hs.unique hc
    exact hs.splice (hs.not_mem_of_alone hn hmn)
  behind {h xs ys} hs := by
    have hrot := hs.rotate
    obtain rfl := hrot.unique hc
    have hput : Circle _ m ((n :: ys) ++ h :: xs) := hrot.splice (hrot.not_mem_of_alone hn hmn)
    exact hput.rotate
  other x hxn hx := by
    have hx := hx t hc
    refine sameLinks_splice ?_ hxn ?_
    · rintro rfl; simp at hx
    · rintro rfl; exact hx (headD_mem _ _)

section
omit [DecidableEq ν]

/-- In front of `m` is behind its predecessor. -/
theorem PutBehind.putBefore {p : ν} (hput : PutBehind l l' p n) (hc : Circle l m t)
    (hp : p = t.getLastD m) : PutBefore l l' m n where
  back {s} hs := by
    obtain rfl := hs.unique hc
    rcases s.eq_nil_or_concat with rfl | ⟨s, q, rfl⟩
    · obtain rfl : p = m := hp
      exact hput.front hs
    · obtain rfl : p = q := by simpa using hp
      rw [List.concat_eq_append] at hs ⊢
      simpa using hput.behind hs
  before {h xs ys} hs := by
    obtain rfl := hs.rotate.unique hc
    rcases xs.eq_nil_or_concat with rfl | ⟨xs, q, rfl⟩
    · obtain rfl : p = h := by simpa using hp
      exact hput.front hs
    · obtain rfl : p = q := by
        rw [List.concat_eq_append, ← List.cons_append, ← List.append_assoc] at hp
        rwa [List.getLastD_concat] at hp
      have hs' : Circle l h (xs ++ p :: m :: ys) := by simpa using hs
      simpa using hput.behind hs'
  other x hxn hx := by
    refine hput.other x hxn fun s hs hxs => hx t hc ?_
    obtain ⟨u, hu, hmem⟩ := hc.at_mem (getLastD_mem _ _)
    rw [← hp] at hu hmem
    obtain rfl := hs.unique hu
    exact (hmem x).mp hxs

end

theorem Circle.takenOut (hc : Circle l n t) :
    TakenOut l (l.unlink (t.getLastD n) n (t.headD n)) n where
  alone := ⟨List.isChain_pair.mpr Links.unlink_self, List.nodup_singleton n⟩
  gone {h xs ys} hs := by
    have hrot := hs.rotate
    obtain rfl := hrot.unique hc
    cases ys with
    | nil => simpa using hrot.unlink
    | cons a ys => exact Circle.rotate (by simpa using hrot.unlink)
  other x hx := by
    have hx := hx t hc
    refine sameLinks_unlink ?_ ?_ ?_
    · rintro rfl; exact hx (getLastD_mem _ _)
    · rintro rfl; simp at hx
    · rintro rfl; exact hx (headD_mem _ _)

/-- Linking a node to itself makes it a circle of its own. -/
theorem Circle.selfLink (l : Links ν) (n : ν) : Circle (l.selfLink n) n [] :=
  ⟨List.isChain_pair.mpr (l.selfLink_linked n), List.nodup_singleton n⟩

/-! ## Partitions -/

/-- The nodes of `D` fall into circles. -/
def Circles (l : Links ν) (D : Set ν) : Prop := ∀ n ∈ D, ∃ s, Circle l n s ∧ ∀ x ∈ s, x ∈ D

section
omit [DecidableEq ν]

/-- A circle apart from the one that `SameLinks` excepts stands as it stood. -/
theorem Circle.stays (hc : Circle l m s) (hx : Circle l x t) (hxs : x ∉ m :: s)
    (hsame : ∀ y ∈ x :: t, y ∉ m :: s → SameLinks l l' y) : Circle l' x t :=
  hx.congr fun y hy => hsame y hy (hc.apart hx hxs hy)

end

namespace Circles
variable {D : Set ν}

section
omit [DecidableEq ν]

theorem mem_of_circle (hD : Circles l D) (hn : n ∈ D) (hs : Circle l n s) {x : ν}
    (hx : x ∈ n :: s) : x ∈ D := by
  obtain ⟨t, ht, hmem⟩ := hD n hn
  obtain rfl := hs.unique ht
  rcases List.mem_cons.mp hx with rfl | hx
  · exact hn
  · exact hmem x hx

/-- Every node on a circle of nodes of `D` has a circle in `D`. -/
theorem of_circle (hc : Circle l m s) (hm : ∀ y ∈ m :: s, y ∈ D) (hx : x ∈ m :: s) :
    ∃ t, Circle l x t ∧ ∀ y ∈ t, y ∈ D := by
  obtain ⟨t, ht, hmem⟩ := hc.at_mem hx
  exact ⟨t, ht, fun y hy => hm y ((hmem y).mp (by simp [hy]))⟩

end

theorem putBehind (hD : Circles l D) (hput : PutBehind l l' m n) (hm : m ∈ D) (hn : n ∈ D)
    (hself : Circle l n []) : Circles l' D := by
  intro x hx
  obtain ⟨s, hs, -⟩ := hD m hm
  by_cases hxs : x ∈ m :: n :: s
  · refine of_circle (hput.front hs) (fun y hy => ?_) hxs
    rcases List.mem_cons.mp hy with rfl | hy
    · exact hm
    · rcases List.mem_cons.mp hy with rfl | hy
      · exact hn
      · exact hD.mem_of_circle hm hs (by simp [hy])
  · obtain ⟨t, ht, hmem⟩ := hD x hx
    have hxm : x ∉ m :: s := by simp at hxs ⊢; tauto
    have hxn : x ∉ [n] := by simp at hxs ⊢; tauto
    refine ⟨t, hs.stays ht hxm fun y hy hyms => hput.other y ?_ fun u hu => ?_, hmem⟩
    · rintro rfl
      exact hself.apart ht hxn hy (by simp)
    · rwa [hu.unique hs]

theorem takenOut (hD : Circles l D) (htaken : TakenOut l l' n) (hn : n ∈ D) : Circles l' D := by
  intro x hx
  obtain ⟨s, hs, -⟩ := hD n hn
  by_cases hxs : x ∈ n :: s
  · rcases List.mem_cons.mp hxs with rfl | hxs
    · exact ⟨[], htaken.alone, by simp⟩
    · obtain ⟨xs, ys, rfl⟩ := List.append_of_mem hxs
      refine ⟨ys ++ xs, htaken.gone hs.rotate, fun y hy => hD.mem_of_circle hn hs ?_⟩
      simp only [List.mem_append, List.mem_cons] at hy ⊢
      tauto
  · obtain ⟨t, ht, hmem⟩ := hD x hx
    exact ⟨t, hs.stays ht hxs fun y _ hy => htaken.other y fun u hu => by rwa [hu.unique hs], hmem⟩

/-- Nodes that were linked to themselves, and were on no circle of `D`, join in. -/
theorem selfLink (hD : Circles l D) (hn : n ∉ D) : Circles (l.selfLink n) (insert n D) := by
  intro x hx
  rcases Set.mem_insert_iff.mp hx with rfl | hxD
  · exact ⟨[], .selfLink l x, by simp⟩
  · obtain ⟨s, hs, hmem⟩ := hD x hxD
    refine ⟨s, hs.congr fun y hy => ?_, fun y hy => .inr (hmem y hy)⟩
    have hyn : y ≠ n := by rintro rfl; exact hn (hD.mem_of_circle hxD hs hy)
    simp [SameLinks, Links.selfLink, hyn]

section
omit [DecidableEq ν]

/-- Finitely many nodes fall into circles as soon as each leads to one that leads back. -/
theorem of_linked (hfin : D.Finite) (hD : ∀ n ∈ D, ∃ q ∈ D, l.Linked n q) : Circles l D := by
  intro n hn
  have hnext : ∀ x : D, ∃ q : D, l.Linked x.1 q.1 := fun x =>
    let ⟨q, hq, hlink⟩ := hD x.1 x.2
    ⟨⟨q, hq⟩, hlink⟩
  choose f hf using hnext
  have hinj : Function.Injective f := by
    intro x y hxy
    have hx := (hf x).2
    rw [hxy, (hf y).2] at hx
    exact Subtype.ext (Option.some.inj hx).symm
  have : Finite D := hfin
  -- walking on from `n` for `k` steps returns to it for the first time
  have hk := Function.minimalPeriod_pos_of_mem_periodicPts (hinj.mem_periodicPts ⟨n, hn⟩)
  have hback := Function.iterate_minimalPeriod (f := f) (x := ⟨n, hn⟩)
  have honce := Function.iterate_injOn_Iio_minimalPeriod (f := f) (x := ⟨n, hn⟩)
  generalize Function.minimalPeriod f ⟨n, hn⟩ = k at hk hback honce
  obtain ⟨k, rfl⟩ : ∃ j, k = j + 1 := ⟨k - 1, by omega⟩
  let walk : Nat → ν := fun i => (f^[i] ⟨n, hn⟩).1
  have hwalk : n :: (List.range k).map (fun i => walk (i + 1)) = (List.range (k + 1)).map walk := by
    rw [List.range_succ_eq_map, List.map_cons, List.map_map]
    rfl
  refine ⟨(List.range k).map fun i => walk (i + 1), ⟨?_, ?_⟩, fun x hx => ?_⟩
  · have hround : n :: ((List.range k).map (fun i => walk (i + 1)) ++ [n]) =
        (List.range (k + 2)).map walk := by
      rw [← List.cons_append, hwalk, List.range_succ (n := k + 1), List.map_append,
        List.map_singleton, show walk (k + 1) = n by simp only [walk, hback]]
    rw [hround, List.isChain_map, List.isChain_range_succ]
    intro i _
    simp only [walk, Nat.succ_eq_add_one, Function.iterate_succ_apply']
    exact hf _
  · rw [hwalk]
    refine List.nodup_range.map_on fun i hi j hj hij => ?_
    exact honce (by simpa using hi) (by simpa using hj) (Subtype.ext hij)
  · obtain ⟨i, -, rfl⟩ := List.mem_map.mp hx
    exact (f^[i + 1] ⟨n, hn⟩).2

/-- On finitely many nodes: every node leads to one that leads back to it. -/
theorem iff_linked (hfin : D.Finite) : Circles l D ↔ ∀ n ∈ D, ∃ q ∈ D, l.Linked n q := by
  refine ⟨fun hD n hn => ?_, of_linked hfin⟩
  obtain ⟨s, hs, -⟩ := hD n hn
  exact ⟨_, hD.mem_of_circle hn hs (headD_mem n s), hs.linked_next⟩

end

end Circles

end Circle

end Intrusive
