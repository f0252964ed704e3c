import Mathlib.Algebra.Order.Group.Multiset
import PrivacyPool.Base.HashMap

/-!
# Streams that are merged from their heads

A stream is a state from which items are taken one at a time. A merge looks at the
heads of some streams, keyed by their positions in a list, and takes the heads of a
group at once.

## Main definitions

* `Streams.items` — the items that are left in a list of streams
* `Streams.Heads` — a map from positions to the next items of the streams there
* `Streams.numBelow` — the number of streams with an item below a key

## Main results

* `Streams.Heads.items_eq` — heads that are taken leave the other items
* `Streams.Heads.forall_items` — a bound of the heads bounds all items of sorted streams
* `Streams.Heads.length_le_add` — the heads are of the highest key, or of streams below it
-/

namespace Streams

open HashMap

universe u v

variable {σ : Type u} {α : Type v} {pending : σ → Multiset α} {pop : σ → σ}

/-- The items that are left in the streams. -/
def items (pending : σ → Multiset α) (streams : List σ) : Multiset α :=
  (streams.map pending).sum

/-- Take the heads at the given positions. -/
def popAll (pop : σ → σ) (streams : List σ) (positions : List ℕ) : List σ :=
  positions.foldl (fun streams position => streams.modify position pop) streams

theorem mem_items {streams : List σ} {a : α} :
    a ∈ items pending streams ↔ ∃ s ∈ streams, a ∈ pending s := by
  induction streams with
  | nil => simp [items]
  | cons s streams ih =>
    unfold items at ih ⊢
    rw [List.map_cons, List.sum_cons, Multiset.mem_add, ih]
    simp

theorem items_modify {streams : List σ} {position : ℕ} {s : σ} {a : α}
    (hs : streams[position]? = some s) (hpop : pending s = a ::ₘ pending (pop s)) :
    items pending streams = a ::ₘ items pending (streams.modify position pop) := by
  induction streams generalizing position with
  | nil => cases hs
  | cons s' streams ih =>
    unfold items at ih ⊢
    cases position with
    | zero =>
      obtain rfl : s' = s := Option.some.inj hs
      rw [List.modify_zero_cons, List.map_cons, List.map_cons, List.sum_cons, List.sum_cons, hpop,
        Multiset.cons_add]
    | succ position =>
      rw [List.modify_succ_cons, List.map_cons, List.map_cons, List.sum_cons, List.sum_cons,
        ih hs, Multiset.add_cons]

theorem getElem?_popAll_of_notMem {streams : List σ} {positions : List ℕ} {position : ℕ}
    (h : position ∉ positions) : (popAll pop streams positions)[position]? = streams[position]? := by
  induction positions generalizing streams with
  | nil => rfl
  | cons first positions ih =>
    obtain ⟨hne, hrest⟩ := not_or.mp (mt List.mem_cons.mpr h)
    exact (ih hrest).trans (List.getElem?_modify_ne _ _ (Ne.symm hne))

theorem countP_modify {streams : List σ} {position : ℕ} {s : σ} {p : σ → Bool}
    (hs : streams[position]? = some s) (hp : p (pop s) = p s) :
    (streams.modify position pop).countP p = streams.countP p := by
  induction streams generalizing position with
  | nil => cases hs
  | cons s' streams ih =>
    cases position with
    | zero =>
      obtain rfl : s' = s := Option.some.inj hs
      rw [List.modify_zero_cons, List.countP_cons, List.countP_cons, hp]
    | succ position => rw [List.modify_succ_cons, List.countP_cons, List.countP_cons, ih hs]

/-- A stream after heads were taken is a stream before, or one that was popped. -/
theorem mem_popAll {streams : List σ} {positions : List ℕ} {P : σ → Prop}
    (hpop : ∀ s, P s → P (pop s)) (hstreams : ∀ s ∈ streams, P s) :
    ∀ s ∈ popAll pop streams positions, P s := by
  induction positions generalizing streams with
  | nil => exact hstreams
  | cons position positions ih =>
    refine ih fun s hs => ?_
    obtain ⟨i, hi⟩ := List.getElem?_of_mem hs
    rw [List.getElem?_modify] at hi
    obtain ⟨s', hs', rfl⟩ := Option.map_eq_some_iff.mp hi
    have hold := hstreams s' (List.mem_of_getElem? hs')
    split_ifs
    · exact hpop s' hold
    · exact hold

/-- A map from positions to the next items of the streams there. -/
structure Heads (pending : σ → Multiset α) (pop : σ → σ) (streams : List σ)
    (heads : List (ℕ × α)) : Prop where
  nodup : (keys heads).Nodup
  head : ∀ entry ∈ heads, ∃ s, streams[entry.1]? = some s ∧
    pending s = entry.2 ::ₘ pending (pop s)

namespace Heads

variable {streams : List σ} {heads : List (ℕ × α)}

theorem nil : Heads pending pop streams [] := ⟨List.nodup_nil, by simp⟩

theorem sublist {heads' : List (ℕ × α)} (h : Heads pending pop streams heads)
    (hsub : heads'.Sublist heads) : Heads pending pop streams heads' :=
  ⟨h.nodup.sublist (hsub.map _), fun entry hentry => h.head entry (hsub.subset hentry)⟩

/-- Heads stay heads when those of other streams are taken. -/
theorem popAll {positions : List ℕ} (h : Heads pending pop streams heads)
    (hother : ∀ position ∈ positions, position ∉ keys heads) :
    Heads pending pop (popAll pop streams positions) heads := by
  refine ⟨h.nodup, fun entry hentry => ?_⟩
  obtain ⟨s, hs, hpop⟩ := h.head entry hentry
  refine ⟨s, ?_, hpop⟩
  rw [getElem?_popAll_of_notMem fun hmem => hother _ hmem (mem_keys_of_mem hentry), hs]

/-- Heads that are taken leave the other items. -/
theorem items_eq (h : Heads pending pop streams heads) :
    items pending streams =
      (heads.map Prod.snd : List α) + items pending (Streams.popAll pop streams (keys heads)) := by
  induction heads generalizing streams with
  | nil => exact (zero_add _).symm
  | cons entry heads ih =>
    obtain ⟨s, hs, hpop⟩ := h.head entry List.mem_cons_self
    have hnodup : entry.1 ∉ keys heads := (List.nodup_cons.mp h.nodup).1
    have hrest : Heads pending pop (streams.modify entry.1 pop) heads := by
      have hother : ∀ position ∈ [entry.1], position ∉ keys heads :=
        fun position hposition => List.mem_singleton.mp hposition ▸ hnodup
      exact (h.sublist (List.sublist_cons_self _ _)).popAll hother
    rw [items_modify hs hpop, ih hrest, List.map_cons, ← Multiset.cons_coe, Multiset.cons_add]
    rfl

theorem snd_mem_items (h : Heads pending pop streams heads) {entry : ℕ × α} (hentry : entry ∈ heads) :
    entry.2 ∈ items pending streams := by
  obtain ⟨s, hs, hpop⟩ := h.head entry hentry
  refine mem_items.mpr ⟨s, List.mem_of_getElem? hs, ?_⟩
  rw [hpop]
  exact Multiset.mem_cons_self _ _

/-- There are no more heads than items. -/
theorem length_le (h : Heads pending pop streams heads) :
    heads.length ≤ (items pending streams).card := by
  rw [h.items_eq, Multiset.card_add, Multiset.coe_card, List.length_map]
  exact Nat.le_add_right _ _

end Heads

/-! ### Keys -/

variable {ι : Type*} {key : α → ι}

/-- Every stream that is not empty has its head in the map. -/
def Complete (pending : σ → Multiset α) (streams : List σ) (heads : List (ℕ × α)) : Prop :=
  ∀ position s, streams[position]? = some s → pending s ≠ 0 → position ∈ keys heads

/-- In a sorted stream no item has a larger key than the head. -/
def Sorted [LE ι] (key : α → ι) (pending : σ → Multiset α) (pop : σ → σ) (s : σ) : Prop :=
  ∀ a, pending s = a ::ₘ pending (pop s) → ∀ b ∈ pending s, key b ≤ key a

/-- What holds of all keys up to that of a head holds of all items. -/
theorem Heads.forall_items [LE ι] {streams : List σ} {heads : List (ℕ × α)}
    (h : Heads pending pop streams heads) (hcomplete : Complete pending streams heads)
    (hsorted : ∀ s ∈ streams, Sorted key pending pop s) {P : ι → Prop}
    (hheads : ∀ entry ∈ heads, ∀ i, i ≤ key entry.2 → P i) :
    ∀ a ∈ items pending streams, P (key a) := by
  intro a ha
  obtain ⟨s, hs, hmem⟩ := mem_items.mp ha
  obtain ⟨position, hposition⟩ := List.getElem?_of_mem hs
  have hne : pending s ≠ 0 := fun h0 => Multiset.notMem_zero a (h0 ▸ hmem)
  obtain ⟨entry, hentry, rfl⟩ := List.mem_map.mp (hcomplete position s hposition hne)
  obtain ⟨s', hs', hpop⟩ := h.head entry hentry
  obtain rfl : s' = s := Option.some.inj (hs'.symm.trans hposition)
  exact hheads entry hentry _ (hsorted s' hs entry.2 hpop a hmem)

/-! ### Streams below a key -/

section Below

variable [LinearOrder ι] {streams : List σ} {heads : List (ℕ × α)} {k : ι}

/-- The number of streams with an item below a key. -/
def numBelow (key : α → ι) (pending : σ → Multiset α) (streams : List σ) (k : ι) : ℕ :=
  streams.countP fun s => 0 < (pending s).countP fun a => key a < k

/-- The positions of the streams with a property. -/
def positionsOf (p : σ → Bool) (streams : List σ) : List ℕ :=
  (streams.zipIdx.filter fun entry => p entry.1).map Prod.snd

theorem mem_positionsOf {p : σ → Bool} {position : ℕ} :
    position ∈ positionsOf p streams ↔ ∃ s, streams[position]? = some s ∧ p s = true := by
  constructor
  · intro hmem
    obtain ⟨⟨s, position⟩, hentry, rfl⟩ := List.mem_map.mp hmem
    obtain ⟨hzip, hp⟩ := List.mem_filter.mp hentry
    exact ⟨s, List.mk_mem_zipIdx_iff_getElem?.mp hzip, hp⟩
  · rintro ⟨s, hs, hp⟩
    refine List.mem_map.mpr ⟨(s, position), List.mem_filter.mpr ⟨?_, hp⟩, rfl⟩
    exact List.mk_mem_zipIdx_iff_getElem?.mpr hs

theorem nodup_positionsOf (p : σ → Bool) (streams : List σ) : (positionsOf p streams).Nodup := by
  have hnodup : (streams.zipIdx.map Prod.snd).Nodup := by
    rw [List.zipIdx_map_snd]
    exact List.nodup_range'
  exact hnodup.sublist (List.filter_sublist.map _)

theorem length_positionsOf (p : σ → Bool) (streams : List σ) :
    (positionsOf p streams).length = streams.countP p := by
  rw [positionsOf, List.length_map, ← List.countP_eq_length_filter]
  conv_rhs => rw [← List.zipIdx_map_fst 0 streams, List.countP_map]
  rfl

/-- When no item is above a key, the heads are of that key, or of streams with items below. -/
theorem Heads.length_le_add (h : Heads pending pop streams heads)
    (hkey : ∀ a ∈ items pending streams, key a ≤ k) :
    heads.length ≤ ((items pending streams).filter fun a => key a = k).card +
      numBelow key pending streams k := by
  have hat : (heads.filter fun entry => key entry.2 = k).length ≤
      ((items pending streams).filter fun a => key a = k).card := by
    rw [h.items_eq, Multiset.filter_add, Multiset.card_add, Multiset.filter_coe, List.filter_map,
      Multiset.coe_card, List.length_map]
    exact Nat.le_add_right _ _
  have hbelow : (heads.filter fun entry => ¬key entry.2 = k).length ≤
      numBelow key pending streams k := by
    have hsub := h.sublist (heads.filter_sublist (p := fun entry => ¬key entry.2 = k))
    rw [numBelow, ← length_positionsOf, ← List.length_map (f := Prod.fst)]
    refine (hsub.nodup.subperm fun position hposition => ?_).length_le
    obtain ⟨entry, hentry, rfl⟩ := List.mem_map.mp hposition
    obtain ⟨hmem, hne⟩ := List.mem_filter.mp hentry
    obtain ⟨s, hs, hpop⟩ := h.head entry hmem
    refine mem_positionsOf.mpr ⟨s, hs, decide_eq_true (Multiset.countP_pos.mpr ⟨entry.2, ?_, ?_⟩)⟩
    · rw [hpop]
      exact Multiset.mem_cons_self _ _
    · exact lt_of_le_of_ne (hkey _ (h.snd_mem_items hmem)) (of_decide_eq_true hne)
  have hsplit := heads.length_eq_length_filter_add fun entry => key entry.2 = k
  simp only [decide_not] at hbelow
  omega

/-- When every head is in the map, so are those of streams with items below a key. -/
theorem Complete.numBelow_le (h : Complete pending streams heads) :
    numBelow key pending streams k ≤ heads.length := by
  rw [numBelow, ← length_positionsOf, ← List.length_map (f := Prod.fst)]
  refine ((nodup_positionsOf _ streams).subperm fun position hposition => ?_).length_le
  obtain ⟨s, hs, hp⟩ := mem_positionsOf.mp hposition
  obtain ⟨a, ha, -⟩ := Multiset.countP_pos.mp (of_decide_eq_true hp)
  exact h position s hs fun h0 => Multiset.notMem_zero a (h0 ▸ ha)

/-- Heads of a key that are taken leave the streams with items below. -/
theorem numBelow_popAll (h : Heads pending pop streams heads)
    (hkey : ∀ entry ∈ heads, key entry.2 = k) :
    numBelow key pending (popAll pop streams (keys heads)) k = numBelow key pending streams k := by
  induction heads generalizing streams with
  | nil => rfl
  | cons entry heads ih =>
    obtain ⟨hentry, hrest⟩ := List.forall_mem_cons.mp hkey
    obtain ⟨s, hs, hpop⟩ := h.head entry List.mem_cons_self
    have hnodup : entry.1 ∉ keys heads := (List.nodup_cons.mp h.nodup).1
    have hother : ∀ position ∈ [entry.1], position ∉ keys heads :=
      fun position hposition => List.mem_singleton.mp hposition ▸ hnodup
    have hheads := (h.sublist (List.sublist_cons_self _ _)).popAll hother
    refine (ih hheads hrest).trans ?_
    have hsame : (pending (pop s)).countP (fun a => key a < k) =
        (pending s).countP fun a => key a < k := by
      rw [hpop, Multiset.countP_cons_of_neg (p := fun a => key a < k) _ hentry.not_lt]
    exact countP_modify hs (by rw [hsame])

end Below

/-- When there is no head there is no item. -/
theorem items_eq_zero {streams : List σ} (hcomplete : Complete pending streams []) :
    items pending streams = 0 := by
  refine Multiset.eq_zero_of_forall_notMem fun a ha => ?_
  obtain ⟨s, hs, hmem⟩ := mem_items.mp ha
  obtain ⟨position, hposition⟩ := List.getElem?_of_mem hs
  refine List.not_mem_nil (hcomplete position s hposition fun h0 => ?_)
  exact Multiset.notMem_zero a (h0 ▸ hmem)

end Streams
