import Mathlib

/-!
Dealing items out to bins in turn.

The item at position `i` goes to the bin at position `i` modulo the number
of bins. How many items a bin gets is a count of positions in one residue
class, and so the bins in front, as many as the items leave over, get one
more than the others.
-/

namespace DraEnv.Foundation

variable {α β : Type}

/-- The bin a position falls to. -/
def pick (bins : List α) (hbins : bins ≠ []) (i : Nat) : α :=
  bins.get ⟨i % bins.length, Nat.mod_lt _ (List.length_pos_iff.mpr hbins)⟩

/-- The items with their bins, the first one at position `start`. -/
def deal (bins : List α) (hbins : bins ≠ []) (start : Nat) (items : List β) : List (β × α) :=
  (items.zipIdx start).map fun item => (item.1, pick bins hbins item.2)

/-- How many items a bin has. -/
def load [DecidableEq α] (dealt : List (β × α)) (bin : α) : Nat :=
  (dealt.map Prod.snd).count bin

section

variable {bins : List α} {hbins : bins ≠ []} {items : List β}

theorem pick_mem (hbins : bins ≠ []) (i : Nat) : pick bins hbins i ∈ bins := List.get_mem _ _

theorem map_snd_deal :
    (deal bins hbins 0 items).map Prod.snd = (List.range items.length).map (pick bins hbins) := by
  rw [List.range_eq_range', ← List.zipIdx_map_snd 0 items, deal, List.map_map, List.map_map]
  rfl

theorem pick_eq_iff (hnodup : bins.Nodup) {i j : Nat} (hj : j < bins.length) :
    pick bins hbins i = bins[j] ↔ i ≡ j [MOD bins.length] := by
  rw [pick, List.get_eq_getElem, hnodup.getElem_inj_iff, Nat.ModEq, Nat.mod_eq_of_lt hj]

variable [DecidableEq α]

/-- The number of items in the bin at a position. -/
theorem load_deal (hnodup : bins.Nodup) {j : Nat} (hj : j < bins.length) :
    load (deal bins hbins 0 items) bins[j] =
      items.length / bins.length + if j < items.length % bins.length then 1 else 0 := by
  have hpos : 0 < bins.length := List.length_pos_iff.mpr hbins
  -- the bin has the items at the positions of its residue class
  have hcount : load (deal bins hbins 0 items) bins[j] =
      Nat.count (· ≡ j [MOD bins.length]) items.length := by
    rw [load, map_snd_deal, List.count_eq_countP, List.countP_map, Nat.count]
    congr 1
    ext i
    rw [Function.comp_apply, beq_eq_decide, decide_eq_decide]
    exact pick_eq_iff hnodup hj
  rw [hcount, Nat.count_modEq_card _ hpos, Nat.mod_eq_of_lt hj]

theorem load_front (hnodup : bins.Nodup) {bin : α}
    (hbin : bin ∈ bins.take (items.length % bins.length)) :
    load (deal bins hbins 0 items) bin = items.length / bins.length + 1 := by
  obtain ⟨j, hj, rfl⟩ := List.getElem_of_mem hbin
  rw [List.length_take, lt_min_iff] at hj
  rw [List.getElem_take, load_deal hnodup hj.2, if_pos hj.1]

theorem load_back (hnodup : bins.Nodup) {bin : α}
    (hbin : bin ∈ bins.drop (items.length % bins.length)) :
    load (deal bins hbins 0 items) bin = items.length / bins.length := by
  obtain ⟨j, hj, rfl⟩ := List.getElem_of_mem hbin
  rw [List.length_drop] at hj
  rw [List.getElem_drop, load_deal hnodup (by omega), if_neg (by omega), add_zero]

theorem load_le (hnodup : bins.Nodup) {a b : α} (ha : a ∈ bins) (hb : b ∈ bins) :
    load (deal bins hbins 0 items) a ≤ load (deal bins hbins 0 items) b + 1 := by
  obtain ⟨i, hi, rfl⟩ := List.getElem_of_mem ha
  obtain ⟨j, hj, rfl⟩ := List.getElem_of_mem hb
  rw [load_deal hnodup hi, load_deal hnodup hj]
  split <;> split <;> omega

/-- Every item is in some bin. -/
theorem sum_load (hnodup : bins.Nodup) :
    (bins.map (load (deal bins hbins 0 items))).sum = items.length := by
  have hmem : ∀ bin ∈ ((List.range items.length).map (pick bins hbins) : Multiset α),
      bin ∈ bins.toFinset := by
    simp [pick_mem]
  have hsum := Multiset.sum_count_eq_card hmem
  rw [List.sum_toFinset _ hnodup, Multiset.coe_card, List.length_map, List.length_range] at hsum
  rw [← hsum]
  refine congrArg List.sum (List.map_congr_left fun bin _ => ?_)
  rw [load, map_snd_deal, Multiset.coe_count]

end

end DraEnv.Foundation
