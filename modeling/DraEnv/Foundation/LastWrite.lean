import Mathlib

/-!
Stores that keep the last value written.

A log of writes to keys leaves, under each key, the value of the last
write to it. `total` adds up what is left. Reading the log from its front
gives the one recursion everything follows from (`total_cons`): a write
counts unless its key is written again later.

Two consequences are for logs of amounts that were meant to add up. The
total is the sum of all writes exactly when every write that is
overwritten wrote zero (`total_eq_sum_iff`), and writes made in blocks
can be counted block by block when two blocks have either the same keys
or no key in common (`total_flatten`).
-/

namespace DraEnv.Foundation

variable {κ ν : Type} [DecidableEq κ]

/-- One write: the value replaces whatever the key held. -/
def put (store : κ → Option ν) (w : κ × ν) : κ → Option ν :=
  Function.update store w.1 (some w.2)

/-- The store after a log of writes to an empty one. -/
def contents (log : List (κ × ν)) : κ → Option ν := log.foldl put fun _ => none

/-- The keys that were written. -/
def keys (log : List (κ × ν)) : Finset κ := (log.map Prod.fst).toFinset

theorem mem_keys {log : List (κ × ν)} {k : κ} : k ∈ keys log ↔ ∃ w ∈ log, w.1 = k := by
  rw [keys, List.mem_toFinset, List.mem_map]

@[simp] theorem keys_nil : keys ([] : List (κ × ν)) = ∅ := rfl

@[simp] theorem keys_cons (w : κ × ν) (log : List (κ × ν)) :
    keys (w :: log) = insert w.1 (keys log) := List.toFinset_cons

@[simp] theorem keys_append (log log' : List (κ × ν)) :
    keys (log ++ log') = keys log ∪ keys log' := by
  rw [keys, List.map_append, List.toFinset_append, keys, keys]

theorem mem_keys_flatten {ι : Type} {blocks : List (ι × List (κ × ν))} {k : κ} :
    k ∈ keys (blocks.map Prod.snd).flatten ↔ ∃ b ∈ blocks, k ∈ keys b.2 := by
  constructor
  · intro hk
    obtain ⟨w, hw, hk⟩ := mem_keys.mp hk
    obtain ⟨_, hmem, hw⟩ := List.mem_flatten.mp hw
    obtain ⟨b, hb, rfl⟩ := List.mem_map.mp hmem
    exact ⟨b, hb, mem_keys.mpr ⟨w, hw, hk⟩⟩
  · rintro ⟨b, hb, hk⟩
    obtain ⟨w, hw, hk⟩ := mem_keys.mp hk
    exact mem_keys.mpr ⟨w, List.mem_flatten.mpr ⟨b.2, List.mem_map_of_mem hb, hw⟩, hk⟩

theorem foldl_put (log : List (κ × ν)) (store : κ → Option ν) (k : κ) :
    log.foldl put store k = (contents log k).or (store k) := by
  induction log generalizing store with
  | nil => rfl
  | cons w log ih =>
      rw [contents, List.foldl_cons, List.foldl_cons, ih, ih (put _ _), put, put]
      by_cases hk : k = w.1
      · subst hk
        simp only [Function.update_self]
        cases contents log w.1 <;> rfl
      · simp only [Function.update_of_ne hk, Option.or_none]

theorem contents_cons (w : κ × ν) (log : List (κ × ν)) (k : κ) :
    contents (w :: log) k = (contents log k).or (if k = w.1 then some w.2 else none) := by
  rw [contents, List.foldl_cons, foldl_put, put]
  by_cases hk : k = w.1
  · rw [if_pos hk, hk, Function.update_self]
  · rw [if_neg hk, Function.update_of_ne hk]

theorem contents_eq_none {log : List (κ × ν)} {k : κ} : contents log k = none ↔ k ∉ keys log := by
  induction log with
  | nil => simp [contents]
  | cons w log ih =>
      rw [contents_cons, Option.or_eq_none_iff, ih, keys_cons, Finset.mem_insert]
      by_cases hk : k = w.1
      · simp [hk]
      · simp [hk]

/-- A key holds the last of the values written to it. -/
theorem contents_eq_getLast? (log : List (κ × ν)) (k : κ) :
    contents log k = ((log.filter fun w => w.1 = k).map Prod.snd).getLast? := by
  induction log with
  | nil => rfl
  | cons w log ih =>
      rw [contents_cons, ih]
      by_cases hk : w.1 = k
      · rw [List.filter_cons_of_pos (by simpa using hk), List.map_cons, if_pos hk.symm]
        cases (log.filter fun w => w.1 = k).map Prod.snd with
        | nil => rfl
        | cons v vs => simp [List.getLast?_cons]
      · rw [List.filter_cons_of_neg (by simpa using hk), if_neg (Ne.symm hk), Option.or_none]

theorem mem_of_contents {log : List (κ × ν)} {k : κ} {v : ν} (h : contents log k = some v) :
    (k, v) ∈ log := by
  rw [contents_eq_getLast?] at h
  obtain ⟨w, hw, rfl⟩ := List.mem_map.mp (List.mem_of_getLast? h)
  obtain ⟨hmem, hkey⟩ := List.mem_filter.mp hw
  rw [← of_decide_eq_true hkey]
  exact hmem

/-- Where no key is written twice, what is left is what was written. -/
theorem contents_eq_some_of_nodup {log : List (κ × ν)} (h : (log.map Prod.fst).Nodup) {k : κ}
    {v : ν} : contents log k = some v ↔ (k, v) ∈ log := by
  refine ⟨mem_of_contents, fun hmem => ?_⟩
  cases hk : contents log k with
  | none => exact absurd (mem_keys.mpr ⟨_, hmem, rfl⟩) (contents_eq_none.mp hk)
  | some v' =>
      have heq : (k, v) = (k, v') := List.inj_on_of_nodup_map h hmem (mem_of_contents hk) rfl
      rw [(Prod.mk.inj heq).2]

/-- Writing the same log once more changes nothing. -/
theorem foldl_put_foldl_put (log : List (κ × ν)) (store : κ → Option ν) :
    log.foldl put (log.foldl put store) = log.foldl put store := by
  funext k
  rw [foldl_put, foldl_put]
  cases contents log k with
  | none => rfl
  | some v => rfl

/-- What was written before under the keys of a log does not show after it. -/
theorem foldl_put_of_subset {log log' : List (κ × ν)} (h : keys log ⊆ keys log')
    (store : κ → Option ν) : log'.foldl put (log.foldl put store) = log'.foldl put store := by
  funext k
  rw [foldl_put, foldl_put log, foldl_put log']
  cases hk : contents log' k with
  | some v => rfl
  | none =>
      have hlog : contents log k = none :=
        contents_eq_none.mpr fun hmem => contents_eq_none.mp hk (h hmem)
      rw [hlog, Option.none_or]

section Total

variable [AddCommMonoid ν]

/-- The sum of what is left under all keys. -/
def total (log : List (κ × ν)) : ν := ∑ k ∈ keys log, (contents log k).getD 0

/-- A write counts unless its key is written again. -/
theorem total_cons (w : κ × ν) (log : List (κ × ν)) :
    total (w :: log) = (if w.1 ∈ keys log then 0 else w.2) + total log := by
  have hsame : ∀ k ∈ keys log, (contents (w :: log) k).getD 0 = (contents log k).getD 0 := by
    intro k hk
    rw [contents_cons]
    cases hc : contents log k with
    | none => exact absurd hk (contents_eq_none.mp hc)
    | some v => rfl
  rw [total, keys_cons]
  by_cases hw : w.1 ∈ keys log
  · rw [if_pos hw, Finset.insert_eq_of_mem hw, Finset.sum_congr rfl hsame, zero_add, total]
  · rw [if_neg hw, Finset.sum_insert hw, Finset.sum_congr rfl hsame, contents_cons,
      contents_eq_none.mpr hw, total]
    simp

/-- A block all of whose keys are written again counts for nothing. -/
theorem total_append_of_subset {block log : List (κ × ν)} (h : keys block ⊆ keys log) :
    total (block ++ log) = total log := by
  induction block with
  | nil => rfl
  | cons w block ih =>
      rw [keys_cons, Finset.insert_subset_iff] at h
      rw [List.cons_append, total_cons, if_pos, zero_add, ih h.2]
      rw [keys_append]
      exact Finset.mem_union_right _ h.1

/-- A block that writes each of its keys once, none of which is written again,
counts in full. -/
theorem total_append_of_disjoint {block log : List (κ × ν)}
    (hnodup : (block.map Prod.fst).Nodup) (h : Disjoint (keys block) (keys log)) :
    total (block ++ log) = (block.map Prod.snd).sum + total log := by
  induction block with
  | nil => simp
  | cons w block ih =>
      rw [List.map_cons, List.nodup_cons] at hnodup
      rw [keys_cons, Finset.disjoint_insert_left] at h
      have hw : w.1 ∉ keys (block ++ log) := by
        rw [keys_append, Finset.mem_union, keys, List.mem_toFinset]
        exact not_or.mpr ⟨hnodup.1, h.1⟩
      rw [List.cons_append, total_cons, if_neg hw, ih hnodup.2 h.2, List.map_cons, List.sum_cons,
        add_assoc]

/-- Blocks with addresses: the same address writes the same keys, different
addresses share none. The total is then that of one write a block, of its sum
to its address. -/
theorem total_flatten {ι : Type} [DecidableEq ι] (blocks : List (ι × List (κ × ν)))
    (hnodup : ∀ b ∈ blocks, (b.2.map Prod.fst).Nodup)
    (hsame : ∀ b ∈ blocks, ∀ b' ∈ blocks, b.1 = b'.1 → keys b.2 = keys b'.2)
    (hdisjoint : ∀ b ∈ blocks, ∀ b' ∈ blocks, b.1 ≠ b'.1 → Disjoint (keys b.2) (keys b'.2)) :
    total (blocks.map Prod.snd).flatten =
      total (blocks.map fun b => (b.1, (b.2.map Prod.snd).sum)) := by
  induction blocks with
  | nil => rfl
  | cons b blocks ih =>
      have haddress : b.1 ∈ keys (blocks.map fun b => (b.1, (b.2.map Prod.snd).sum)) ↔
          ∃ b' ∈ blocks, b'.1 = b.1 := by
        simp [mem_keys]
      rw [List.map_cons, List.flatten_cons, List.map_cons, total_cons]
      simp only [List.forall_mem_cons] at hnodup hsame hdisjoint
      have hrest := ih hnodup.2 (fun b₁ h₁ b₂ h₂ => (hsame.2 b₁ h₁).2 b₂ h₂)
        (fun b₁ h₁ b₂ h₂ => (hdisjoint.2 b₁ h₁).2 b₂ h₂)
      by_cases hagain : ∃ b' ∈ blocks, b'.1 = b.1
      · obtain ⟨b', hb', heq⟩ := hagain
        rw [if_pos (haddress.mpr ⟨b', hb', heq⟩), zero_add, ← hrest]
        refine total_append_of_subset fun k hk => mem_keys_flatten.mpr ⟨b', hb', ?_⟩
        rwa [← hsame.1.2 b' hb' heq.symm]
      · rw [if_neg (haddress.not.mpr hagain), ← hrest]
        refine total_append_of_disjoint hnodup.1 (Finset.disjoint_left.mpr fun k hk hk' => ?_)
        obtain ⟨b', hb', hkb'⟩ := mem_keys_flatten.mp hk'
        have hne : b.1 ≠ b'.1 := fun heq => hagain ⟨b', hb', heq.symm⟩
        exact Finset.disjoint_left.mp (hdisjoint.1.2 b' hb' hne) hk hkb'

end Total

/-! ### Amounts -/

theorem total_le_sum {log : List (κ × ℤ)} (hnonneg : ∀ w ∈ log, 0 ≤ w.2) :
    total log ≤ (log.map Prod.snd).sum := by
  induction log with
  | nil => simp [total]
  | cons w log ih =>
      rw [List.forall_mem_cons] at hnonneg
      have hrest := ih hnonneg.2
      rw [total_cons, List.map_cons, List.sum_cons]
      split <;> omega

/-- For amounts, nothing is lost exactly when only zeros are overwritten. -/
theorem total_eq_sum_iff {log : List (κ × ℤ)} (hnonneg : ∀ w ∈ log, 0 ≤ w.2) :
    total log = (log.map Prod.snd).sum ↔ log.Pairwise fun w w' => w.1 = w'.1 → w.2 = 0 := by
  induction log with
  | nil => simp [total]
  | cons w log ih =>
      rw [List.forall_mem_cons] at hnonneg
      have hle := total_le_sum hnonneg.2
      have hlater : (∀ w' ∈ log, w.1 = w'.1 → w.2 = 0) ↔ (w.1 ∈ keys log → w.2 = 0) := by
        rw [mem_keys]
        exact ⟨fun h ⟨w', hw', heq⟩ => h w' hw' heq.symm, fun h w' hw' heq => h ⟨w', hw', heq.symm⟩⟩
      rw [List.pairwise_cons, hlater, total_cons, List.map_cons, List.sum_cons]
      refine Iff.trans ?_ (and_congr_right' (ih hnonneg.2))
      by_cases hagain : w.1 ∈ keys log
      · simp only [hagain, if_true, true_implies]
        omega
      · simp only [hagain, if_false, false_implies, true_and]
        omega

end DraEnv.Foundation
