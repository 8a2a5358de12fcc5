import DraEnv.Hugepages.Split

/-!
Which requests are safe.

Nothing between the configuration file and the division checks a count,
and nothing checks the number of zones. A machine on which no zone was
found makes the first group divide by zero; elsewhere the first write of
a group has the sign of its count. These are the only ways for a run to
go wrong: `runtimeHugepages_safe_iff` says for which requests no host
sees either.
-/

namespace DraEnv.Hugepages

open DraEnv.GoStd

/-- No division by zero, and no negative number of pages written. -/
def Safe (run : Ending × Trace) : Prop :=
  run.1 ≠ .panicked ∧ ∀ entry ∈ run.2, ∀ w ∈ entry.2, 0 ≤ w.hpCount

/-- The size is one that some architecture supports. -/
def supported (conf : HugePage) : Bool :=
  match validateHugePageSize .amd64 conf.size with
  | .ok _ => true
  | .error _ => false

/-- With no zones there is nothing to do, and no group the run can get to has a
negative count. -/
def Admissible (numaZones : Nat) (pages : List HugePage) : Prop :=
  (numaZones = 0 → pages = []) ∧ ∀ conf ∈ pages.takeWhile supported, 0 ≤ conf.count.toInt

/-! ### One group -/

section

variable {host : Host} {conf : HugePage} {sysRoot : GoString} {numaZones : Int}

theorem supported_of_ok {arch : Arch} {hpSize : GoString}
    (h : validateHugePageSize arch conf.size = .ok hpSize) : supported conf = true := by
  cases arch with
  | amd64 => rw [supported, h]
  | other => simp [validateHugePageSize] at h

theorem provisionGroup_eq {hpSize : GoString}
    (hsize : validateHugePageSize host.arch conf.size = .ok hpSize) (hn : 1 ≤ numaZones) :
    provisionGroup host conf sysRoot numaZones =
      perform host sysRoot ((placement numaZones conf).map (Write.to hpSize)) := by
  by_cases hone : numaZones = 1
  · rw [provisionGroup, if_pos hone, placement, if_pos hone, provisionOnNode_eq hsize]
    rfl
  · rw [provisionGroup, if_neg hone, placement, if_neg hone, provisionOnMultiNode_eq hsize hn]

theorem provisionGroup_invalid {err : GoError}
    (hsize : validateHugePageSize host.arch conf.size = .error err) (hn : 1 ≤ numaZones)
    (history : List Write) :
    provisionGroup host conf sysRoot numaZones history =
      (.returned (some (.invalidSize err)), []) := by
  by_cases hone : numaZones = 1
  · rw [provisionGroup, if_pos hone, provisionOnNode, hsize]
  · rw [provisionGroup, if_neg hone, provisionOnMultiNode_invalid hsize hn]

theorem provisionGroup_zero (history : List Write) :
    provisionGroup host conf sysRoot 0 history = (.panicked, []) := by
  rw [provisionGroup, if_neg (by decide), provisionOnMultiNode, if_pos rfl]

theorem placement_nonneg (hn : 1 ≤ numaZones) (hcount : 0 ≤ conf.count.toInt) :
    ∀ target ∈ placement numaZones conf, 0 ≤ target.2 := by
  have hquotient : 0 ≤ conf.count.toInt.tdiv numaZones := Int.tdiv_nonneg hcount (by omega)
  have hremainder : 0 ≤ conf.count.toInt.tmod numaZones := Int.tmod_nonneg _ hcount
  intro target htarget
  rw [placement] at htarget
  split at htarget
  · rw [List.mem_singleton.mp htarget]
    exact hcount
  · rw [spread_value htarget]
    split <;> omega

theorem tdiv_add_tmod_neg {n count : Int} (hn : 1 ≤ n) (hcount : count < 0) :
    count.tdiv n + count.tmod n < 0 := by
  have hquotient : 0 ≤ (-count).tdiv n := Int.tdiv_nonneg (by omega) (by omega)
  have hremainder : 0 ≤ (-count).tmod n := Int.tmod_nonneg _ (by omega)
  have hdiv := Int.mul_tdiv_add_tmod (-count) n
  rw [Int.neg_tdiv, Int.neg_tmod] at hdiv
  rw [Int.neg_tdiv] at hquotient
  rw [Int.neg_tmod] at hremainder
  by_contra hnonneg
  have hquotient' : count.tdiv n = 0 := by omega
  have hremainder' : count.tmod n = 0 := by omega
  rw [hquotient', hremainder'] at hdiv
  omega

/-- The write to the first node has the sign of the count. -/
theorem placement_negative (hn : 1 ≤ numaZones) (hcount : conf.count.toInt < 0) :
    ∃ target ∈ placement numaZones conf, target.2 < 0 := by
  rw [placement]
  split
  · exact ⟨_, List.mem_singleton_self _, hcount⟩
  · exact ⟨_, List.mem_cons_self, tdiv_add_tmod_neg hn hcount⟩

/-- The writes of a group are among those of its placement. -/
theorem provisionGroup_writes (host : Host) (conf : HugePage) (sysRoot : GoString)
    (hn : 1 ≤ numaZones) (history : List Write) :
    (provisionGroup host conf sysRoot numaZones history).1 ≠ .panicked ∧
      ∀ w ∈ (provisionGroup host conf sysRoot numaZones history).2,
        supported conf = true ∧ ∃ target ∈ placement numaZones conf, w.hpCount = target.2 := by
  cases hsize : validateHugePageSize host.arch conf.size with
  | error err =>
      rw [provisionGroup_invalid hsize hn]
      simp
  | ok hpSize =>
      have hmem : ∀ w ∈ (placement numaZones conf).map (Write.to hpSize),
          supported conf = true ∧ ∃ target ∈ placement numaZones conf, w.hpCount = target.2 :=
        List.forall_mem_map.mpr fun target htarget =>
          ⟨supported_of_ok hsize, target, htarget, rfl⟩
      rw [provisionGroup_eq hsize hn]
      rcases perform_cases host sysRoot ((placement numaZones conf).map (Write.to hpSize)) history
        with hall | ⟨front, w, back, err, hplan, -, hfront⟩
      · rw [hall]
        exact ⟨by simp, hmem⟩
      · rw [hfront]
        rw [hplan] at hmem
        exact ⟨by simp, fun w' hw' => hmem w' (List.mem_append_left _ hw')⟩

end

/-! ### All groups -/

theorem Admissible.tail {numaZones : Nat} {conf : HugePage} {pages : List HugePage}
    (h : Admissible numaZones (conf :: pages)) (hsupported : supported conf = true) :
    0 ≤ conf.count.toInt ∧ Admissible numaZones pages := by
  obtain ⟨hzones, hcounts⟩ := h
  rw [List.takeWhile_cons_of_pos hsupported, List.forall_mem_cons] at hcounts
  exact ⟨hcounts.1, fun hzero => absurd (hzones hzero) (by simp), hcounts.2⟩

theorem provisionGroups_safe {host : Host} {sysRoot : GoString} {numaZones : Nat}
    {pages : List HugePage} (h : Admissible numaZones pages) (history : List Write) :
    Safe (provisionGroups host sysRoot numaZones pages history) := by
  induction pages generalizing history with
  | nil => exact ⟨by simp [provisionGroups], by simp [provisionGroups]⟩
  | cons conf pages ih =>
      have hn : 1 ≤ (numaZones : Int) := by
        have hne : numaZones ≠ 0 := fun hzero => absurd (h.1 hzero) (by simp)
        omega
      obtain ⟨hending, hwrites⟩ := provisionGroup_writes host conf sysRoot hn history
      have hnonneg : ∀ w ∈ (provisionGroup host conf sysRoot numaZones history).2,
          0 ≤ w.hpCount := by
        intro w hw
        obtain ⟨hsupported, target, htarget, hcount⟩ := hwrites w hw
        rw [hcount]
        exact placement_nonneg hn (h.tail hsupported).1 target htarget
      rw [provisionGroups]
      split
      next writes hgroup =>
        -- the group went through, so its size is supported and the next one counts
        obtain ⟨hpSize, hsize, -⟩ := provisionGroup_ok hgroup
        obtain ⟨hrest, hrestWrites⟩ := ih (h.tail (supported_of_ok hsize)).2 (history ++ writes)
        rw [hgroup] at hnonneg
        exact ⟨hrest, List.forall_mem_cons.mpr ⟨hnonneg, hrestWrites⟩⟩
      next ending writes hstopped hgroup =>
        rw [hgroup] at hending hnonneg
        exact ⟨hending, by simpa using hnonneg⟩

theorem exists_validated {conf : HugePage} (h : supported conf = true) :
    ∃ hpSize, validateHugePageSize .amd64 conf.size = .ok hpSize := by
  rw [supported] at h
  split at h
  next hpSize hsize => exact ⟨hpSize, hsize⟩
  next => simp at h

/-- Where nothing fails, the run gets to every group before the first size that is not
supported, and performs its placement. -/
theorem provisionGroups_reaches {numaZones : Nat} (hn : 1 ≤ (numaZones : Int))
    {pages : List HugePage} {conf : HugePage} (hconf : conf ∈ pages.takeWhile supported)
    (sysRoot : GoString) (history : List Write) :
    ∃ entry ∈ (provisionGroups .reliable sysRoot numaZones pages history).2,
      ∀ target ∈ placement numaZones conf, ∃ w ∈ entry.2, w.hpCount = target.2 := by
  induction pages generalizing history with
  | nil => simp at hconf
  | cons first pages ih =>
      rw [List.takeWhile_cons] at hconf
      split at hconf
      next hsupported =>
        obtain ⟨hpSize, hsize⟩ := exists_validated hsupported
        have hgroup : provisionGroup .reliable first sysRoot numaZones history =
            (.returned none, (placement numaZones first).map (Write.to hpSize)) := by
          rw [provisionGroup_eq hsize hn]
          exact perform_of_reliable (fun _ _ => rfl) _ _
        simp only [provisionGroups, hgroup]
        rcases List.mem_cons.mp hconf with rfl | hconf
        · refine ⟨_, List.mem_cons_self, fun target htarget => ?_⟩
          exact ⟨_, List.mem_map_of_mem htarget, rfl⟩
        · obtain ⟨entry, hentry, hwrites⟩ := ih hconf _
          exact ⟨entry, List.mem_cons_of_mem _ hentry, hwrites⟩
      next => simp at hconf

theorem provisionGroups_safe_iff (numaZones : Nat) (pages : List HugePage) (sysRoot : GoString) :
    (∀ host, Safe (provisionGroups host sysRoot numaZones pages [])) ↔
      Admissible numaZones pages := by
  constructor
  · intro h
    obtain ⟨hending, hwrites⟩ := h .reliable
    have hzones : numaZones = 0 → pages = [] := by
      intro hzero
      cases pages with
      | nil => rfl
      | cons conf pages =>
          subst hzero
          simp [provisionGroups, provisionGroup_zero] at hending
    refine ⟨hzones, fun conf hconf => ?_⟩
    have hn : 1 ≤ (numaZones : Int) := by
      have hne : numaZones ≠ 0 := by
        intro hzero
        simp [hzones hzero] at hconf
      omega
    by_contra hcount
    obtain ⟨target, htarget, hneg⟩ := placement_negative hn (not_le.mp hcount)
    obtain ⟨entry, hentry, hreached⟩ := provisionGroups_reaches hn hconf sysRoot []
    obtain ⟨w, hw, hvalue⟩ := hreached target htarget
    have hnonneg := hwrites entry hentry w hw
    omega
  · intro h host
    exact provisionGroups_safe h []

/-- A request is safe on every host exactly if it is admissible for the zones there are. -/
theorem runtimeHugepages_safe_iff (hpp : HugePageProvision) (numaZones : Nat)
    (sysRoot : GoString) :
    (∀ host, Safe (runtimeHugepages host hpp sysRoot numaZones)) ↔
      Admissible numaZones hpp.spec.pages :=
  provisionGroups_safe_iff numaZones hpp.spec.pages sysRoot

def oneGroup (count : Int32) : HugePage := ⟨lit "2M", count, none⟩

/-- No zones, and less than no pages. -/
theorem runtimeHugepages_unsafe :
    (runtimeHugepages .reliable ⟨⟨[oneGroup 10]⟩⟩ (lit "/") 0 = (.panicked, [(oneGroup 10, [])]) ∧
      ¬ Safe (runtimeHugepages .reliable ⟨⟨[oneGroup 10]⟩⟩ (lit "/") 0)) ∧
    (runtimeHugepages .reliable ⟨⟨[oneGroup (-1)]⟩⟩ (lit "/") 1 =
        (.returned none, [(oneGroup (-1), [⟨0, lit "2048kB", -1⟩])]) ∧
      ¬ Safe (runtimeHugepages .reliable ⟨⟨[oneGroup (-1)]⟩⟩ (lit "/") 1)) := by
  refine ⟨⟨rfl, fun h => h.1 rfl⟩, rfl, fun h => ?_⟩
  exact absurd (h.2 _ List.mem_cons_self ⟨0, lit "2048kB", -1⟩ List.mem_cons_self) (by decide)

end DraEnv.Hugepages
