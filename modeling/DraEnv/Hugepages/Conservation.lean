import DraEnv.Foundation.LastWrite
import DraEnv.Hugepages.Split

/-!
Whether all requested pages are there after a run.

Every write is absolute: it replaces the number a file holds. Groups of
one size class whose placements meet therefore overwrite each other. The
files of one class, read as a log of writes to nodes, are a store of the
last value written, and each group is a block of that log: the picked
node on a machine with one zone, all nodes on a machine with more. The
library then counts what is left, group by group.
-/

namespace DraEnv.Hugepages

open DraEnv.Foundation DraEnv.GoStd

/-! ### The files after a run -/

/-- The number each file holds after the writes of a log. -/
def nrAfter (sysRoot : GoString) (log : List Write) : GoString → Option Int :=
  contents (log.map fun w => (w.hpPath sysRoot, w.hpCount))

/-- The writes of one size class. -/
def ofClass (log : List Write) (hpSize : GoString) : List Write :=
  log.filter fun w => w.hpSize = hpSize

/-- The pages of a size class after a run, over the nodes the run wrote. -/
def pagesAfter (sysRoot : GoString) (log : List Write) (hpSize : GoString) : Int :=
  ∑ node ∈ ((ofClass log hpSize).map Write.numaNode).toFinset,
    (nrAfter sysRoot log (nrHugepages sysRoot node hpSize)).getD 0

/-- The groups that request a size class. -/
def requesting (arch : Arch) (pages : List HugePage) (hpSize : GoString) : List HugePage :=
  pages.filter fun conf => validateHugePageSize arch conf.size = .ok hpSize

theorem slash_not_mem_itoa (i : Int) : slash ∉ itoa i := by
  intro hmem
  rcases mem_itoa hmem with h | h
  · exact absurd h (by decide)
  · exact absurd h.1 (by decide)

theorem slash_not_mem_validated {arch : Arch} {hps : HugePageSize} {hpSize : GoString}
    (h : validateHugePageSize arch hps = .ok hpSize) : slash ∉ hpSize := by
  rcases validateHugePageSize_ok h with rfl | rfl <;> decide

/-- Different nodes and sizes have different files. -/
theorem nrHugepages_inj {sysRoot : GoString} {node node' : Int} {hpSize hpSize' : GoString}
    (hsize : slash ∉ hpSize) (hsize' : slash ∉ hpSize') :
    nrHugepages sysRoot node hpSize = nrHugepages sysRoot node' hpSize' ↔
      node = node' ∧ hpSize = hpSize' := by
  have hplain : ∀ (n : Int) {s : GoString}, slash ∉ s → ∀ c ∈ [lit "sys", lit "devices",
      lit "system", lit "node", lit "node" ++ itoa n, lit "hugepages", lit "hugepages-" ++ s,
      lit "nr_hugepages"], Plain c := by
    intro n s hs
    simp only [List.forall_mem_cons, List.not_mem_nil, false_imp_iff, implies_true, and_true]
    refine ⟨?_, ?_, ?_, ?_, Plain.append ?_ ?_ (slash_not_mem_itoa n), ?_,
      Plain.append ?_ ?_ hs, ?_⟩ <;> decide
  rw [nrHugepages, nrHugepages, join_inj (by simp) (by simp) (hplain node hsize)
    (hplain node' hsize')]
  simp [itoa_injective.eq_iff]

/-- The files of one class are a store over the nodes. -/
theorem pagesAfter_eq_total (sysRoot : GoString) {log : List Write} {hpSize : GoString}
    (hlog : ∀ w ∈ log, slash ∉ w.hpSize) (hsize : slash ∉ hpSize) :
    pagesAfter sysRoot log hpSize =
      total ((ofClass log hpSize).map fun w => (w.numaNode, w.hpCount)) := by
  have hkeys : keys ((ofClass log hpSize).map fun w => (w.numaNode, w.hpCount)) =
      ((ofClass log hpSize).map Write.numaNode).toFinset := by
    rw [keys, List.map_map]
    rfl
  rw [pagesAfter, total, hkeys]
  refine Finset.sum_congr rfl fun node _ => congrArg (Option.getD · 0) ?_
  rw [nrAfter, contents_eq_getLast?, contents_eq_getLast?]
  simp only [ofClass, List.filter_map, List.map_map, List.filter_filter]
  -- the writes to the file of a node are the writes of the class to that node
  refine congrArg (fun ws => (List.map _ ws).getLast?) (List.filter_congr fun w hw => ?_)
  simp only [Function.comp_apply, Write.hpPath, nrHugepages_inj (hlog w hw) hsize,
    Bool.decide_and]

/-! ### Groups as blocks of writes -/

/-- Where a group is written: the picked node with one zone; with more, every
group is written to all nodes, and they all meet. -/
def target (numaZones : Int) (conf : HugePage) : Int := if numaZones = 1 then pickNode conf else 0

theorem target_eq_iff {numaZones : Int} {conf conf' : HugePage} :
    target numaZones conf = target numaZones conf' ↔
      (numaZones = 1 → pickNode conf = pickNode conf') := by
  unfold target
  split
  · next hone => simp [hone]
  · next hmany => simp [hmany]

/-- The zones write a group's full count, each node once. -/
theorem placement_sum {numaZones : Int} (h : 1 ≤ numaZones) (conf : HugePage) :
    ((placement numaZones conf).map Prod.snd).sum = conf.count.toInt := by
  unfold placement
  split
  · simp
  · exact spread_sum h _

theorem placement_nodup (numaZones : Int) (conf : HugePage) :
    ((placement numaZones conf).map Prod.fst).Nodup := by
  unfold placement
  split
  · simp
  · exact spread_nodup _ _

theorem keys_placement_eq {numaZones : Int} {conf conf' : HugePage}
    (h : target numaZones conf = target numaZones conf') :
    keys (placement numaZones conf) = keys (placement numaZones conf') := by
  rw [target_eq_iff] at h
  unfold placement
  split
  · next hone => simp [h hone]
  · simp [spread, keys, Function.comp_def]

theorem keys_placement_disjoint {numaZones : Int} {conf conf' : HugePage}
    (h : target numaZones conf ≠ target numaZones conf') :
    Disjoint (keys (placement numaZones conf)) (keys (placement numaZones conf')) := by
  rw [Ne, target_eq_iff, Classical.not_imp] at h
  simp [placement, h.1, h.2]

/-- What a list of groups leaves behind, counted by group. -/
theorem total_placements {numaZones : Int} (h : 1 ≤ numaZones) (groups : List HugePage) :
    total (groups.flatMap (placement numaZones)) =
      total (groups.map fun conf => (target numaZones conf, conf.count.toInt)) := by
  have hblocks := total_flatten
    (groups.map fun conf => (target numaZones conf, placement numaZones conf)) ?_ ?_ ?_
  · simpa only [List.map_map, Function.comp_def, placement_sum h, List.flatMap] using hblocks
  · rw [List.forall_mem_map]
    exact fun conf _ => placement_nodup numaZones conf
  · simp only [List.forall_mem_map]
    exact fun conf _ conf' _ => keys_placement_eq
  · simp only [List.forall_mem_map]
    exact fun conf _ conf' _ => keys_placement_disjoint

/-! ### Runs -/

/-- The writes a run makes for one class are the placements of its groups. -/
theorem ofClass_writes {arch : Arch} {numaZones : Int} {trace : Trace} (hpSize : GoString)
    (hentries : ∀ entry ∈ trace, ∃ s, validateHugePageSize arch entry.1.size = .ok s ∧
      entry.2 = (placement numaZones entry.1).map (Write.to s)) :
    (ofClass (trace.flatMap Prod.snd) hpSize).map (fun w => (w.numaNode, w.hpCount)) =
      (requesting arch (trace.map Prod.fst) hpSize).flatMap (placement numaZones) := by
  induction trace with
  | nil => rfl
  | cons entry trace ih =>
      rw [List.forall_mem_cons] at hentries
      obtain ⟨⟨s, hs, hwrites⟩, hrest⟩ := hentries
      have hsizes : ∀ w ∈ entry.2, w.hpSize = s := by
        rw [hwrites, List.forall_mem_map]
        exact fun _ _ => rfl
      simp only [ofClass, requesting] at ih ⊢
      rw [List.flatMap_cons, List.filter_append, List.map_append, ih hrest, List.map_cons,
        List.filter_cons]
      by_cases hclass : s = hpSize
      · -- all writes of the group are of the class
        rw [List.filter_eq_self.mpr fun w hw => by simp [hsizes w hw, hclass], hwrites,
          if_pos (by simp [hs, hclass]), List.flatMap_cons, List.map_map]
        exact congrArg (· ++ _) (List.map_id _)
      · rw [List.filter_eq_nil_iff.mpr fun w hw => by simp [hsizes w hw, hclass],
          if_neg (by simp [hs, hclass])]
        rfl

theorem pagesAfter_run {host : Host} {hpp : HugePageProvision} {sysRoot : GoString}
    {numaZones : Int} (hzones : 1 ≤ numaZones) {trace : Trace}
    (hrun : runtimeHugepages host hpp sysRoot numaZones = (.returned none, trace))
    {hpSize : GoString} (hsize : slash ∉ hpSize) :
    pagesAfter sysRoot (trace.flatMap Prod.snd) hpSize =
      total ((requesting host.arch hpp.spec.pages hpSize).map fun conf =>
        (target numaZones conf, conf.count.toInt)) := by
  obtain ⟨hpages, hentries⟩ := runtimeHugepages_ok hrun
  have hlog : ∀ w ∈ trace.flatMap Prod.snd, slash ∉ w.hpSize := by
    intro w hw
    obtain ⟨entry, hentry, hmem⟩ := List.mem_flatMap.mp hw
    obtain ⟨s, hs, hwrites⟩ := hentries entry hentry
    rw [hwrites, List.mem_map] at hmem
    obtain ⟨_, -, rfl⟩ := hmem
    exact slash_not_mem_validated hs
  rw [pagesAfter_eq_total sysRoot hlog hsize, ofClass_writes hpSize hentries, hpages,
    total_placements hzones]

/-- The groups of one class keep all their pages exactly when only groups that
asked for none are overwritten. -/
theorem pagesAfter_eq_requested_iff {host : Host} {hpp : HugePageProvision} {sysRoot : GoString}
    {numaZones : Int} (hzones : 1 ≤ numaZones) (hcounts : ∀ conf ∈ hpp.spec.pages, 0 ≤ conf.count)
    {trace : Trace}
    (hrun : runtimeHugepages host hpp sysRoot numaZones = (.returned none, trace))
    {hpSize : GoString} (hsize : slash ∉ hpSize) :
    pagesAfter sysRoot (trace.flatMap Prod.snd) hpSize =
        ((requesting host.arch hpp.spec.pages hpSize).map fun conf => conf.count.toInt).sum ↔
      hpp.spec.pages.Pairwise fun conf later =>
        validateHugePageSize host.arch conf.size = .ok hpSize →
        validateHugePageSize host.arch later.size = .ok hpSize →
        (numaZones = 1 → pickNode conf = pickNode later) → conf.count = 0 := by
  have hnonneg : ∀ w ∈ (requesting host.arch hpp.spec.pages hpSize).map fun conf =>
      (target numaZones conf, conf.count.toInt), 0 ≤ w.2 := by
    rw [List.forall_mem_map]
    intro conf hconf
    exact Int32.le_iff_toInt_le.mp (hcounts conf (List.mem_of_mem_filter hconf))
  have hsum := total_eq_sum_iff hnonneg
  rw [List.map_map, List.pairwise_map] at hsum
  rw [pagesAfter_run hzones hrun hsize]
  refine hsum.trans ?_
  rw [requesting, List.pairwise_filter]
  have hzero : ∀ conf : HugePage, conf.count.toInt = 0 ↔ conf.count = 0 := fun conf =>
    (Int32.toInt_inj (x := conf.count) (y := 0))
  simp only [decide_eq_true_eq, target_eq_iff, hzero]

theorem requests_conserved_iff (host : Host) (hpp : HugePageProvision) (sysRoot : GoString)
    (numaZones : Int) (hzones : 1 ≤ numaZones) (hcounts : ∀ conf ∈ hpp.spec.pages, 0 ≤ conf.count)
    (trace : Trace)
    (hrun : runtimeHugepages host hpp sysRoot numaZones = (.returned none, trace)) :
    (∀ hpSize, requesting host.arch hpp.spec.pages hpSize ≠ [] →
      pagesAfter sysRoot (trace.flatMap Prod.snd) hpSize =
        ((requesting host.arch hpp.spec.pages hpSize).map fun conf => conf.count.toInt).sum) ↔
      hpp.spec.pages.Pairwise fun conf later =>
        validateHugePageSize host.arch conf.size = validateHugePageSize host.arch later.size →
        (numaZones = 1 → pickNode conf = pickNode later) → conf.count = 0 := by
  obtain ⟨hpages, hentries⟩ := runtimeHugepages_ok hrun
  constructor
  · intro hconserved
    rw [List.pairwise_iff_forall_sublist]
    intro conf later hsub hsame
    -- the class of the first group is requested, so its count is known to be kept
    have hmem : conf ∈ hpp.spec.pages := hsub.subset (by simp)
    obtain ⟨entry, hentry, rfl⟩ := List.mem_map.mp (hpages ▸ hmem)
    obtain ⟨hpSize, hsize, -⟩ := hentries entry hentry
    have hrequested : requesting host.arch hpp.spec.pages hpSize ≠ [] :=
      List.ne_nil_of_mem (List.mem_filter.mpr ⟨hmem, by simpa using hsize⟩)
    have hclass := (pagesAfter_eq_requested_iff hzones hcounts hrun
      (slash_not_mem_validated hsize)).mp (hconserved hpSize hrequested)
    exact List.pairwise_iff_forall_sublist.mp hclass hsub hsize (hsame ▸ hsize)
  · intro hpairs hpSize hrequested
    obtain ⟨conf, hconf⟩ := List.exists_mem_of_ne_nil _ hrequested
    have hsize : validateHugePageSize host.arch conf.size = .ok hpSize := by
      simpa using (List.mem_filter.mp hconf).2
    refine (pagesAfter_eq_requested_iff hzones hcounts hrun
      (slash_not_mem_validated hsize)).mpr (hpairs.imp fun hpair hconf hlater => ?_)
    exact hpair (hconf.trans hlater.symm)

/-- Two sizes, eleven pages of the smaller one. -/
def twoClasses : HugePageProvision := ⟨⟨[⟨lit "2M", 11, none⟩, ⟨lit "1Gi", 4, none⟩]⟩⟩

def twoClassesTrace : Trace :=
  [(⟨lit "2M", 11, none⟩, [⟨0, lit "2048kB", 6⟩, ⟨1, lit "2048kB", 5⟩]),
    (⟨lit "1Gi", 4, none⟩, [⟨0, lit "1048576kB", 2⟩, ⟨1, lit "1048576kB", 2⟩])]

theorem requests_conserved_twoClasses :
    runtimeHugepages .reliable twoClasses (lit "/") 2 = (.returned none, twoClassesTrace) ∧
      ∀ hpSize, requesting .amd64 twoClasses.spec.pages hpSize ≠ [] →
        pagesAfter (lit "/") (twoClassesTrace.flatMap Prod.snd) hpSize =
          ((requesting .amd64 twoClasses.spec.pages hpSize).map
            fun conf => conf.count.toInt).sum := by
  have hrun : runtimeHugepages .reliable twoClasses (lit "/") 2 =
      (.returned none, twoClassesTrace) := rfl
  refine ⟨hrun, (requests_conserved_iff .reliable twoClasses (lit "/") 2 (by decide) ?_
    twoClassesTrace hrun).mpr ?_⟩
  · decide
  · simp only [twoClasses, List.pairwise_cons, List.mem_singleton, forall_eq]
    exact ⟨fun hsame => absurd hsame (by decide), by simp⟩

/-- Ten pages and twenty pages of one size, under two of its names. -/
def aliasedSizes : HugePageProvision := ⟨⟨[⟨lit "2M", 10, none⟩, ⟨lit "2Mi", 20, none⟩]⟩⟩

/-- The second group overwrites the first: twenty pages where thirty were requested. -/
theorem requests_conserved_aliasedSizes_fails :
    ∃ trace, runtimeHugepages .reliable aliasedSizes (lit "/") 1 = (.returned none, trace) ∧
      ((requesting .amd64 aliasedSizes.spec.pages (lit "2048kB")).map
        fun conf => conf.count.toInt).sum = 30 ∧
      pagesAfter (lit "/") (trace.flatMap Prod.snd) (lit "2048kB") = 20 := by
  have hrun : ∃ trace, runtimeHugepages .reliable aliasedSizes (lit "/") 1 =
      (.returned none, trace) := ⟨_, rfl⟩
  obtain ⟨trace, hrun⟩ := hrun
  refine ⟨trace, hrun, by decide, ?_⟩
  rw [pagesAfter_run (by decide) hrun (by decide)]
  decide

end DraEnv.Hugepages
