import DraEnv.Sriovvf.Address
import DraEnv.Sriovvf.Plan

/-!
What a strict run guarantees.

Of sysfs it is assumed, besides what a write to a `numa_node` file does,
that `sriov_numvfs` shows the number of `virtfn` entries of the device and
that what is written to it becomes that number. When a write is refused
makes no difference, as a strict run gives up then.
-/

namespace DraEnv.Sriovvf

open DraEnv.Foundation DraEnv.GoStd Effect

variable {τ φ : Type} {fs : Sysfs τ φ} {size : IntSize} {cfg : Config}

/-! ### What is assumed of sysfs -/

def deviceDir (root pci : GoString) : GoString := join [devicesDir root, pci]

/-- `sriov_numvfs` shows the number of VFs, and what is written to it becomes that
number. -/
structure SriovFiles (fs : Sysfs τ φ) (size : IntSize) (root : GoString) : Prop where
  current : ∀ pci tree value, isPCIAddress pci = true →
    fs.readInt size tree (numvfsPath (deviceDir root pci)) = some value →
    value = vfCount fs tree (deviceDir root pci)
  store : ∀ pci n s s', isPCIAddress pci = true →
    fs.writeFile (numvfsPath (deviceDir root pci)) (intData n) s = (none, s') →
    (vfCount fs s'.tree (deviceDir root pci) : Int) = n

/-! ### The number of VFs -/

section

variable {s s' : State τ φ} {log : List (WriteCall (State τ φ))}

/-- The number changes from and to zero only, and ends at the requested one. -/
theorem reconfigures_vfCount {root pci : GoString} {current requested : Int}
    (hsriov : SriovFiles fs size root) (haddress : isPCIAddress pci = true)
    (hcurrent : current = vfCount fs s.tree (deviceDir root pci))
    (h : Reconfigures fs (numvfsPath (deviceDir root pci)) current requested s s' log) :
    (vfCount fs s'.tree (deviceDir root pci) : Int) = requested ∧
      ∀ w ∈ log, w.path = numvfsPath (deviceDir root pci) ∧
        ∃ n, w.data = intData n ∧
          (n ≠ 0 → vfCount fs w.before.tree (deviceDir root pci) = 0) := by
  cases h with
  | same hsame => exact ⟨hcurrent.symm.trans hsame, by simp⟩
  | fresh hzero hwrite =>
      refine ⟨hsriov.store pci _ _ _ haddress hwrite, ?_⟩
      rw [List.forall_mem_singleton]
      exact ⟨rfl, requested, rfl, fun _ => by dsimp only; omega⟩
  | reset hwrite₁ hwrite₂ =>
      refine ⟨hsriov.store pci _ _ _ haddress hwrite₂, ?_⟩
      rw [List.forall_mem_cons, List.forall_mem_singleton]
      refine ⟨⟨rfl, 0, rfl, fun hne => absurd rfl hne⟩, rfl, requested, rfl, fun _ => ?_⟩
      exact Int.natCast_eq_zero.mp (hsriov.store pci _ _ _ haddress hwrite₁)

/-- The same for the device that was selected, whose number was read before. -/
theorem setNumVFs_vfCount {root userPCI : GoString} {pf : PfDevice} {requested : Int}
    (hsriov : SriovFiles fs size root)
    (hpf : ((resolvePF fs.filesystem size root userPCI).run s).result = .ok pf)
    (hset : (setNumVFs fs.filesystem pf requested).run s = ⟨.ok (), s', log⟩) :
    (vfCount fs s'.tree pf.path : Int) = requested ∧
      ∀ w ∈ log, w.path = numvfsPath pf.path ∧
        ∃ n, w.data = intData n ∧ (n ≠ 0 → vfCount fs w.before.tree pf.path = 0) := by
  obtain ⟨haddress, hvalid⟩ := resolvePF_valid fs size hpf
  have hpath : pf.path = deviceDir root pf.pciAddr := hvalid.path
  have hreconfigures := setNumVFs_ok hset
  have hcurrent := hvalid.currentVFs
  rw [hpath] at hreconfigures hcurrent ⊢
  exact reconfigures_vfCount hsriov haddress (hsriov.current _ _ _ haddress hcurrent) hreconfigures

end

/-! ### What a strict run leaves -/

/-- A strict run that returns nil leaves the device it selected with the requested
number of VFs, the VFs and the device on their nodes, and nothing else written. -/
theorem strict_run_effect [DecidableEq φ] (hsriov : SriovFiles fs size cfg.sysfsRoot)
    (hnuma : NumaFiles fs) (hstrict : cfg.tryMode = false) {s s' : State τ φ}
    {log : List (WriteCall (State τ φ))}
    (hrun : (run fs.filesystem size cfg).run s = ⟨.ok (), s', log⟩) :
    ∃ pf, ((resolvePF fs.filesystem size cfg.sysfsRoot cfg.pciAddr).run s).result = .ok pf ∧
      Selected fs.filesystem size cfg s pf s ∧
      (vfCount fs s'.tree pf.path : Int) = cfg.numVFs ∧
      (∀ w ∈ log, w.path = numvfsPath pf.path →
        ∃ n, w.data = intData n ∧ (n ≠ 0 → vfCount fs w.before.tree pf.path = 0)) ∧
      (∀ entry ∈ virtfns fs s'.tree pf.path,
        ∃ vfPath, fs.evalSymlinks s'.tree (join [pf.path, entry.name]) = .ok vfPath) ∧
      (0 ≤ cfg.pfNUMANode → numaNode fs s' pf.path = some cfg.pfNUMANode ∧
        ∀ vfPath, IsVF fs s'.tree pf.path vfPath →
          numaNode fs s' vfPath = some cfg.pfNUMANode) ∧
      (cfg.pfNUMANode < 0 → 0 < cfg.numVFs →
        (∃ node, OnlineNode fs size s'.tree cfg.sysfsRoot node) →
        ∀ vfPath, IsVF fs s'.tree pf.path vfPath →
          ∃ node, OnlineNode fs size s'.tree cfg.sysfsRoot node ∧
            numaNode fs s' vfPath = some node) ∧
      ∀ w ∈ log, w.path = numvfsPath pf.path ∨
        (0 ≤ cfg.pfNUMANode ∧ w.path = numaPath pf.path) ∨
        ∃ vfPath, IsVF fs s'.tree pf.path vfPath ∧ w.path = numaPath vfPath := by
  obtain ⟨-, -, pf, hpf, hsetUp⟩ := (run_ok hstrict).mp hrun
  obtain ⟨-, s₁, plan, log₁, log₂, hset, hplan, hassigns, rfl⟩ :=
    (setUp_ok hstrict hnuma).mp hsetUp
  obtain ⟨hcount, hwrites⟩ := setNumVFs_vfCount hsriov hpf hset
  obtain ⟨vfPaths, hlist⟩ := vfPlan_listed hplan
  have hlength : (vfPaths.length : Int) = cfg.numVFs := by rw [listVFPaths_length hlist, hcount]
  -- the nodes are written on the tree that the change of the number of VFs has left
  have htree := assigns_tree hnuma hassigns
  rw [htree]
  refine ⟨pf, hpf, resolvePF_selected fs size hpf, hcount, ?_,
    fun _ => listVFPaths_resolved hlist, ?_, ?_, ?_⟩
  · intro w hw hwpath
    rcases List.mem_append.mp hw with hw | hw
    · exact (hwrites w hw).2
    · obtain ⟨dir, -, hdir⟩ := assigns_write hassigns hw
      exact absurd (hdir.symm.trans hwpath) (numaPath_ne_numvfsPath dir pf.path)
  · intro hnode
    rw [plan_pinned hnode hplan hlist hlength] at hassigns
    refine ⟨assigns_pinned hnuma hassigns List.mem_cons_self, fun vfPath hvf => ?_⟩
    have hmem := (mem_listVFPaths hlist).mpr hvf
    exact assigns_pinned hnuma hassigns (List.mem_cons_of_mem pf.path hmem)
  · rintro hneg hpos ⟨node, honline⟩ vfPath hvf
    obtain ⟨nodes, hnodes⟩ := vfPlan_nodes hneg hplan hlist hlength hpos
    have hne : nodes ≠ [] := List.ne_nil_of_mem ((mem_listNUMANodes hnodes).mpr honline)
    rw [plan_balanced hneg hplan hlist hlength hpos hnodes hne] at hassigns
    obtain ⟨node, hnode, hvalue⟩ :=
      assigns_balanced hnuma hassigns ((mem_listVFPaths hlist).mpr hvf)
    exact ⟨node, (mem_listNUMANodes hnodes).mp hnode, hvalue⟩
  · intro w hw
    rcases List.mem_append.mp hw with hw | hw
    · exact Or.inl (hwrites w hw).1
    · obtain ⟨dir, hmem, hdir⟩ := assigns_write hassigns hw
      rcases plan_dirs hplan hlist hmem with ⟨hnode, rfl⟩ | hvf
      · exact Or.inr (Or.inl ⟨hnode, hdir⟩)
      · exact Or.inr (Or.inr ⟨dir, (mem_listVFPaths hlist).mp hvf, hdir⟩)

/-! ### A card with two VFs -/

def cardAddr : GoString := lit "0000:3b:02.0"

def cardDir : GoString := lit "/sys/bus/pci/devices/0000:3b:02.0"

/-- The VFs come before the card in the order of names. -/
def cardVFs : List GoString :=
  [lit "/sys/bus/pci/devices/0000:3b:01.0", lit "/sys/bus/pci/devices/0000:3b:01.1"]

def cardLinks : List GoString :=
  [lit "/sys/bus/pci/devices/0000:3b:02.0/virtfn0", lit "/sys/bus/pci/devices/0000:3b:02.0/virtfn1"]

def noEntry : FsError := ⟨true, lit "no such file or directory"⟩

/-- The directories, with the links to directories. -/
def cardDirs (vfs : Fin 3) : List GoString :=
  [lit "/sys", cardDir, cardDir ++ lit "/net"] ++
    (cardVFs.take vfs).flatMap fun vf => [vf, vf ++ lit "/physfn"]

def cardListing (vfs : Fin 3) (path : GoString) : Option (List DirEntry) :=
  if path = lit "/sys/bus/pci/devices" then
    some (⟨cardAddr, false, true⟩ ::
      [⟨lit "0000:3b:01.0", false, true⟩, ⟨lit "0000:3b:01.1", false, true⟩].take vfs)
  else if path = cardDir then
    some (⟨lit "net", true, false⟩ ::
      [⟨lit "virtfn0", false, true⟩, ⟨lit "virtfn1", false, true⟩].take vfs)
  else if path = lit "/sys/devices/system/node" then
    some [⟨lit "node0", true, false⟩, ⟨lit "node1", true, false⟩]
  else none

def cardNumaFiles (vfs : Fin 3) : List GoString :=
  (cardDir :: cardVFs.take vfs).map (· ++ lit "/numa_node")

/-- A sysfs with one card. Its state is the number of VFs, and it refuses to go from one
number to another other than by way of zero. -/
def cardSysfs : Sysfs (Fin 3) GoString where
  stat vfs path := if path ∈ cardDirs vfs then .ok ⟨true⟩ else .error noEntry
  readDir vfs path :=
    match cardListing vfs path with
    | some entries =>
        if h : (entries.map DirEntry.name).Nodup then .ok ⟨entries, h⟩ else .error noEntry
    | none => .error noEntry
  readFile vfs path :=
    if path = cardDir ++ lit "/sriov_numvfs" then .ok (intData vfs.val)
    else if path = cardDir ++ lit "/sriov_totalvfs" then .ok (intData 2)
    else .error noEntry
  evalSymlinks vfs path :=
    match ((cardLinks.zip cardVFs).take vfs).lookup path with
    | some vf => .ok vf
    | none => .error noEntry
  numaFile vfs path := if path ∈ cardNumaFiles vfs then some path else none
  writeFile path data s :=
    if path = cardDir ++ lit "/sriov_numvfs" then
      match ([0, 1, 2] : List (Fin 3)).find? fun n => data = intData n.val with
      | some n =>
          if n = 0 ∨ s.tree = 0 ∨ n = s.tree then (none, { s with tree := n })
          else (some ⟨false, lit "device or resource busy"⟩, s)
      | none => (some ⟨false, lit "invalid argument"⟩, s)
    else if path ∈ cardNumaFiles s.tree then
      match ([0, 1] : List Int).find? fun node => data = intData node with
      | some node => (none, { s with numa := put s.numa (path, node) })
      | none => (some ⟨false, lit "invalid argument"⟩, s)
    else (some noEntry, s)

theorem intData_injective : Function.Injective intData :=
  fun _ _ h => itoa_injective (List.append_cancel_right h)

theorem numvfsPath_deviceDir {pci : GoString} (hpci : isPCIAddress pci = true) :
    numvfsPath (deviceDir (lit "/sys") pci) =
      lit "/sys/bus/pci/devices/" ++ (pci ++ lit "/sriov_numvfs") := by
  have hplain := plain_of_isPCIAddress hpci
  have hdevices : devicesDir (lit "/sys") = lit "/sys/bus/pci/devices" := by decide
  have hfront : joinPrefix (lit "/sys/bus/pci/devices") =
      lit "/sys/bus/pci/devices" ++ [slash] := by decide
  have hdir : deviceDir (lit "/sys") pci = lit "/sys/bus/pci/devices" ++ slash :: pci := by
    rw [deviceDir, join_name _ hplain, hdevices, hfront, List.append_assoc,
      List.singleton_append]
  rw [numvfsPath, join_name _ (by decide), hdir, joinPrefix_append (by decide) hplain, hfront,
    List.append_assoc _ (pci ++ [slash]), List.append_assoc pci,
    show lit "/sys/bus/pci/devices" ++ [slash] = lit "/sys/bus/pci/devices/" by decide,
    show [slash] ++ lit "sriov_numvfs" = lit "/sriov_numvfs" by decide]

/-- The number of VFs of any other device is nowhere to be found. -/
theorem eq_cardAddr {pci : GoString} (hpci : isPCIAddress pci = true)
    (h : numvfsPath (deviceDir (lit "/sys") pci) = cardDir ++ lit "/sriov_numvfs") :
    pci = cardAddr := by
  rw [numvfsPath_deviceDir hpci,
    show cardDir = lit "/sys/bus/pci/devices/" ++ cardAddr by decide, List.append_assoc] at h
  exact List.append_cancel_right (List.append_cancel_left h)

theorem cardSysfs_vfCount (vfs : Fin 3) :
    vfCount cardSysfs vfs (deviceDir (lit "/sys") cardAddr) = vfs := by
  revert vfs
  decide +kernel

theorem cardSysfs_readInt (vfs : Fin 3) :
    cardSysfs.readInt size vfs (cardDir ++ lit "/sriov_numvfs") = some (vfs.val : Int) := by
  revert vfs
  cases size <;> decide +kernel

theorem lastComponent_cardNumaFiles (vfs : Fin 3) :
    ∀ path ∈ cardNumaFiles vfs, lastComponent path = lit "numa_node" := by
  revert vfs
  decide +kernel

/-- What a successful write to the number of VFs does. -/
theorem cardSysfs_write {pci : GoString} {n : Int} {s s' : State (Fin 3) GoString}
    (hpci : isPCIAddress pci = true)
    (h : cardSysfs.writeFile (numvfsPath (deviceDir (lit "/sys") pci)) (intData n) s = (none, s')) :
    pci = cardAddr ∧ ∃ vfs : Fin 3, n = vfs.val ∧ s' = { s with tree := vfs } := by
  simp only [cardSysfs] at h
  split at h
  next hpath =>
    refine ⟨eq_cardAddr hpci hpath, ?_⟩
    split at h
    next vfs hfind =>
      have hn := List.find?_some hfind
      split at h
      · exact ⟨vfs, intData_injective (of_decide_eq_true hn), (Prod.mk.inj h).2.symm⟩
      · simp at h
    · simp at h
  next =>
    split at h
    next hnuma =>
      have hlast := lastComponent_cardNumaFiles _ _ hnuma
      rw [lastComponent_numvfsPath] at hlast
      exact absurd hlast (by decide)
    · simp at h

theorem cardSysfs_sriovFiles (size : IntSize) : SriovFiles cardSysfs size (lit "/sys") where
  current pci vfs value hpci h := by
    have hpath : numvfsPath (deviceDir (lit "/sys") pci) = cardDir ++ lit "/sriov_numvfs" := by
      by_contra hne
      have htotal : numvfsPath (deviceDir (lit "/sys") pci) ≠ cardDir ++ lit "/sriov_totalvfs" := by
        intro heq
        have hlast := congrArg lastComponent heq
        rw [lastComponent_numvfsPath] at hlast
        exact absurd hlast (by decide +kernel)
      simp [Sysfs.readInt, cardSysfs, hne, htotal] at h
    rw [hpath, cardSysfs_readInt] at h
    rw [← Option.some.inj h, eq_cardAddr hpci hpath, cardSysfs_vfCount]
  store pci n s s' hpci h := by
    obtain ⟨rfl, vfs, rfl, rfl⟩ := cardSysfs_write hpci h
    rw [cardSysfs_vfCount]

/-- What a successful write to a `numa_node` file does, and when it is one. -/
theorem cardSysfs_write_numa {dir : GoString} {node : Int} {s s' : State (Fin 3) GoString} :
    cardSysfs.writeFile (numaPath dir) (intData node) s = (none, s') ↔
      numaPath dir ∈ cardNumaFiles s.tree ∧ node ∈ [0, 1] ∧
        s' = { s with numa := put s.numa (numaPath dir, node) } := by
  have hnumvfs : numaPath dir ≠ cardDir ++ lit "/sriov_numvfs" := by
    intro heq
    have hlast := congrArg lastComponent heq
    rw [lastComponent_numaPath] at hlast
    exact absurd hlast (by decide +kernel)
  have hfind : ([0, 1] : List Int).find? (fun n => decide (intData node = intData n)) =
      if node ∈ [0, 1] then some node else none := by
    simp only [intData_injective.eq_iff]
    by_cases h0 : node = 0
    · simp [h0]
    · by_cases h1 : node = 1
      · simp [h1]
      · simp [h0, h1]
  simp only [cardSysfs, if_neg hnumvfs, hfind]
  split
  next hnuma =>
    by_cases hnode : node ∈ [0, 1]
    · rw [if_pos hnode]
      simp only [Prod.mk.injEq, hnuma, hnode, true_and]
      exact eq_comm
    · simp [hnode]
  next hnuma => simp [hnuma]

theorem cardSysfs_numaFiles : NumaFiles cardSysfs where
  store dir node s s' h := by
    obtain ⟨hnuma, -, hstate⟩ := cardSysfs_write_numa.mp h
    exact ⟨numaPath dir, if_pos hnuma, hstate⟩

/-- Two VFs, on whatever nodes there are. -/
def cardConfig : Config := ⟨lit "/sys", 2, -1, [], false⟩

theorem cardSysfs_listVFPaths (s : State (Fin 3) GoString) :
    ((listVFPaths cardSysfs.filesystem cardDir).run s).result = .ok (cardVFs.take s.tree) := by
  obtain ⟨vfs, numa⟩ := s
  have hrun : ((listVFPaths cardSysfs.filesystem cardDir).run ⟨vfs, numa⟩).result =
      .ok (sortStrings (cardVFs.take vfs)) := by
    fin_cases vfs <;> rfl
  rw [hrun, sortStrings, List.mergeSort_of_pairwise]
  fin_cases vfs <;> decide

theorem cardSysfs_listNUMANodes (s : State (Fin 3) GoString) :
    ((listNUMANodes cardSysfs.filesystem size (lit "/sys")).run s).result = .ok [0, 1] := by
  obtain ⟨vfs, numa⟩ := s
  have hrun : ((listNUMANodes cardSysfs.filesystem size (lit "/sys")).run ⟨vfs, numa⟩).result =
      .ok (([0, 1] : List Int).mergeSort fun a b => decide (a ≤ b)) := by
    fin_cases vfs <;> cases size <;> rfl
  rw [hrun, List.mergeSort_of_pairwise (by decide)]

theorem cardSysfs_valid (vfs : Fin 3) :
    ValidPF cardSysfs size vfs (devicesDir (lit "/sys")) cardAddr
      ⟨cardAddr, cardDir, 2, vfs.val⟩ where
  pciAddr := rfl
  path := show cardDir = _ by decide +kernel
  dir := ⟨⟨true⟩, by revert vfs; decide +kernel, rfl⟩
  physfn := ⟨noEntry, by revert vfs; decide +kernel, rfl⟩
  net := ⟨⟨true⟩, by revert vfs; decide +kernel, rfl⟩
  totalVFs := by revert vfs; cases size <;> decide +kernel
  capacity := show (0 : Int) < 2 by decide
  currentVFs := cardSysfs_readInt vfs

/-- The card is listed, and all that is listed besides are VFs. -/
theorem cardSysfs_devices (vfs : Fin 3) :
    ⟨cardAddr, false, true⟩ ∈ devices cardSysfs (lit "/sys") vfs ∧
      ∀ entry ∈ devices cardSysfs (lit "/sys") vfs, entry ≠ ⟨cardAddr, false, true⟩ →
        cardSysfs.stat vfs (join [deviceDir (lit "/sys") entry.name, lit "physfn"]) =
          .ok ⟨true⟩ := by
  revert vfs
  decide +kernel

theorem cardSysfs_resolvePF {s : State (Fin 3) GoString} :
    ((resolvePF cardSysfs.filesystem size (lit "/sys") []).run s).result =
      .ok ⟨cardAddr, cardDir, 2, s.tree.val⟩ := by
  obtain ⟨listing, hlisting⟩ : ∃ listing,
      cardSysfs.readDir s.tree (devicesDir (lit "/sys")) = .ok listing := by
    generalize s.tree = vfs
    fin_cases vfs <;> exact ⟨_, rfl⟩
  obtain ⟨hmem, hvfs⟩ := cardSysfs_devices s.tree
  rw [devices_eq hlisting] at hmem hvfs
  refine (resolvePF_auto_ok cardSysfs size).mpr ⟨listing, hlisting, ⟨cardAddr, false, true⟩, hmem,
    ⟨Or.inr rfl, by decide⟩, cardSysfs_valid s.tree, ?_⟩
  intro other hother hlt _ pf hvalid
  obtain ⟨err, hphysfn, -⟩ := hvalid.physfn
  rw [hvalid.path] at hphysfn
  have hne : other ≠ ⟨cardAddr, false, true⟩ := fun heq => List.lt_irrefl _ (heq ▸ hlt)
  cases (hvfs other hother hne).symm.trans hphysfn

theorem cardSysfs_setNumVFs (numa : GoString → Option Int) :
    ∃ log, (setNumVFs cardSysfs.filesystem ⟨cardAddr, cardDir, 2, 1⟩ 2).run ⟨1, numa⟩ =
      ⟨.ok (), ⟨2, numa⟩, log⟩ :=
  ⟨_, rfl⟩

theorem cardSysfs_assigns (numa : GoString → Option Int) :
    ∃ s' log, Assigns cardSysfs (balancePlan [0, 1] (by decide) 0 cardVFs) ⟨2, numa⟩ s' log :=
  ⟨_, _, .cons rfl (.cons rfl (.nil _))⟩

theorem cardSysfs_run (size : IntSize) : ∃ s' log, (run cardSysfs.filesystem size cardConfig).run
    ⟨1, fun _ => none⟩ = ⟨.ok (), s', log⟩ := by
  obtain ⟨log₁, hset⟩ := cardSysfs_setNumVFs fun _ => none
  obtain ⟨s', log₂, hassigns⟩ := cardSysfs_assigns fun _ => none
  have hplan : vfPlan cardSysfs size cardConfig ⟨cardAddr, cardDir, 2, 1⟩ ⟨2, fun _ => none⟩ =
      some (balancePlan [0, 1] (by decide) 0 cardVFs) := by
    rw [vfPlan]
    dsimp only
    rw [cardSysfs_listVFPaths, show cardConfig.sysfsRoot = lit "/sys" from rfl,
      cardSysfs_listNUMANodes]
    rfl
  refine ⟨s', log₁ ++ log₂, (run_ok rfl).mpr ⟨by decide, ⟨⟨true⟩, by decide +kernel, rfl⟩, _,
    cardSysfs_resolvePF, ?_⟩⟩
  exact (setUp_ok rfl cardSysfs_numaFiles).mpr
    ⟨le_rfl, _, _, log₁, log₂, hset, hplan, hassigns, rfl⟩

/-- The card goes from one VF to two, and each is on one of the two nodes. -/
theorem strict_run_effect_card :
    ∃ s' log, (run cardSysfs.filesystem .w64 cardConfig).run ⟨1, fun _ => none⟩ =
        ⟨.ok (), s', log⟩ ∧
      s'.tree = 2 ∧
      ∀ vfPath ∈ cardVFs, ∃ node ∈ [0, 1], numaNode cardSysfs s' vfPath = some node := by
  obtain ⟨s', log, hrun⟩ := cardSysfs_run .w64
  obtain ⟨pf, hpf, -, hcount, -, -, -, hnodes, -⟩ :=
    strict_run_effect (cardSysfs_sriovFiles .w64) cardSysfs_numaFiles rfl hrun
  obtain rfl := Except.ok.inj (hpf.symm.trans cardSysfs_resolvePF)
  have hvfs : s'.tree = 2 := by
    rw [show cardDir = deviceDir (lit "/sys") cardAddr by decide +kernel,
      cardSysfs_vfCount] at hcount
    exact Fin.ext (Int.ofNat.inj hcount)
  have honline : ∀ node, node ∈ [0, 1] ↔ OnlineNode cardSysfs .w64 s'.tree (lit "/sys") node :=
    fun _ => mem_listNUMANodes (cardSysfs_listNUMANodes s')
  refine ⟨s', log, hrun, hvfs, fun vfPath hvf => ?_⟩
  have hlisted : vfPath ∈ cardVFs.take s'.tree := by
    rw [hvfs]
    exact hvf
  obtain ⟨node, hnode, hvalue⟩ := hnodes (by decide) (by decide) ⟨0, (honline 0).mp (by decide)⟩
    vfPath ((mem_listVFPaths (cardSysfs_listVFPaths s')).mp hlisted)
  exact ⟨node, (honline node).mpr hnode, hvalue⟩

end DraEnv.Sriovvf
