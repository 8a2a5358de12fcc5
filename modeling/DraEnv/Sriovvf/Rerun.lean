import DraEnv.Sriovvf.Strict

/-!
Running the tool again.

Setting the number of VFs changes the very directory in which the device
is looked for: VFs are network devices too, and some may come before the
device in the order of names. What is assumed is that only VFs come and
go, that a VF shows a `physfn` entry, and that all else the search looks
at stays as it is (`VFsChanged`). One such change then keeps the device
selected, with the new number of VFs, and so does the sequence of changes
a run makes. A second run finds the number it was going to set, and
carries out the plan of the first on the same tree.
-/

namespace DraEnv.Sriovvf

open DraEnv.Foundation DraEnv.GoStd Effect

variable {τ φ : Type} {fs : Sysfs τ φ} {size : IntSize} {cfg : Config}

/-! ### What is assumed of sysfs -/

def HasPhysfn (fs : Sysfs τ φ) (tree : τ) (dir : GoString) : Prop :=
  ∃ info, fs.stat tree (join [dir, lit "physfn"]) = .ok info

/-- The device looks the same in both trees, but for its number of VFs. -/
structure SameDevice (fs : Sysfs τ φ) (tree tree' : τ) (dir : GoString) : Prop where
  stat : fs.stat tree' dir = fs.stat tree dir
  physfn : fs.stat tree' (join [dir, lit "physfn"]) = fs.stat tree (join [dir, lit "physfn"])
  net : fs.stat tree' (join [dir, lit "net"]) = fs.stat tree (join [dir, lit "net"])
  totalVFs : fs.readFile tree' (join [dir, lit "sriov_totalvfs"]) =
    fs.readFile tree (join [dir, lit "sriov_totalvfs"])

/-- From one tree to the other, the device at an address has got `n` VFs. -/
structure VFsChanged (fs : Sysfs τ φ) (size : IntSize) (root pci : GoString) (n : Int)
    (tree tree' : τ) : Prop where
  rootStat : fs.stat tree' root = fs.stat tree root
  numVFs : fs.readInt size tree' (numvfsPath (deviceDir root pci)) = some n
  self : SameDevice fs tree tree' (deviceDir root pci)
  listing : ∀ listing, fs.readDir tree (devicesDir root) = .ok listing →
    ∃ listing', fs.readDir tree' (devicesDir root) = .ok listing'
  added : ∀ entry ∈ devices fs root tree', entry ∉ devices fs root tree →
    HasPhysfn fs tree' (deviceDir root entry.name)
  removed : ∀ entry ∈ devices fs root tree, entry ∉ devices fs root tree' →
    HasPhysfn fs tree (deviceDir root entry.name)
  other : ∀ entry ∈ devices fs root tree, entry ∈ devices fs root tree' → entry.name ≠ pci →
    SameDevice fs tree tree' (deviceDir root entry.name) ∧
      fs.readFile tree' (numvfsPath (deviceDir root entry.name)) =
        fs.readFile tree (numvfsPath (deviceDir root entry.name))

/-- A write to `sriov_numvfs` changes VFs only, and whether a node is accepted does not
depend on the nodes there are. -/
structure SteadySysfs (fs : Sysfs τ φ) (size : IntSize) (root : GoString) : Prop where
  numVFs : ∀ pci n s s', isPCIAddress pci = true →
    fs.writeFile (numvfsPath (deviceDir root pci)) (intData n) s = (none, s') →
    VFsChanged fs size root pci n s.tree s'.tree
  accepts : ∀ dir node s₁ s₁' s₂,
    fs.writeFile (numaPath dir) (intData node) s₁ = (none, s₁') → s₂.tree = s₁.tree →
    ∃ s₂', fs.writeFile (numaPath dir) (intData node) s₂ = (none, s₂')

/-! ### The device stays selected -/

section

variable {root pci : GoString} {n : Int} {tree tree' : τ} {pf : PfDevice}

theorem ValidPF.not_hasPhysfn (h : ValidPF fs size tree (devicesDir root) pci pf) :
    ¬ HasPhysfn fs tree (deviceDir root pci) := by
  rintro ⟨info, hinfo⟩
  obtain ⟨err, herr, -⟩ := h.physfn
  rw [h.path, ← deviceDir, hinfo] at herr
  simp at herr

/-- The device that was changed is valid with its new number of VFs. -/
theorem ValidPF.changed (h : ValidPF fs size tree (devicesDir root) pci pf)
    (hchanged : VFsChanged fs size root pci n tree tree') :
    ValidPF fs size tree' (devicesDir root) pci { pf with currentVFs := n } := by
  have hpath : pf.path = deviceDir root pci := h.path
  have hself := hchanged.self
  rw [← hpath] at hself
  refine ⟨h.pciAddr, h.path, ?_, ?_, ?_, ?_, h.capacity, ?_⟩
  · rw [Sysfs.IsDir, hself.stat]
    exact h.dir
  · rw [hself.physfn]
    exact h.physfn
  · rw [Sysfs.IsDir, hself.net]
    exact h.net
  · rw [Sysfs.readInt, hself.totalVFs]
    exact h.totalVFs
  · rw [hpath]
    exact hchanged.numVFs

/-- A device that was left alone is valid only if it was. -/
theorem ValidPF.of_same (h : ValidPF fs size tree' (devicesDir root) pci pf)
    (hsame : SameDevice fs tree tree' (deviceDir root pci))
    (hnumVFs : fs.readFile tree' (numvfsPath (deviceDir root pci)) =
      fs.readFile tree (numvfsPath (deviceDir root pci))) :
    ValidPF fs size tree (devicesDir root) pci pf := by
  have hpath : pf.path = deviceDir root pci := h.path
  rw [← hpath] at hsame hnumVFs
  refine ⟨h.pciAddr, h.path, ?_, ?_, ?_, ?_, h.capacity, ?_⟩
  · rw [Sysfs.IsDir, ← hsame.stat]
    exact h.dir
  · rw [← hsame.physfn]
    exact h.physfn
  · rw [Sysfs.IsDir, ← hsame.net]
    exact h.net
  · rw [Sysfs.readInt, ← hsame.totalVFs]
    exact h.totalVFs
  · rw [Sysfs.readInt, ← numvfsPath, ← hnumVFs]
    exact h.currentVFs

/-- Of the devices before the selected one, the VFs among them are not valid and the
others are what they were. -/
theorem resolvePF_changed {userPCI : GoString} {s s' : State τ φ}
    (hchanged : VFsChanged fs size root pf.pciAddr n s.tree s'.tree)
    (h : ((resolvePF fs.filesystem size root userPCI).run s).result = .ok pf) :
    ((resolvePF fs.filesystem size root userPCI).run s').result =
      .ok { pf with currentVFs := n } := by
  by_cases huser : userPCI = []
  · subst huser
    obtain ⟨listing, hlisting, entry, hentry, hcandidate, hvalid, hleast⟩ :=
      (resolvePF_auto_ok fs size).mp h
    obtain ⟨listing', hlisting'⟩ := hchanged.listing listing hlisting
    rw [hvalid.pciAddr] at hchanged
    rw [← devices_eq hlisting] at hentry hleast
    -- a device without physfn was neither removed nor added
    have hentry' : entry ∈ devices fs root s'.tree := by
      by_contra hremoved
      exact hvalid.not_hasPhysfn (hchanged.removed entry hentry hremoved)
    refine (resolvePF_auto_ok fs size).mpr ⟨listing', hlisting', entry, ?_, hcandidate,
      hvalid.changed hchanged, ?_⟩
    · rwa [← devices_eq hlisting']
    · intro other hother hlt hcandidate' pf' hvalid'
      rw [← devices_eq hlisting'] at hother
      have hold : other ∈ devices fs root s.tree := by
        by_contra hadded
        exact hvalid'.not_hasPhysfn (hchanged.added other hother hadded)
      have hne : other.name ≠ entry.name := fun heq => List.lt_irrefl _ (heq ▸ hlt)
      obtain ⟨hsame, hnumVFs⟩ := hchanged.other other hold hother hne
      exact hleast other hold hlt hcandidate' pf' (hvalid'.of_same hsame hnumVFs)
  · obtain ⟨haddress, hvalid⟩ := (resolvePF_user_ok fs size huser).mp h
    rw [hvalid.pciAddr] at hchanged
    exact (resolvePF_user_ok fs size huser).mpr ⟨haddress, hvalid.changed hchanged⟩

end

/-! ### A run and the next -/

section

variable {pf : PfDevice} {s s₁ s₂ s' : State τ φ} {log : List (WriteCall (State τ φ))}
  {plan : List (GoString × Int)} (hsteady : SteadySysfs fs size cfg.sysfsRoot)

include hsteady

/-- One write to `sriov_numvfs` of the selected device. -/
theorem selected_write {n : Int}
    (h : ((resolvePF fs.filesystem size cfg.sysfsRoot cfg.pciAddr).run s).result = .ok pf)
    (hdir : fs.IsDir s.tree cfg.sysfsRoot)
    (hwrite : fs.writeFile (numvfsPath pf.path) (intData n) s = (none, s')) :
    ((resolvePF fs.filesystem size cfg.sysfsRoot cfg.pciAddr).run s').result =
        .ok { pf with currentVFs := n } ∧
      fs.IsDir s'.tree cfg.sysfsRoot := by
  obtain ⟨haddress, hvalid⟩ := resolvePF_valid fs size h
  rw [hvalid.path] at hwrite
  have hchanged := hsteady.numVFs pf.pciAddr n s s' haddress hwrite
  refine ⟨resolvePF_changed hchanged h, ?_⟩
  rw [Sysfs.IsDir, hchanged.rootStat]
  exact hdir

/-- The device stays selected, and shows the number of VFs it was to have. -/
theorem selected_reconfigures
    (h : ((resolvePF fs.filesystem size cfg.sysfsRoot cfg.pciAddr).run s).result = .ok pf)
    (hdir : fs.IsDir s.tree cfg.sysfsRoot)
    (hset : Reconfigures fs (numvfsPath pf.path) pf.currentVFs cfg.numVFs s s' log) :
    ((resolvePF fs.filesystem size cfg.sysfsRoot cfg.pciAddr).run s').result =
        .ok { pf with currentVFs := cfg.numVFs } ∧
      fs.IsDir s'.tree cfg.sysfsRoot := by
  cases hset with
  | same hsame =>
      rw [← hsame]
      exact ⟨h, hdir⟩
  | fresh _ hwrite => exact selected_write hsteady h hdir hwrite
  | reset hwrite₁ hwrite₂ =>
      obtain ⟨h₁, hdir₁⟩ := selected_write hsteady h hdir hwrite₁
      have h₂ := selected_write hsteady h₁ hdir₁ hwrite₂
      exact h₂

/-- A plan that was carried out can be on the same tree. -/
theorem assigns_accepted [DecidableEq φ] (hnuma : NumaFiles fs) (h : Assigns fs plan s s' log)
    (htree : s₂.tree = s.tree) : ∃ s₂' log', Assigns fs plan s₂ s₂' log' := by
  induction h generalizing s₂ with
  | nil s => exact ⟨s₂, [], .nil s₂⟩
  | @cons _ _ _ s s₁ _ _ hwrite _ ih =>
      obtain ⟨s₃, hwrite'⟩ := hsteady.accepts _ _ _ _ s₂ hwrite htree
      obtain ⟨_, -, hstate⟩ := hnuma.store _ _ _ _ hwrite
      obtain ⟨_, -, hstate'⟩ := hnuma.store _ _ _ _ hwrite'
      have htree' : s₃.tree = s₁.tree := by
        rw [hstate, hstate']
        exact htree
      obtain ⟨s₂', log', hrest⟩ := ih htree'
      exact ⟨s₂', _, .cons hwrite' hrest⟩

/-- To carry out a plan once more changes nothing. -/
theorem assigns_again [DecidableEq φ] (hnuma : NumaFiles fs) (h : Assigns fs plan s s' log) :
    ∃ log', Assigns fs plan s' s' log' := by
  have htree := assigns_tree hnuma h
  obtain ⟨s₂', log', hagain⟩ := assigns_accepted hsteady hnuma h htree
  have hstate := (assigns_state hnuma h).1
  have hstate' := (assigns_state hnuma hagain).1
  have hsame : s₂' = s' := by
    rw [hstate', htree, hstate]
    dsimp only
    rw [foldl_put_foldl_put]
  rw [hsame] at hagain
  exact ⟨log', hagain⟩

end

/-! ### The second run -/

/-- A strict run after one that returned nil selects the same device, does not write to
`sriov_numvfs`, returns nil and leaves the state as it is. -/
theorem strict_rerun_noop [DecidableEq φ] (hsteady : SteadySysfs fs size cfg.sysfsRoot)
    (hnuma : NumaFiles fs) (hstrict : cfg.tryMode = false) {s s' : State τ φ}
    {log : List (WriteCall (State τ φ))}
    (hrun : (run fs.filesystem size cfg).run s = ⟨.ok (), s', log⟩) :
    ∃ pf log',
      ((resolvePF fs.filesystem size cfg.sysfsRoot cfg.pciAddr).run s).result = .ok pf ∧
      ((resolvePF fs.filesystem size cfg.sysfsRoot cfg.pciAddr).run s').result =
        .ok { pf with currentVFs := cfg.numVFs } ∧
      (run fs.filesystem size cfg).run s' = ⟨.ok (), s', log'⟩ ∧
      ∀ w ∈ log', lastComponent w.path ≠ lit "sriov_numvfs" := by
  obtain ⟨hnumVFs, hdir, pf, hpf, hsetUp⟩ := (run_ok hstrict).mp hrun
  obtain ⟨htotal, s₁, plan, log₁, log₂, hset, hplan, hassigns, rfl⟩ :=
    (setUp_ok hstrict hnuma).mp hsetUp
  obtain ⟨hpf₁, hdir₁⟩ := selected_reconfigures hsteady hpf hdir (setNumVFs_ok hset)
  have htree := assigns_tree hnuma hassigns
  have hpf' := ((observes_resolvePF fs size _ _).result s' s₁ htree).trans hpf₁
  obtain ⟨log', hagain⟩ := assigns_again hsteady hnuma hassigns
  -- the second run finds its number of VFs and the plan of the first
  have hset' : (setNumVFs fs.filesystem { pf with currentVFs := cfg.numVFs } cfg.numVFs).run s' =
      ⟨.ok (), s', []⟩ := by
    rw [setNumVFs, if_pos rfl, run_pure]
  have hplan' : vfPlan fs size cfg { pf with currentVFs := cfg.numVFs } s' = some plan :=
    (vfPlan_congr htree).trans hplan
  refine ⟨pf, log', hpf, hpf', ?_, ?_⟩
  · refine (run_ok hstrict).mpr ⟨hnumVFs, ?_, _, hpf', ?_⟩
    · rw [htree]
      exact hdir₁
    · exact (setUp_ok hstrict hnuma).mpr
        ⟨htotal, s', plan, [], log', hset', hplan', hagain, rfl⟩
  · intro w hw
    obtain ⟨dir, -, hpath⟩ := assigns_write hagain hw
    rw [hpath, lastComponent_numaPath]
    decide

/-! ### The card again -/

theorem cardSysfs_isPCIAddress (vfs : Fin 3) :
    ∀ entry ∈ devices cardSysfs (lit "/sys") vfs, isPCIAddress entry.name = true := by
  revert vfs
  decide +kernel

/-- An entry that only one of two listings has is a VF there. -/
theorem cardSysfs_hasPhysfn {vfs vfs' : Fin 3} {entry : DirEntry}
    (hentry : entry ∈ devices cardSysfs (lit "/sys") vfs)
    (hother : entry ∉ devices cardSysfs (lit "/sys") vfs') :
    HasPhysfn cardSysfs vfs (deviceDir (lit "/sys") entry.name) := by
  refine ⟨⟨true⟩, (cardSysfs_devices vfs).2 entry hentry ?_⟩
  rintro rfl
  exact hother (cardSysfs_devices vfs').1

theorem cardSysfs_other (vfs vfs' : Fin 3) :
    ∀ entry ∈ devices cardSysfs (lit "/sys") vfs, entry ∈ devices cardSysfs (lit "/sys") vfs' →
      SameDevice cardSysfs vfs vfs' (deviceDir (lit "/sys") entry.name) := by
  intro entry h h'
  constructor <;> revert vfs vfs' entry <;> decide +kernel

theorem cardSysfs_vfsChanged (size : IntSize) (vfs vfs' : Fin 3) :
    VFsChanged cardSysfs size (lit "/sys") cardAddr vfs'.val vfs vfs' where
  rootStat := by
    revert vfs vfs'
    decide +kernel
  numVFs := by
    have hpath : numvfsPath (deviceDir (lit "/sys") cardAddr) = cardDir ++ lit "/sriov_numvfs" := by
      decide +kernel
    rw [hpath, cardSysfs_readInt]
  self := cardSysfs_other vfs vfs' ⟨cardAddr, false, true⟩ (cardSysfs_devices vfs).1
    (cardSysfs_devices vfs').1
  listing _ _ := by
    fin_cases vfs' <;> exact ⟨_, rfl⟩
  added _ := cardSysfs_hasPhysfn
  removed _ := cardSysfs_hasPhysfn
  other entry h h' hne := by
    refine ⟨cardSysfs_other vfs vfs' entry h h', ?_⟩
    have hpath : numvfsPath (deviceDir (lit "/sys") entry.name) ≠
        cardDir ++ lit "/sriov_numvfs" :=
      fun heq => hne (eq_cardAddr (cardSysfs_isPCIAddress vfs entry h) heq)
    simp only [cardSysfs, if_neg hpath]

theorem cardSysfs_steady (size : IntSize) : SteadySysfs cardSysfs size (lit "/sys") where
  numVFs pci n s s' hpci hwrite := by
    obtain ⟨rfl, vfs, rfl, rfl⟩ := cardSysfs_write hpci hwrite
    exact cardSysfs_vfsChanged size s.tree vfs
  accepts dir node s₁ s₁' s₂ hwrite htree := by
    obtain ⟨hnuma, hnode, -⟩ := cardSysfs_write_numa.mp hwrite
    rw [← htree] at hnuma
    exact ⟨_, cardSysfs_write_numa.mpr ⟨hnuma, hnode, rfl⟩⟩

/-- The card is found again behind its two VFs, and stays as it is. -/
theorem strict_rerun_noop_card :
    ∃ s' log log', (run cardSysfs.filesystem .w64 cardConfig).run ⟨1, fun _ => none⟩ =
        ⟨.ok (), s', log⟩ ∧
      (run cardSysfs.filesystem .w64 cardConfig).run s' = ⟨.ok (), s', log'⟩ ∧
      ∀ w ∈ log', lastComponent w.path ≠ lit "sriov_numvfs" := by
  obtain ⟨s', log, hrun⟩ := cardSysfs_run .w64
  obtain ⟨_, log', -, -, hagain, hlog⟩ :=
    strict_rerun_noop (cardSysfs_steady .w64) cardSysfs_numaFiles rfl hrun
  exact ⟨s', log, log', hrun, hagain, hlog⟩

end DraEnv.Sriovvf
