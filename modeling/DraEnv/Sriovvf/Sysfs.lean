import DraEnv.Foundation.LastWrite
import DraEnv.Sriovvf.Reading

/-!
The tool on sysfs.

The state of a sysfs is what its files and directories show, here called
the tree, together with the value each `numa_node` file holds. What the
tool reads, it reads from the tree, and reading changes nothing. Each
function that only reads therefore has a result that depends on the tree
alone, and for the search for the device the result is spelled out:
`ValidPF` lists what a device must show, and `resolvePF` returns the
device of the least address that shows it. The paths and the nodes that
are listed are told by the entries of the tree (`mem_listVFPaths`,
`mem_listNUMANodes`).
-/

namespace DraEnv.Sriovvf

open DraEnv.Foundation DraEnv.GoStd Effect

structure State (τ φ : Type) where
  tree : τ
  /-- The values of the `numa_node` files. -/
  numa : φ → Option Int

/-- A sysfs: what its tree shows, and what a write does to its state. -/
structure Sysfs (τ φ : Type) where
  stat : τ → GoString → Except FsError FileInfo
  readDir : τ → GoString → Except FsError Listing
  /-- The files other than the `numa_node` ones. -/
  readFile : τ → GoString → Except FsError Bytes
  evalSymlinks : τ → GoString → Except FsError GoString
  /-- The `numa_node` file a path leads to. -/
  numaFile : τ → GoString → Option φ
  writeFile : GoString → Bytes → State τ φ → Option FsError × State τ φ

variable {τ φ α : Type}

/-- Reading a path: a `numa_node` file shows its value. -/
def Sysfs.read (fs : Sysfs τ φ) (path : GoString) (s : State τ φ) : Except FsError Bytes :=
  if lastComponent path = lit "numa_node" then
    match (fs.numaFile s.tree path).bind s.numa with
    | some node => .ok (intData node)
    | none => fs.readFile s.tree path
  else fs.readFile s.tree path

def Sysfs.filesystem (fs : Sysfs τ φ) : Filesystem (State τ φ) where
  stat path s := (fs.stat s.tree path, s)
  readDir path s := (fs.readDir s.tree path, s)
  readFile path s := (fs.read path s, s)
  evalSymlinks path s := (fs.evalSymlinks s.tree path, s)
  writeFile := fs.writeFile

/-- The number in a file. -/
def Sysfs.readInt (fs : Sysfs τ φ) (size : IntSize) (tree : τ) (path : GoString) : Option Int :=
  match fs.readFile tree path with
  | .ok data => atoi size (trimSpace data)
  | .error _ => none

/-- The path is a directory. -/
def Sysfs.IsDir (fs : Sysfs τ φ) (tree : τ) (path : GoString) : Prop :=
  ∃ info, fs.stat tree path = .ok info ∧ info.isDir = true

variable (fs : Sysfs τ φ) (size : IntSize)

/-! ### What is read -/

theorem observes_call {op : State τ φ → Except FsError α × State τ φ} (g : τ → Except FsError α)
    (hop : ∀ s, op s = (g s.tree, s)) : Observes State.tree (call op) where
  state s := by simp only [call, hop]
  log _ := rfl
  result s s' h := by simp only [call, hop, h]

theorem observes_ensureDir (path : GoString) :
    Observes State.tree (ensureDir fs.filesystem path) := by
  refine (observes_call (fs.stat · path) fun _ => rfl).bind fun r => ?_
  cases r with
  | error err => exact .fail _
  | ok info =>
      change Observes _ (if info.isDir then _ else _)
      split
      · exact .pure _
      · exact .fail _

theorem isDirAt_iff {path : GoString} {s s' : State τ φ} :
    IsDirAt fs.filesystem path s s' ↔ fs.IsDir s.tree path ∧ s' = s := by
  constructor
  · rintro ⟨info, hstat, hdir⟩
    obtain ⟨hinfo, rfl⟩ := Prod.mk.inj hstat
    exact ⟨⟨info, hinfo, hdir⟩, rfl⟩
  · rintro ⟨⟨info, hinfo, hdir⟩, rfl⟩
    exact ⟨info, Prod.ext hinfo rfl, hdir⟩

theorem ensureDir_ok {path : GoString} {s : State τ φ} :
    ((ensureDir fs.filesystem path).run s).result = .ok () ↔ fs.IsDir s.tree path := by
  rw [(observes_ensureDir fs path).result_ok, ensureDir_run_ok, isDirAt_iff]
  simp

theorem absentAt_iff {path : GoString} {s s' : State τ φ} :
    AbsentAt fs.filesystem path s s' ↔
      (∃ err, fs.stat s.tree path = .error err ∧ err.notExist = true) ∧ s' = s := by
  constructor
  · rintro ⟨err, hstat, hexist⟩
    obtain ⟨herr, rfl⟩ := Prod.mk.inj hstat
    exact ⟨⟨err, herr, hexist⟩, rfl⟩
  · rintro ⟨⟨err, herr, hexist⟩, rfl⟩
    exact ⟨err, Prod.ext herr rfl, hexist⟩

section

variable {path : GoString} (hpath : lastComponent path ≠ lit "numa_node")

include hpath

theorem readFile_filesystem (s : State τ φ) :
    fs.filesystem.readFile path s = (fs.readFile s.tree path, s) := by
  simp only [Sysfs.filesystem, Sysfs.read, if_neg hpath]

theorem observes_readIntFromFile :
    Observes State.tree (readIntFromFile fs.filesystem size path) := by
  refine (observes_call (fs.readFile · path) (readFile_filesystem fs hpath)).bind fun r => ?_
  cases r with
  | error err => exact .fail _
  | ok data =>
      dsimp only
      split
      · exact .fail _
      · exact .pure _

theorem numberAt_iff {s s' : State τ φ} {value : Int} :
    NumberAt fs.filesystem size path s value s' ↔
      fs.readInt size s.tree path = some value ∧ s' = s := by
  rw [NumberAt, readFile_filesystem fs hpath, Sysfs.readInt]
  constructor
  · rintro ⟨data, hread, hvalue⟩
    obtain ⟨hdata, rfl⟩ := Prod.mk.inj hread
    rw [hdata]
    exact ⟨hvalue, rfl⟩
  · rintro ⟨hvalue, rfl⟩
    cases hdata : fs.readFile s'.tree path with
    | error err => simp [hdata] at hvalue
    | ok data =>
        rw [hdata] at hvalue
        exact ⟨data, rfl, hvalue⟩

theorem readInt_of_noNumberAt {s s' : State τ φ} (h : NoNumberAt fs.filesystem size path s s') :
    fs.readInt size s.tree path = none ∧ s' = s := by
  obtain ⟨r, hread, hvalue⟩ := h
  rw [readFile_filesystem fs hpath] at hread
  obtain ⟨rfl, rfl⟩ := Prod.mk.inj hread
  rw [Sysfs.readInt]
  cases hdata : fs.readFile s.tree path with
  | error err => exact ⟨rfl, rfl⟩
  | ok data => exact ⟨hvalue data hdata, rfl⟩

end

/-! ### The device -/

theorem not_numaNode (dir : GoString) {name : GoString} (hname : Plain name)
    (hne : name ≠ lit "numa_node") : lastComponent (join [dir, name]) ≠ lit "numa_node" := by
  rw [lastComponent_join_name dir hname]
  exact hne

theorem totalvfs_not_numaNode (dir : GoString) :
    lastComponent (join [dir, lit "sriov_totalvfs"]) ≠ lit "numa_node" :=
  not_numaNode dir (by decide) (by decide)

theorem numvfs_not_numaNode (dir : GoString) :
    lastComponent (join [dir, lit "sriov_numvfs"]) ≠ lit "numa_node" :=
  not_numaNode dir (by decide) (by decide)

/-- What a device must show to be chosen, and what is noted of it. -/
structure ValidPF (tree : τ) (devRoot pci : GoString) (pf : PfDevice) : Prop where
  pciAddr : pf.pciAddr = pci
  path : pf.path = join [devRoot, pci]
  dir : fs.IsDir tree pf.path
  physfn : ∃ err, fs.stat tree (join [pf.path, lit "physfn"]) = .error err ∧ err.notExist = true
  net : fs.IsDir tree (join [pf.path, lit "net"])
  totalVFs : fs.readInt size tree (join [pf.path, lit "sriov_totalvfs"]) = some pf.totalVFs
  capacity : 0 < pf.totalVFs
  currentVFs : fs.readInt size tree (join [pf.path, lit "sriov_numvfs"]) = some pf.currentVFs

theorem observes_validatePFDevice (devRoot pci : GoString) :
    Observes State.tree (validatePFDevice fs.filesystem size devRoot pci) := by
  refine ((observes_ensureDir fs _).mapError _).bind fun _ => ?_
  refine (observes_call (fs.stat · _) fun _ => rfl).bind fun r => ?_
  cases r with
  | ok info => exact .fail _
  | error err =>
      dsimp only
      split
      · exact .fail _
      refine ((observes_ensureDir fs _).mapError _).bind fun _ => ?_
      refine ((observes_readIntFromFile fs size (totalvfs_not_numaNode _)).mapError _).bind
        fun totalVFs => ?_
      split
      · exact .fail _
      refine ((observes_readIntFromFile fs size (numvfs_not_numaNode _)).mapError _).bind
        fun currentVFs => ?_
      exact .pure _

theorem shown_iff {devRoot pci : GoString} {s s' : State τ φ} {pf : PfDevice} :
    Shown fs.filesystem size devRoot pci s pf s' ↔
      ValidPF fs size s.tree devRoot pci pf ∧ s' = s := by
  have htotal := totalvfs_not_numaNode pf.path
  have hcurrent := numvfs_not_numaNode pf.path
  constructor
  · rintro ⟨hpciAddr, hpath, hcapacity, s₁, s₂, s₃, s₄, hdir, habsent, hnet, htotalVFs, hcurrentVFs⟩
    obtain ⟨hdir, rfl⟩ := (isDirAt_iff fs).mp hdir
    obtain ⟨hphysfn, rfl⟩ := (absentAt_iff fs).mp habsent
    obtain ⟨hnet, rfl⟩ := (isDirAt_iff fs).mp hnet
    obtain ⟨htotalVFs, rfl⟩ := (numberAt_iff fs size htotal).mp htotalVFs
    obtain ⟨hcurrentVFs, rfl⟩ := (numberAt_iff fs size hcurrent).mp hcurrentVFs
    exact ⟨⟨hpciAddr, hpath, hdir, hphysfn, hnet, htotalVFs, hcapacity, hcurrentVFs⟩, rfl⟩
  · rintro ⟨⟨hpciAddr, hpath, hdir, hphysfn, hnet, htotalVFs, hcapacity, hcurrentVFs⟩, rfl⟩
    exact ⟨hpciAddr, hpath, hcapacity, s', s', s', s', (isDirAt_iff fs).mpr ⟨hdir, rfl⟩,
      (absentAt_iff fs).mpr ⟨hphysfn, rfl⟩, (isDirAt_iff fs).mpr ⟨hnet, rfl⟩,
      (numberAt_iff fs size htotal).mpr ⟨htotalVFs, rfl⟩,
      (numberAt_iff fs size hcurrent).mpr ⟨hcurrentVFs, rfl⟩⟩

theorem validatePFDevice_ok {devRoot pci : GoString} {s : State τ φ} {pf : PfDevice} :
    ((validatePFDevice fs.filesystem size devRoot pci).run s).result = .ok pf ↔
      ValidPF fs size s.tree devRoot pci pf := by
  rw [(observes_validatePFDevice fs size devRoot pci).result_ok, validatePFDevice_run_ok, shown_iff]
  simp

/-- The entries of the directory of the PCI devices. -/
def devices (fs : Sysfs τ φ) (root : GoString) (tree : τ) : List DirEntry :=
  match fs.readDir tree (devicesDir root) with
  | .ok listing => listing.entries
  | .error _ => []

theorem devices_eq {fs : Sysfs τ φ} {root : GoString} {tree : τ} {listing : Listing}
    (h : fs.readDir tree (devicesDir root) = .ok listing) :
    devices fs root tree = listing.entries := by
  rw [devices, h]

theorem observes_firstPF (devRoot : GoString) (entries : List DirEntry) :
    Observes State.tree (firstPF fs.filesystem size devRoot entries) := by
  induction entries with
  | nil => exact .fail _
  | cons entry entries ih =>
      rw [firstPF]
      split
      · exact ih
      split
      · exact ih
      refine (observes_validatePFDevice fs size devRoot entry.name).attempt.bind fun r => ?_
      cases r with
      | ok pf => exact .pure _
      | error err => exact ih

/-- One turn of the loop. -/
theorem firstPF_cons_ok {devRoot : GoString} {entry : DirEntry} {entries : List DirEntry}
    {s : State τ φ} {pf : PfDevice} :
    ((firstPF fs.filesystem size devRoot (entry :: entries)).run s).result = .ok pf ↔
      (Candidate entry ∧ ValidPF fs size s.tree devRoot entry.name pf) ∨
      ((Candidate entry → ∀ pf', ¬ ValidPF fs size s.tree devRoot entry.name pf') ∧
        ((firstPF fs.filesystem size devRoot entries).run s).result = .ok pf) := by
  by_cases hcandidate : Candidate entry
  · rw [firstPF_of_candidate hcandidate,
      (observes_validatePFDevice fs size devRoot entry.name).attempt.run_bind]
    simp only [run_attempt, hcandidate, true_and, true_imp_iff,
      ← validatePFDevice_ok fs size]
    cases (validatePFDevice fs.filesystem size devRoot entry.name).run s with
    | mk result state log =>
        cases result with
        | ok pf₀ => simp
        | error err => simp
  · rw [firstPF_of_not_candidate hcandidate]
    simp [hcandidate]

/-- Going through the entries by name, the loop stops at the least that is valid. -/
theorem firstPF_ok {devRoot : GoString} {entries : List DirEntry} {s : State τ φ} {pf : PfDevice}
    (hsorted : entries.Pairwise fun a b => a.name < b.name) :
    ((firstPF fs.filesystem size devRoot entries).run s).result = .ok pf ↔
      ∃ entry ∈ entries, Candidate entry ∧ ValidPF fs size s.tree devRoot entry.name pf ∧
        ∀ other ∈ entries, other.name < entry.name → Candidate other →
          ∀ pf', ¬ ValidPF fs size s.tree devRoot other.name pf' := by
  induction entries with
  | nil => simp [firstPF]
  | cons entry entries ih =>
      rw [List.pairwise_cons] at hsorted
      rw [firstPF_cons_ok, ih hsorted.2]
      constructor
      · rintro (⟨hcandidate, hvalid⟩ | ⟨hfirst, found, hmem, hcandidate, hvalid, hleast⟩)
        · refine ⟨entry, List.mem_cons_self, hcandidate, hvalid, ?_⟩
          intro other hother hlt
          rcases List.mem_cons.mp hother with rfl | hother
          · exact absurd hlt (List.lt_irrefl _)
          · exact absurd hlt (List.lt_asymm (hsorted.1 other hother))
        · refine ⟨found, List.mem_cons_of_mem _ hmem, hcandidate, hvalid, ?_⟩
          intro other hother hlt
          rcases List.mem_cons.mp hother with rfl | hother
          · exact hfirst
          · exact hleast other hother hlt
      · rintro ⟨found, hmem, hcandidate, hvalid, hleast⟩
        rcases List.mem_cons.mp hmem with rfl | hmem
        · exact Or.inl ⟨hcandidate, hvalid⟩
        · refine Or.inr ⟨hleast entry List.mem_cons_self (hsorted.1 found hmem), found, hmem,
            hcandidate, hvalid, fun other hother => ?_⟩
          exact hleast other (List.mem_cons_of_mem _ hother)

theorem resolvePF_user_ok {sysfsRoot userPCI : GoString} {s : State τ φ} {pf : PfDevice}
    (huser : userPCI ≠ []) :
    ((resolvePF fs.filesystem size sysfsRoot userPCI).run s).result = .ok pf ↔
      isPCIAddress userPCI = true ∧
        ValidPF fs size s.tree (devicesDir sysfsRoot) userPCI pf := by
  rw [resolvePF, if_pos huser]
  cases isPCIAddress userPCI with
  | false => simp
  | true => simpa using validatePFDevice_ok fs size

theorem resolvePF_auto_ok {sysfsRoot : GoString} {s : State τ φ} {pf : PfDevice} :
    ((resolvePF fs.filesystem size sysfsRoot []).run s).result = .ok pf ↔
      ∃ listing, fs.readDir s.tree (devicesDir sysfsRoot) = .ok listing ∧
        ∃ entry ∈ listing.entries, Candidate entry ∧
          ValidPF fs size s.tree (devicesDir sysfsRoot) entry.name pf ∧
          ∀ other ∈ listing.entries, other.name < entry.name → Candidate other →
            ∀ pf', ¬ ValidPF fs size s.tree (devicesDir sysfsRoot) other.name pf' := by
  have hdir : fs.filesystem.readDir (devicesDir sysfsRoot) s =
      (fs.readDir s.tree (devicesDir sysfsRoot), s) := rfl
  rw [resolvePF, if_neg (by simp), call_bind hdir]
  cases fs.readDir s.tree (devicesDir sysfsRoot) with
  | error err => simp
  | ok listing =>
      dsimp only
      rw [firstPF_ok fs size (sortEntries_sorted listing.nodup)]
      simp only [mem_sortEntries, Except.ok.injEq, exists_eq_left']

/-- Either way the device is a valid one under an address. -/
theorem resolvePF_valid {sysfsRoot userPCI : GoString} {s : State τ φ} {pf : PfDevice}
    (h : ((resolvePF fs.filesystem size sysfsRoot userPCI).run s).result = .ok pf) :
    isPCIAddress pf.pciAddr = true ∧
      ValidPF fs size s.tree (devicesDir sysfsRoot) pf.pciAddr pf := by
  by_cases huser : userPCI = []
  · subst huser
    obtain ⟨_, -, entry, -, hcandidate, hvalid, -⟩ := (resolvePF_auto_ok fs size).mp h
    rw [hvalid.pciAddr]
    exact ⟨hcandidate.2, hvalid⟩
  · obtain ⟨haddress, hvalid⟩ := (resolvePF_user_ok fs size huser).mp h
    rw [hvalid.pciAddr]
    exact ⟨haddress, hvalid⟩

theorem observes_resolvePF (sysfsRoot userPCI : GoString) :
    Observes State.tree (resolvePF fs.filesystem size sysfsRoot userPCI) := by
  rw [resolvePF]
  split
  · split
    · exact .fail _
    · exact observes_validatePFDevice fs size _ userPCI
  · refine (observes_call (fs.readDir · _) fun _ => rfl).bind fun r => ?_
    cases r with
    | error err => exact .fail _
    | ok listing => exact observes_firstPF fs size _ _

theorem resolvePF_selected {cfg : Config} {s : State τ φ} {pf : PfDevice}
    (h : ((resolvePF fs.filesystem size cfg.sysfsRoot cfg.pciAddr).run s).result = .ok pf) :
    Selected fs.filesystem size cfg s pf s := by
  rw [(observes_resolvePF fs size cfg.sysfsRoot cfg.pciAddr).result_ok, resolvePF_run_ok] at h
  exact h.1

/-! ### The virtual functions and the nodes -/

theorem observes_resolveLinks (pfPath : GoString) (entries : List DirEntry) :
    Observes State.tree (resolveLinks fs.filesystem pfPath entries) := by
  induction entries with
  | nil => exact .pure _
  | cons entry entries ih =>
      rw [resolveLinks]
      split
      · exact ih
      refine (observes_call (fs.evalSymlinks · _) fun _ => rfl).bind fun r => ?_
      cases r with
      | error err => exact .fail _
      | ok resolved => exact ih.bind fun _ => .pure _

theorem observes_listVFPaths (pfPath : GoString) :
    Observes State.tree (listVFPaths fs.filesystem pfPath) := by
  refine (observes_call (fs.readDir · pfPath) fun _ => rfl).bind fun r => ?_
  cases r with
  | error err => exact .fail _
  | ok listing => exact (observes_resolveLinks fs pfPath _).bind fun _ => .pure _

theorem observes_onlineNode (nodeRoot : GoString) (entry : DirEntry) :
    Observes State.tree (onlineNode fs.filesystem size nodeRoot entry) := by
  have hpath : lastComponent (join [nodeRoot, entry.name, lit "online"]) ≠ lit "numa_node" := by
    have hlast : lastComponent (join ([nodeRoot, entry.name] ++ [lit "online"])) = lit "online" :=
      lastComponent_join _ (by decide)
    intro heq
    exact absurd (hlast.symm.trans heq) (by decide)
  rw [onlineNode]
  split
  · exact .pure _
  split
  · exact .pure _
  refine (observes_call (fs.stat · _) fun _ => rfl).bind fun r => ?_
  cases r with
  | error err => exact .pure _
  | ok info =>
      refine (observes_readIntFromFile fs size hpath).attempt.bind fun r => ?_
      cases r with
      | error err => exact .pure _
      | ok online => exact .pure _

theorem observes_onlineNodes (nodeRoot : GoString) (entries : List DirEntry) :
    Observes State.tree (onlineNodes fs.filesystem size nodeRoot entries) := by
  induction entries with
  | nil => exact .pure _
  | cons entry entries ih =>
      exact (observes_onlineNode fs size nodeRoot entry).bind fun _ => ih.bind fun _ => .pure _

theorem observes_listNUMANodes (sysfsRoot : GoString) :
    Observes State.tree (listNUMANodes fs.filesystem size sysfsRoot) := by
  refine (observes_call (fs.readDir · _) fun _ => rfl).bind fun r => ?_
  cases r with
  | error err => exact .fail _
  | ok listing => exact (observes_onlineNodes fs size _ _).bind fun _ => .pure _

/-! ### What the listings hold -/

/-- The VFs of a device: the `virtfn` entries of its directory. -/
def virtfns (fs : Sysfs τ φ) (tree : τ) (dir : GoString) : List DirEntry :=
  match fs.readDir tree dir with
  | .ok listing => listing.entries.filter isVirtfn
  | .error _ => []

def vfCount (fs : Sysfs τ φ) (tree : τ) (dir : GoString) : Nat := (virtfns fs tree dir).length

/-- One of the `virtfn` entries leads to the path. -/
def IsVF (fs : Sysfs τ φ) (tree : τ) (dir vfPath : GoString) : Prop :=
  ∃ entry ∈ virtfns fs tree dir, fs.evalSymlinks tree (join [dir, entry.name]) = .ok vfPath

/-- The entry is a directory `node<n>` whose `online` file is not zero or cannot be
looked at. -/
def ShowsNode (fs : Sysfs τ φ) (size : IntSize) (tree : τ) (nodeRoot : GoString)
    (entry : DirEntry) (node : Int) : Prop :=
  nodeIndex size entry = some node ∧
    ((∃ err, fs.stat tree (join [nodeRoot, entry.name, lit "online"]) = .error err) ∨
      ∃ value, fs.readInt size tree (join [nodeRoot, entry.name, lit "online"]) = some value ∧
        value ≠ 0)

/-- The node is one of those that are online. -/
def OnlineNode (fs : Sysfs τ φ) (size : IntSize) (tree : τ) (sysfsRoot : GoString) (node : Int) :
    Prop :=
  ∃ listing, fs.readDir tree (nodesDir sysfsRoot) = .ok listing ∧
    ∃ entry ∈ listing.entries, ShowsNode fs size tree (nodesDir sysfsRoot) entry node

section

variable {fs size} {s s' : State τ φ} {pfPath : GoString}

theorem resolves_links {entries : List DirEntry} {links : List GoString}
    (h : Resolves fs.filesystem pfPath entries s links s') :
    (entries.filter isVirtfn).map
      (fun entry => fs.evalSymlinks s.tree (join [pfPath, entry.name])) = links.map .ok := by
  induction h with
  | nil => rfl
  | skip hentry _ ih => rwa [List.filter_cons_of_neg (by simp [hentry])]
  | link hentry hlink _ ih =>
      obtain ⟨hresolved, rfl⟩ := Prod.mk.inj hlink
      rw [List.filter_cons_of_pos hentry, List.map_cons, List.map_cons, hresolved, ih]

/-- The paths that are listed are those the entries lead to. -/
theorem listVFPaths_links {vfPaths : List GoString}
    (h : ((listVFPaths fs.filesystem pfPath).run s).result = .ok vfPaths) :
    ∃ links : List GoString, links.Perm vfPaths ∧
      (virtfns fs s.tree pfPath).map
        (fun entry => fs.evalSymlinks s.tree (join [pfPath, entry.name])) = links.map .ok := by
  rw [(observes_listVFPaths fs pfPath).result_ok, listVFPaths_run_ok] at h
  obtain ⟨⟨listing, s₁, links, hreadDir, hlinks, rfl⟩, -⟩ := h
  obtain ⟨hlisting, rfl⟩ := Prod.mk.inj hreadDir
  refine ⟨links, (sortStrings_perm links).symm, ?_⟩
  rw [virtfns, hlisting]
  exact resolves_links hlinks

theorem listVFPaths_length {vfPaths : List GoString}
    (h : ((listVFPaths fs.filesystem pfPath).run s).result = .ok vfPaths) :
    vfPaths.length = vfCount fs s.tree pfPath := by
  obtain ⟨links, hperm, hlinks⟩ := listVFPaths_links h
  have hlength := congrArg List.length hlinks
  rw [List.length_map, List.length_map] at hlength
  rw [← hperm.length_eq, ← hlength, vfCount]

theorem mem_listVFPaths {vfPaths : List GoString}
    (h : ((listVFPaths fs.filesystem pfPath).run s).result = .ok vfPaths) {vfPath : GoString} :
    vfPath ∈ vfPaths ↔ IsVF fs s.tree pfPath vfPath := by
  obtain ⟨links, hperm, hlinks⟩ := listVFPaths_links h
  rw [IsVF, ← List.mem_map, hlinks, ← hperm.mem_iff]
  simp

/-- Every entry leads somewhere. -/
theorem listVFPaths_resolved {vfPaths : List GoString}
    (h : ((listVFPaths fs.filesystem pfPath).run s).result = .ok vfPaths) {entry : DirEntry}
    (hentry : entry ∈ virtfns fs s.tree pfPath) :
    ∃ vfPath, fs.evalSymlinks s.tree (join [pfPath, entry.name]) = .ok vfPath := by
  obtain ⟨links, hperm, hlinks⟩ := listVFPaths_links h
  have hmem := List.mem_map_of_mem
    (f := fun entry => fs.evalSymlinks s.tree (join [pfPath, entry.name])) hentry
  rw [hlinks] at hmem
  obtain ⟨vfPath, -, hlink⟩ := List.mem_map.mp hmem
  exact ⟨vfPath, hlink.symm⟩

theorem online_not_numaNode (nodeRoot name : GoString) :
    lastComponent (join [nodeRoot, name, lit "online"]) ≠ lit "numa_node" := by
  have hlast : lastComponent (join ([nodeRoot, name] ++ [lit "online"])) = lit "online" :=
    lastComponent_join _ (by decide)
  intro heq
  exact absurd (hlast.symm.trans heq) (by decide)

theorem nodeShown_iff {nodeRoot : GoString} {entry : DirEntry} {found : Option Int}
    (h : NodeShown fs.filesystem size nodeRoot entry s found s') :
    s' = s ∧ ∀ node, node ∈ found.toList ↔ ShowsNode fs size s.tree nodeRoot entry node := by
  have honline := online_not_numaNode nodeRoot entry.name
  cases h with
  | other hindex => exact ⟨rfl, fun node => by simp [ShowsNode, hindex]⟩
  | always hindex hstat =>
      obtain ⟨herr, rfl⟩ := Prod.mk.inj hstat
      refine ⟨rfl, fun node => ?_⟩
      rw [ShowsNode, hindex, and_iff_left (Or.inl ⟨_, herr⟩), Option.mem_toList]
  | online hindex hstat hread hvalue =>
      obtain ⟨-, rfl⟩ := Prod.mk.inj hstat
      obtain ⟨hread, rfl⟩ := (numberAt_iff fs size honline).mp hread
      refine ⟨rfl, fun node => ?_⟩
      rw [ShowsNode, hindex, and_iff_left (Or.inr ⟨_, hread, hvalue⟩), Option.mem_toList]
  | offline hindex hstat hread =>
      obtain ⟨hinfo, rfl⟩ := Prod.mk.inj hstat
      obtain ⟨hread, rfl⟩ := (numberAt_iff fs size honline).mp hread
      exact ⟨rfl, fun node => by simp [ShowsNode, hinfo, hread]⟩
  | unread hindex hstat hread =>
      obtain ⟨hinfo, rfl⟩ := Prod.mk.inj hstat
      obtain ⟨hread, rfl⟩ := readInt_of_noNumberAt fs size honline hread
      exact ⟨rfl, fun node => by simp [ShowsNode, hinfo, hread]⟩

theorem mem_nodesShown {nodeRoot : GoString} {entries : List DirEntry} {found : List Int}
    (h : NodesShown fs.filesystem size nodeRoot entries s found s') {node : Int} :
    node ∈ found ↔ ∃ entry ∈ entries, ShowsNode fs size s.tree nodeRoot entry node := by
  induction h with
  | nil => simp
  | cons hentry _ ih =>
      obtain ⟨rfl, hentry⟩ := nodeShown_iff hentry
      rw [List.mem_append, hentry, ih, List.exists_mem_cons_iff]

/-- The nodes that are listed are those that are online. -/
theorem mem_listNUMANodes {sysfsRoot : GoString} {nodes : List Int}
    (h : ((listNUMANodes fs.filesystem size sysfsRoot).run s).result = .ok nodes) {node : Int} :
    node ∈ nodes ↔ OnlineNode fs size s.tree sysfsRoot node := by
  rw [(observes_listNUMANodes fs size sysfsRoot).result_ok, listNUMANodes_run_ok] at h
  obtain ⟨⟨listing, s₁, found, hreadDir, hfound, rfl⟩, -⟩ := h
  obtain ⟨hlisting, rfl⟩ := Prod.mk.inj hreadDir
  rw [List.mem_mergeSort, mem_nodesShown hfound, OnlineNode]
  constructor
  · exact fun hentry => ⟨listing, hlisting, hentry⟩
  · rintro ⟨listing', hlisting', hentry⟩
    obtain rfl := Except.ok.inj (hlisting.symm.trans hlisting')
    exact hentry

end

end DraEnv.Sriovvf
