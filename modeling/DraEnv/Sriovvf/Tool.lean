import DraEnv.Foundation.Effect
import DraEnv.GoStd.Filepath
import DraEnv.GoStd.Os
import DraEnv.GoStd.Strconv
import DraEnv.GoStd.Utf8

/-!
The SR-IOV setup tool of `setup/sriovvf/main.go`.

The tool picks a network device that can have virtual functions, sets
their number through `sriov_numvfs`, and assigns the device and its
functions to NUMA nodes through their `numa_node` files. It is modelled
over an arbitrary file system, and its log is the sequence of file
writes. Errors are kept as data, one constructor for each place that
makes one; their texts, and the log messages, are not rendered.
-/

namespace DraEnv.Sriovvf

open DraEnv.Foundation DraEnv.GoStd

structure Config where
  sysfsRoot : GoString
  numVFs : Int
  pfNUMANode : Int
  pciAddr : GoString
  tryMode : Bool
  deriving DecidableEq, Repr

structure PfDevice where
  pciAddr : GoString
  path : GoString
  totalVFs : Int
  currentVFs : Int
  deriving DecidableEq, Repr

inductive ToolError where
  | fs (err : FsError)
  /-- `not a directory: %s` -/
  | notADirectory (path : GoString)
  /-- The error of `strconv.Atoi`. -/
  | atoi (s : GoString)
  /-- `--num-vfs must be >= 0, got %d` -/
  | negativeNumVFs (numVFs : Int)
  /-- `invalid sysfs root %q: %w` -/
  | invalidSysfsRoot (root : GoString) (cause : ToolError)
  /-- `requested %d VFs exceeds device maximum (%d) for %s` -/
  | exceedsMaximum (requested maximum : Int) (pci : GoString)
  /-- `failed to discover VFs under %s: %w` -/
  | discoverVFs (path : GoString) (cause : ToolError)
  /-- `failed to list NUMA nodes: %w` -/
  | listNodes (cause : ToolError)
  /-- `invalid PCI address format %q` -/
  | invalidAddress (addr : GoString)
  /-- `failed to list PCI devices in %s: %w` -/
  | listDevices (devRoot : GoString) (err : FsError)
  /-- `no SR-IOV-capable PF network device found` -/
  | noPF
  /-- `PCI device %s not found: %w` -/
  | deviceNotFound (pci : GoString) (cause : ToolError)
  /-- `PCI device %s is a VF, not a PF` -/
  | isVF (pci : GoString)
  /-- `failed to inspect PF/VF role of %s: %w` -/
  | inspectRole (pci : GoString) (err : FsError)
  /-- `PCI device %s is not a network interface device` -/
  | notNetwork (pci : GoString)
  /-- `PCI device %s is not SR-IOV capable: %w` -/
  | notSriov (pci : GoString) (cause : ToolError)
  /-- `PCI device %s reports no SR-IOV capacity` -/
  | noCapacity (pci : GoString)
  /-- `failed reading current VF count for %s: %w` -/
  | currentCount (pci : GoString) (cause : ToolError)
  /-- `failed to reset VFs for %s: %w` -/
  | reset (pci : GoString) (cause : ToolError)
  /-- `failed to configure %d VFs for %s: %w` -/
  | configure (requested : Int) (pci : GoString) (cause : ToolError)
  /-- `failed to resolve %s: %w` -/
  | resolveLink (path : GoString) (err : FsError)
  /-- `failed to set PF %s numa_node=%d: %w` -/
  | setPF (pci : GoString) (node : Int) (cause : ToolError)
  /-- `failed to set VF %s numa_node=%d: %w` -/
  | setVF (path : GoString) (node : Int) (cause : ToolError)
  deriving DecidableEq, Repr

/-- One call of `os.WriteFile`: the state it was issued in, its arguments and what it
returned. -/
structure WriteCall (σ : Type) where
  before : σ
  path : GoString
  data : Bytes
  err : Option FsError

abbrev Tool (σ : Type) := Effect σ (WriteCall σ) ToolError

open Effect

/-! ### PCI addresses -/

def isHexDigit (ch : Nat) : Bool :=
  (0x30 ≤ ch && ch ≤ 0x39) || (0x61 ≤ ch && ch ≤ 0x66) || (0x41 ≤ ch && ch ≤ 0x46)

/-- The width is counted in bytes and the loop goes over runes. -/
def isFixedHex (s : GoString) (width : Nat) : Bool :=
  if s.length ≠ width then false else (runes s).all isHexDigit

def isPCIAddress (addr : GoString) : Bool :=
  match addr.splitOn 0x3A with
  | [part0, part1, part2] =>
      if !isFixedHex part0 4 || !isFixedHex part1 2 then false
      else
        match part2.splitOn 0x2E with
        | [last0, last1] => isFixedHex last0 2 && isFixedHex last1 1
        | _ => false
  | _ => false

/-! ### Files -/

section

variable {σ α : Type} (fs : Filesystem σ) (size : IntSize)

/-- An operation that reads, as a step of the tool. -/
def call (op : σ → Except FsError α × σ) : Tool σ (Except FsError α) where
  run s := ⟨.ok (op s).1, (op s).2, []⟩

def ensureDir (path : GoString) : Tool σ Unit := do
  match ← call (fs.stat path) with
  | .error err => fail (.fs err)
  | .ok info => if info.isDir then pure () else fail (.notADirectory path)

def readIntFromFile (path : GoString) : Tool σ Int := do
  match ← call (fs.readFile path) with
  | .error err => fail (.fs err)
  | .ok data =>
      match atoi size (trimSpace data) with
      | none => fail (.atoi (trimSpace data))
      | some value => pure value

/-- The text `writeIntToFile` writes. -/
def intData (value : Int) : Bytes := itoa value ++ lit "\n"

def writeIntToFile (path : GoString) (value : Int) : Tool σ Unit where
  run s :=
    match fs.writeFile path (intData value) s with
    | (none, s') => ⟨.ok (), s', [⟨s, path, intData value, none⟩]⟩
    | (some err, s') => ⟨.error (.fs err), s', [⟨s, path, intData value, some err⟩]⟩

/-! ### Choosing the device -/

def validatePFDevice (devRoot pci : GoString) : Tool σ PfDevice := do
  let devPath := join [devRoot, pci]
  mapError (.deviceNotFound pci) (ensureDir fs devPath)
  match ← call (fs.stat (join [devPath, lit "physfn"])) with
  | .ok _ => fail (.isVF pci)
  | .error err =>
      if !err.notExist then fail (.inspectRole pci err)
      else
        mapError (fun _ => .notNetwork pci) (ensureDir fs (join [devPath, lit "net"]))
        let totalVFs ← mapError (.notSriov pci)
          (readIntFromFile fs size (join [devPath, lit "sriov_totalvfs"]))
        if totalVFs ≤ 0 then fail (.noCapacity pci)
        else
          let currentVFs ← mapError (.currentCount pci)
            (readIntFromFile fs size (join [devPath, lit "sriov_numvfs"]))
          return { pciAddr := pci, path := devPath, totalVFs, currentVFs }

/-- The loop of `resolvePF`. -/
def firstPF (devRoot : GoString) : List DirEntry → Tool σ PfDevice
  | [] => fail .noPF
  | entry :: entries =>
      if !entry.isDir && !entry.isSymlink then firstPF devRoot entries
      else if !isPCIAddress entry.name then firstPF devRoot entries
      else do
        match ← attempt (validatePFDevice fs size devRoot entry.name) with
        | .ok pf => return pf
        | .error _ => firstPF devRoot entries

def devicesDir (sysfsRoot : GoString) : GoString :=
  join [sysfsRoot, lit "bus", lit "pci", lit "devices"]

def resolvePF (sysfsRoot userPCI : GoString) : Tool σ PfDevice := do
  let devRoot := devicesDir sysfsRoot
  if userPCI ≠ [] then
    if !isPCIAddress userPCI then fail (.invalidAddress userPCI)
    else validatePFDevice fs size devRoot userPCI
  else
    match ← call (fs.readDir devRoot) with
    | .error err => fail (.listDevices devRoot err)
    | .ok listing => firstPF fs size devRoot (sortEntries listing.entries)

/-! ### Setting it up -/

def setNumVFs (pf : PfDevice) (requested : Int) : Tool σ Unit :=
  let target := join [pf.path, lit "sriov_numvfs"]
  if pf.currentVFs = requested then pure ()
  else if pf.currentVFs > 0 then do
    mapError (.reset pf.pciAddr) (writeIntToFile fs target 0)
    mapError (.configure requested pf.pciAddr) (writeIntToFile fs target requested)
  else mapError (.configure requested pf.pciAddr) (writeIntToFile fs target requested)

/-- The loop of `listVFPaths`. -/
def resolveLinks (pfPath : GoString) : List DirEntry → Tool σ (List GoString)
  | [] => pure []
  | entry :: entries =>
      if !startsWith entry.name (lit "virtfn") then resolveLinks pfPath entries
      else do
        let linkPath := join [pfPath, entry.name]
        match ← call (fs.evalSymlinks linkPath) with
        | .error err => fail (.resolveLink linkPath err)
        | .ok resolved => return resolved :: (← resolveLinks pfPath entries)

def listVFPaths (pfPath : GoString) : Tool σ (List GoString) := do
  match ← call (fs.readDir pfPath) with
  | .error err => fail (.fs err)
  | .ok listing => return sortStrings (← resolveLinks fs pfPath listing.entries)

/-- The node an entry stands for, if it counts. An `online` file that cannot be
looked at does not matter, one that cannot be read does. -/
def onlineNode (nodeRoot : GoString) (entry : DirEntry) : Tool σ (Option Int) :=
  if !entry.isDir || !startsWith entry.name (lit "node") then pure none
  else
    match atoi size (trimFront entry.name (lit "node")) with
    | none => pure none
    | some idx => do
        let onlinePath := join [nodeRoot, entry.name, lit "online"]
        match ← call (fs.stat onlinePath) with
        | .error _ => return some idx
        | .ok _ =>
            match ← attempt (readIntFromFile fs size onlinePath) with
            | .error _ => return none
            | .ok online => return if online = 0 then none else some idx

/-- The loop of `listNUMANodes`. -/
def onlineNodes (nodeRoot : GoString) : List DirEntry → Tool σ (List Int)
  | [] => pure []
  | entry :: entries => do
      let node ← onlineNode fs size nodeRoot entry
      return node.toList ++ (← onlineNodes nodeRoot entries)

def listNUMANodes (sysfsRoot : GoString) : Tool σ (List Int) := do
  let nodeRoot := join [sysfsRoot, lit "devices", lit "system", lit "node"]
  match ← call (fs.readDir nodeRoot) with
  | .error err => fail (.fs err)
  | .ok listing =>
      let nodes ← onlineNodes fs size nodeRoot listing.entries
      return nodes.mergeSort fun a b => decide (a ≤ b)

def numaPath (dir : GoString) : GoString := join [dir, lit "numa_node"]

def setPFNUMANode (pf : PfDevice) (node : Int) : Tool σ Unit :=
  mapError (.setPF pf.pciAddr node) (writeIntToFile fs (numaPath pf.path) node)

/-- The body both loops over the VFs share. -/
def setVFNUMANode (vfPath : GoString) (node : Int) : Tool σ Unit :=
  mapError (.setVF vfPath node) (writeIntToFile fs (numaPath vfPath) node)

def pinVFNUMA (node : Int) : List GoString → Tool σ Unit
  | [] => pure ()
  | vfPath :: vfPaths => do
      setVFNUMANode fs vfPath node
      pinVFNUMA node vfPaths

/-- The node of the VF at an index. -/
def nodeAt (nodes : List Int) (hnodes : nodes ≠ []) (idx : Nat) : Int :=
  nodes.get ⟨idx % nodes.length, Nat.mod_lt _ (List.length_pos_iff.mpr hnodes)⟩

/-- The loop of `balanceVFNUMA`, from an index on. With no nodes the Go code divides
by zero; `run` does not call it then. -/
def balanceFrom (nodes : List Int) (hnodes : nodes ≠ []) (idx : Nat) : List GoString → Tool σ Unit
  | [] => pure ()
  | vfPath :: vfPaths => do
      setVFNUMANode fs vfPath (nodeAt nodes hnodes idx)
      balanceFrom nodes hnodes (idx + 1) vfPaths

def balanceVFNUMA (vfPaths : List GoString) (nodes : List Int) (hnodes : nodes ≠ []) :
    Tool σ Unit :=
  balanceFrom fs nodes hnodes 0 vfPaths

/-! ### The run -/

/-- The error is returned, or noted and dropped. -/
def handleFailure (cfg : Config) (err : ToolError) : Tool σ Unit :=
  if cfg.tryMode then pure () else fail err

/-- A step after whose failure try mode goes on. -/
def orHandle (cfg : Config) (p : Tool σ Unit) : Tool σ Unit := do
  match ← attempt p with
  | .error err => handleFailure cfg err
  | .ok () => return

/-- The node of the PF, if it is to have one. -/
def assignPF (cfg : Config) (pf : PfDevice) : Tool σ Unit :=
  if cfg.pfNUMANode ≥ 0 then orHandle cfg (setPFNUMANode fs pf cfg.pfNUMANode) else pure ()

/-- `run` from the listing of the VFs on. -/
def assignVFs (cfg : Config) (pf : PfDevice) : Tool σ Unit := do
  match ← attempt (listVFPaths fs pf.path) with
  | .error err => handleFailure cfg (.discoverVFs pf.path err)
  | .ok vfPaths =>
      if vfPaths.length = 0 ∨ cfg.numVFs = 0 then return
      else if cfg.pfNUMANode ≥ 0 then orHandle cfg (pinVFNUMA fs cfg.pfNUMANode vfPaths)
      else
        match ← attempt (listNUMANodes fs size cfg.sysfsRoot) with
        | .error err => handleFailure cfg (.listNodes err)
        | .ok nodes =>
            if hnodes : nodes = [] then return
            else orHandle cfg (balanceVFNUMA fs vfPaths nodes hnodes)

/-- `run` from the device on. -/
def setUp (cfg : Config) (pf : PfDevice) : Tool σ Unit := do
  if cfg.numVFs > pf.totalVFs then
    handleFailure cfg (.exceedsMaximum cfg.numVFs pf.totalVFs pf.pciAddr)
  else
    orHandle cfg (setNumVFs fs pf cfg.numVFs)
    assignPF fs cfg pf
    assignVFs fs size cfg pf

def run (cfg : Config) : Tool σ Unit := do
  if cfg.numVFs < 0 then handleFailure cfg (.negativeNumVFs cfg.numVFs)
  else
    match ← attempt (ensureDir fs cfg.sysfsRoot) with
    | .error err => handleFailure cfg (.invalidSysfsRoot cfg.sysfsRoot err)
    | .ok () =>
        match ← attempt (resolvePF fs size cfg.sysfsRoot cfg.pciAddr) with
        | .error err => handleFailure cfg err
        | .ok pf => setUp fs size cfg pf

end

end DraEnv.Sriovvf
