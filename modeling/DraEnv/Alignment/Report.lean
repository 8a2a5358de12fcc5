import DraEnv.Alignment.Cgroup
import DraEnv.Foundation.LastWrite
import DraEnv.GoStd.Strconv
import DraEnv.GoStd.Stream
import DraEnv.GoStd.Utf8

/-!
The alignment report (`validation/kind/alignment/main.go`).

The tool reads which CPUs belong to which NUMA zone and prints, for each
container of a pod, the zones its CPUs and its memory are in. A container
whose cgroup cannot be found or read is skipped. The topology is a Go
map: the number of a zone is what `strconv.Atoi` makes of the name of
its directory, errors unseen, and the order of the zones is up to the
run. `report_exact` says when the report can be trusted all the same:
where the directories are named as the kernel names them, a container
is reported to be in exactly the zones that own one of its CPUs.
-/

namespace DraEnv.Alignment

open DraEnv.GoStd DraEnv.Foundation

abbrev CPUSet := Finset ℕ

/-- What the tool reads from the machine. -/
structure Machine where
  stat : GoString → Option FsError
  readFile : GoString → Except GoError Bytes
  /-- The names in the directory of the nodes. -/
  nodeDir : List GoString
  nodeDir_nodup : nodeDir.Nodup
  /-- `cpuset.Parse` -/
  parse : Bytes → Except GoError CPUSet
  size : IntSize

structure ContainerStatus where
  name : GoString
  containerID : GoString

structure Pod where
  key : PodKey
  podNamespace : GoString
  name : GoString
  nodeName : GoString
  containerStatuses : List ContainerStatus

/-- What the tool is told by the cluster and by Docker. -/
structure Clients where
  config : Option GoError
  kubeCli : Option GoError
  mobyCli : Option GoError
  getPod : GoString → GoString → Except GoError Pod
  /-- `ContainerInspect`, of which the ID is used. -/
  containerInspect : GoString → Except GoError GoString

/-- The order in which `range` takes the keys of a map, each time it is used. -/
structure RangeOrder where
  order : Nat → Finset Int → List Int
  nodup : ∀ i keys, (order i keys).Nodup
  mem : ∀ i keys k, k ∈ order i keys ↔ k ∈ keys

/-- What is printed. -/
inductive Line where
  | text (s : GoString)
  /-- `"+ Container: %s\n"` -/
  | container (name : GoString)
  /-- `"    + NUMA Zone %d\n"` -/
  | memoryZone (nodeID : Nat)
  /-- `"    + NUMA Zone %d: CPUs %v\n"` -/
  | cpuZone (nodeID : Int) (cpus : CPUSet)
  /-- A message on standard error. -/
  | error (msg : String)

/-! ### The topology -/

def nodeRoot : GoString := lit "/sys/devices/system/node"

def loadCPUSetFromFile (m : Machine) (fpath : GoString) : Except GoError CPUSet :=
  match m.readFile fpath with
  | .error err => .error err
  | .ok cpuListRaw => m.parse (trimSpace cpuListRaw)

/-- The pattern `node[0-9]*`. -/
def matchesNode (name : GoString) : Bool :=
  startsWith name (lit "node") &&
    match name.drop 4 with
    | b :: _ => 48 ≤ b && b ≤ 57
    | [] => false

/-- `filepath.Glob`, which sorts the names of a directory. -/
def globNodes (m : Machine) : List GoString :=
  (sortStrings (m.nodeDir.filter matchesNode)).map fun name => join [nodeRoot, name]

/-- The assignments to the map, in order. -/
abbrev Topology := List (Int × CPUSet)

def nodeIDOf (m : Machine) (nodePath : GoString) : Int :=
  atoiValue m.size ((lastComponent nodePath).drop 4)

/-- The loop of `loadPhysicalTopology`. -/
def loadTopologyFrom (m : Machine) : List GoString → Except GoError Topology
  | [] => .ok []
  | nodePath :: nodes =>
      match loadCPUSetFromFile m (join [nodePath, lit "cpulist"]) with
      | .error err => .error err
      | .ok cpus =>
          match loadTopologyFrom m nodes with
          | .error err => .error err
          | .ok topo => .ok ((nodeIDOf m nodePath, cpus) :: topo)

def loadPhysicalTopology (m : Machine) : Except GoError Topology := loadTopologyFrom m (globNodes m)

/-! ### The report -/

/-- The body of the loop over the topology: the CPUs the container has in a zone. -/
def zoneAt (topo : Topology) (assignedCPUs : CPUSet) (nodeID : Int) : Option (Int × CPUSet) :=
  match contents topo nodeID with
  | none => none
  | some nodeCPUs =>
      let common := nodeCPUs ∩ assignedCPUs
      if common = ∅ then none else some (nodeID, common)

def cpuZones (topo : Topology) (order : List Int) (assignedCPUs : CPUSet) :
    List (Int × CPUSet) :=
  order.filterMap (zoneAt topo assignedCPUs)

/-- The body of the loop over the containers. -/
def reportContainer (m : Machine) (kindNodeID : GoString) (pod : Pod) (allNUMANodes : CPUSet)
    (topo : Topology) (order : List Int) (status : ContainerStatus) : List Line :=
  .container status.name ::
    match findKindCgroupPath m.stat kindNodeID pod.key status.containerID with
    | .error _ => [.error "getting the cgroup path"]
    | .ok cgroupPath =>
        match loadCPUSetFromFile m (join [cgroupPath, lit "cpuset.cpus"]) with
        | .error _ => [.error "getting the container CPUs"]
        | .ok assignedCPUs =>
            match loadCPUSetFromFile m (join [cgroupPath, lit "cpuset.mems"]) with
            | .error _ => [.error "getting the container NUMA Nodes"]
            | .ok assignedNodes =>
                let assignedNodes := if assignedNodes = ∅ then allNUMANodes else assignedNodes
                [.text (lit "  + Memory:")] ++ assignedNodes.sort.map .memoryZone ++
                  [.text (lit "  + CPU:")] ++
                  (cpuZones topo order assignedCPUs).map (fun zone => .cpuZone zone.1 zone.2) ++
                  [.text []]

def reportContainers (m : Machine) (kindNodeID : GoString) (pod : Pod) (allNUMANodes : CPUSet)
    (topo : Topology) (range : RangeOrder) : Nat → List ContainerStatus → List Line
  | _, [] => []
  | i, status :: statuses =>
      reportContainer m kindNodeID pod allNUMANodes topo (range.order i (keys topo)) status ++
        reportContainers m kindNodeID pod allNUMANodes topo range (i + 1) statuses

def PodQOSClass.text : PodQOSClass → GoString
  | .guaranteed => lit "Guaranteed"
  | .burstable => lit "Burstable"
  | .bestEffort => lit "BestEffort"
  | .unset => []

def header (pod : Pod) (kindNodeID : GoString) : GoString :=
  lit "Pod: " ++ pod.podNamespace ++ lit "/" ++ pod.name ++ lit " QoS=" ++ pod.key.qosClass.text ++
    lit " running on node: " ++ pod.nodeName ++ lit " (Docker ID: " ++
    takeRunes 12 kindNodeID ++ lit ")"

/-- The exit status and what is printed. -/
def main (m : Machine) (clients : Clients) (range : RangeOrder) (args : List GoString) :
    Nat × List Line :=
  match args with
  | _ :: podNamespace :: podName :: _ =>
      match loadCPUSetFromFile m (join [nodeRoot, lit "online"]) with
      | .error _ => (1, [.error "getting the online NUMA nodes"])
      | .ok allNUMANodes =>
          match loadPhysicalTopology m with
          | .error _ => (1, [.error "getting the NUMA CPU topology"])
          | .ok topo =>
              match clients.config, clients.kubeCli, clients.mobyCli with
              | some _, _, _ => (1, [.error "loading a kubernetes client config"])
              | none, some _, _ => (1, [.error "creating a kubernetes client"])
              | none, none, some _ => (1, [.error "creating a moby client"])
              | none, none, none =>
                  match clients.getPod podNamespace podName with
                  | .error _ => (1, [.error "getting the pod"])
                  | .ok pod =>
                      match clients.containerInspect pod.nodeName with
                      | .error _ => (1, [.error "inspecting Kind node container"])
                      | .ok kindNodeID =>
                          let top := header pod kindNodeID
                          (0, [.text top, .text (List.replicate top.length 61)] ++
                            reportContainers m kindNodeID pod allNUMANodes topo range 0
                              pod.containerStatuses)
  | _ =>
      (1, [.text (lit "Usage: " ++ lastComponent (args.headD []) ++
        lit " <namespace> <pod-name>")])

/-! ### The topology is the machine's -/

/-- The name the kernel gives the directory of a node. -/
def nodeName (n : Nat) : GoString := lit "node" ++ formatNat n

/-- Every directory the tool takes for a node has a name of the kernel. -/
def Machine.Canonical (m : Machine) : Prop :=
  ∀ name ∈ m.nodeDir, matchesNode name = true →
    ∃ n, n < 2 ^ (m.size.bits - 1) ∧ name = nodeName n

/-- The CPUs of a node. -/
def zoneCPUs (m : Machine) (n : Nat) : Except GoError CPUSet :=
  loadCPUSetFromFile m (join [join [nodeRoot, nodeName n], lit "cpulist"])

theorem plain_nodeName (n : Nat) : Plain (nodeName n) := by
  refine Plain.append (by decide) (by decide) fun hmem => ?_
  exact absurd (mem_formatNat hmem).1 (by decide)

theorem matchesNode_nodeName (n : Nat) : matchesNode (nodeName n) = true := by
  obtain ⟨b, rest, hcons, hbounds⟩ := exists_cons_formatNat n
  have hdrop : (nodeName n).drop 4 = b :: rest := hcons
  have hstarts : startsWith (nodeName n) (lit "node") = true :=
    List.isPrefixOf_iff_prefix.mpr (List.prefix_append _ _)
  rw [matchesNode, hstarts, hdrop]
  simpa [UInt8.le_iff_toNat_le] using hbounds

theorem nodeIDOf_nodeName {m : Machine} {n : Nat} (hn : n < 2 ^ (m.size.bits - 1)) :
    nodeIDOf m (join [nodeRoot, nodeName n]) = n := by
  rw [nodeIDOf, lastComponent_join_name _ (plain_nodeName n)]
  exact atoiValue_formatNat hn

theorem loadTopologyFrom_ok {m : Machine} {nodes : List GoString} {topo : Topology}
    (h : loadTopologyFrom m nodes = .ok topo) :
    topo.map Prod.fst = nodes.map (nodeIDOf m) ∧ ∀ nodeID cpus, (nodeID, cpus) ∈ topo ↔
      ∃ nodePath ∈ nodes, nodeID = nodeIDOf m nodePath ∧
        loadCPUSetFromFile m (join [nodePath, lit "cpulist"]) = .ok cpus := by
  induction nodes generalizing topo with
  | nil =>
      obtain rfl := Except.ok.inj h
      simp
  | cons nodePath nodes ih =>
      rw [loadTopologyFrom] at h
      split at h
      · cases h
      next cpus hcpus =>
        split at h
        · cases h
        next rest hrest =>
          obtain rfl := Except.ok.inj h
          obtain ⟨hkeys, hmem⟩ := ih hrest
          refine ⟨by rw [List.map_cons, List.map_cons, hkeys], fun nodeID cpus' => ?_⟩
          rw [List.mem_cons, hmem, List.exists_mem_cons_iff, Prod.mk.injEq, hcpus,
            Except.ok.injEq, eq_comm (a := cpus)]

theorem mem_globNodes {m : Machine} {nodePath : GoString} :
    nodePath ∈ globNodes m ↔
      ∃ name ∈ m.nodeDir, matchesNode name = true ∧ nodePath = join [nodeRoot, name] := by
  simp only [globNodes, List.mem_map, (sortStrings_perm _).mem_iff, List.mem_filter, and_assoc,
    eq_comm]

/-- No two directories have the same number. -/
theorem nodup_nodeIDs {m : Machine} (hcanonical : m.Canonical) :
    ((globNodes m).map (nodeIDOf m)).Nodup := by
  rw [globNodes, List.map_map]
  refine List.Nodup.map_on ?_ ((sortStrings_perm _).nodup_iff.mpr (m.nodeDir_nodup.filter _))
  intro name hname name' hname' heq
  rw [(sortStrings_perm _).mem_iff, List.mem_filter] at hname hname'
  obtain ⟨n, hn, rfl⟩ := hcanonical name hname.1 hname.2
  obtain ⟨n', hn', rfl⟩ := hcanonical name' hname'.1 hname'.2
  rw [Function.comp_apply, Function.comp_apply, nodeIDOf_nodeName hn, nodeIDOf_nodeName hn',
    Nat.cast_inj] at heq
  rw [heq]

/-- The map holds the CPUs of the nodes that are there, and nothing else. -/
theorem contents_topology {m : Machine} (hcanonical : m.Canonical) {topo : Topology}
    (h : loadPhysicalTopology m = .ok topo) {nodeID : Int} {cpus : CPUSet} :
    contents topo nodeID = some cpus ↔
      ∃ n : Nat, nodeID = n ∧ nodeName n ∈ m.nodeDir ∧ zoneCPUs m n = .ok cpus := by
  obtain ⟨hkeys, hmem⟩ := loadTopologyFrom_ok h
  rw [contents_eq_some_of_nodup (hkeys ▸ nodup_nodeIDs hcanonical), hmem]
  constructor
  · rintro ⟨nodePath, hpath, rfl, hcpus⟩
    obtain ⟨name, hname, hmatches, rfl⟩ := mem_globNodes.mp hpath
    obtain ⟨n, hn, rfl⟩ := hcanonical name hname hmatches
    exact ⟨n, nodeIDOf_nodeName hn, hname, hcpus⟩
  · rintro ⟨n, rfl, hname, hcpus⟩
    refine ⟨_, mem_globNodes.mpr ⟨_, hname, matchesNode_nodeName n, rfl⟩, ?_, hcpus⟩
    obtain ⟨n', hn', heq⟩ := hcanonical _ hname (matchesNode_nodeName n)
    obtain rfl : n = n' := formatNat_injective (List.append_cancel_left heq)
    exact (nodeIDOf_nodeName hn').symm

/-! ### The report is exact -/

/-- The zones a part of the report has for CPUs. -/
def zonesOf (lines : List Line) : List (Int × CPUSet) :=
  lines.filterMap fun line =>
    match line with
    | .cpuZone nodeID cpus => some (nodeID, cpus)
    | _ => none

/-- The containers a part of the report names. -/
def containersOf (lines : List Line) : List GoString :=
  lines.filterMap fun line =>
    match line with
    | .container name => some name
    | _ => none

/-- A zone is listed exactly if it owns one of the CPUs, once, and with those it owns. -/
structure Exact (m : Machine) (assignedCPUs : CPUSet) (zones : List (Int × CPUSet)) : Prop where
  once : (zones.map Prod.fst).Nodup
  owned : ∀ nodeID cpus, (nodeID, cpus) ∈ zones ↔ ∃ (n : Nat) (nodeCPUs : CPUSet), nodeID = n ∧
    nodeName n ∈ m.nodeDir ∧ zoneCPUs m n = .ok nodeCPUs ∧ cpus = nodeCPUs ∩ assignedCPUs ∧ cpus ≠ ∅

theorem zoneAt_eq_some {topo : Topology} {assignedCPUs cpus : CPUSet} {nodeID nodeID' : Int} :
    zoneAt topo assignedCPUs nodeID' = some (nodeID, cpus) ↔ nodeID' = nodeID ∧ ∃ nodeCPUs,
      contents topo nodeID = some nodeCPUs ∧ cpus = nodeCPUs ∩ assignedCPUs ∧ cpus ≠ ∅ := by
  rw [zoneAt]
  constructor
  · intro hzone
    split at hzone
    · cases hzone
    next nodeCPUs hcontents =>
      dsimp only at hzone
      split at hzone
      · cases hzone
      next hne =>
        obtain ⟨rfl, rfl⟩ := Prod.mk.inj (Option.some.inj hzone)
        exact ⟨rfl, nodeCPUs, hcontents, rfl, hne⟩
  · rintro ⟨rfl, nodeCPUs, hcontents, rfl, hne⟩
    simp only [hcontents, if_neg hne]

theorem mem_cpuZones {topo : Topology} {order : List Int} {assignedCPUs cpus : CPUSet}
    {nodeID : Int} :
    (nodeID, cpus) ∈ cpuZones topo order assignedCPUs ↔ nodeID ∈ order ∧ ∃ nodeCPUs,
      contents topo nodeID = some nodeCPUs ∧ cpus = nodeCPUs ∩ assignedCPUs ∧ cpus ≠ ∅ := by
  simp only [cpuZones, List.mem_filterMap, zoneAt_eq_some]
  constructor
  · rintro ⟨_, horder, rfl, hzone⟩
    exact ⟨horder, hzone⟩
  · rintro ⟨horder, hzone⟩
    exact ⟨nodeID, horder, rfl, hzone⟩

theorem cpuZones_sublist (topo : Topology) (order : List Int) (assignedCPUs : CPUSet) :
    ((cpuZones topo order assignedCPUs).map Prod.fst).Sublist order := by
  induction order with
  | nil => exact List.Sublist.slnil
  | cons nodeID order ih =>
      rw [cpuZones, List.filterMap_cons]
      split
      next => exact ih.cons _
      next zone hzone =>
        rw [List.map_cons, ← (zoneAt_eq_some.mp hzone).1]
        exact ih.cons_cons _

theorem exact_cpuZones {m : Machine} (hcanonical : m.Canonical) {topo : Topology}
    (h : loadPhysicalTopology m = .ok topo) (range : RangeOrder) (i : Nat)
    (assignedCPUs : CPUSet) :
    Exact m assignedCPUs (cpuZones topo (range.order i (keys topo)) assignedCPUs) where
  once := (cpuZones_sublist _ _ _).nodup (range.nodup i _)
  owned nodeID cpus := by
    rw [mem_cpuZones]
    constructor
    · rintro ⟨-, nodeCPUs, hcontents, hcpus, hne⟩
      obtain ⟨n, rfl, hname, hzone⟩ := (contents_topology hcanonical h).mp hcontents
      exact ⟨n, nodeCPUs, rfl, hname, hzone, hcpus, hne⟩
    · rintro ⟨n, nodeCPUs, rfl, hname, hzone, hcpus, hne⟩
      have hcontents := (contents_topology hcanonical h).mpr ⟨n, rfl, hname, hzone⟩
      refine ⟨(range.mem i _ _).mpr ?_, nodeCPUs, hcontents, hcpus, hne⟩
      by_contra hkeys
      rw [contents_eq_none.mpr hkeys] at hcontents
      cases hcontents

/-- The CPUs of a container, if its cgroup is found and read. -/
def containerCPUs (m : Machine) (kindNodeID : GoString) (pod : Pod) (status : ContainerStatus) :
    Option CPUSet :=
  match findKindCgroupPath m.stat kindNodeID pod.key status.containerID with
  | .error _ => none
  | .ok cgroupPath =>
      match loadCPUSetFromFile m (join [cgroupPath, lit "cpuset.cpus"]),
        loadCPUSetFromFile m (join [cgroupPath, lit "cpuset.mems"]) with
      | .ok assignedCPUs, .ok _ => some assignedCPUs
      | _, _ => none

theorem zonesOf_append (lines lines' : List Line) :
    zonesOf (lines ++ lines') = zonesOf lines ++ zonesOf lines' :=
  List.filterMap_append

theorem zonesOf_cpuZones (zones : List (Int × CPUSet)) :
    zonesOf (zones.map fun zone => .cpuZone zone.1 zone.2) = zones := by
  rw [zonesOf, List.filterMap_map]
  exact List.filterMap_some

theorem zonesOf_memory (nodes : List Nat) : zonesOf (nodes.map .memoryZone) = [] := by
  rw [zonesOf, List.filterMap_map]
  exact List.filterMap_eq_nil_iff.mpr fun _ _ => rfl

theorem zonesOf_reportContainer (m : Machine) (kindNodeID : GoString) (pod : Pod)
    (allNUMANodes : CPUSet) (topo : Topology) (order : List Int) (status : ContainerStatus) :
    zonesOf (reportContainer m kindNodeID pod allNUMANodes topo order status) =
      ((containerCPUs m kindNodeID pod status).map (cpuZones topo order)).getD [] := by
  rw [reportContainer, containerCPUs]
  cases findKindCgroupPath m.stat kindNodeID pod.key status.containerID with
  | error err => rfl
  | ok cgroupPath =>
      dsimp only
      cases loadCPUSetFromFile m (join [cgroupPath, lit "cpuset.cpus"]) with
      | error err => rfl
      | ok assignedCPUs =>
          cases loadCPUSetFromFile m (join [cgroupPath, lit "cpuset.mems"]) with
          | error err => rfl
          | ok assignedNodes =>
              dsimp only
              rw [← List.singleton_append, zonesOf_append, zonesOf_append, zonesOf_append,
                zonesOf_append, zonesOf_append, zonesOf_memory, zonesOf_cpuZones]
              simp [zonesOf]

theorem containersOf_reportContainer (m : Machine) (kindNodeID : GoString) (pod : Pod)
    (allNUMANodes : CPUSet) (topo : Topology) (order : List Int) (status : ContainerStatus) :
    containersOf (reportContainer m kindNodeID pod allNUMANodes topo order status) =
      [status.name] := by
  rw [reportContainer]
  cases findKindCgroupPath m.stat kindNodeID pod.key status.containerID with
  | error err => rfl
  | ok cgroupPath =>
      dsimp only
      cases loadCPUSetFromFile m (join [cgroupPath, lit "cpuset.cpus"]) with
      | error err => rfl
      | ok assignedCPUs =>
          cases loadCPUSetFromFile m (join [cgroupPath, lit "cpuset.mems"]) with
          | error err => rfl
          | ok assignedNodes => simp [containersOf, List.filterMap_append]

/-- What the part of the report for a container says. It is headed by the name of this
container and no other; it has nothing about zones if the container had to be skipped, and
all there is to say if not. -/
structure Reported (m : Machine) (kindNodeID : GoString) (pod : Pod) (status : ContainerStatus)
    (lines : List Line) : Prop where
  head : lines.head? = some (.container status.name)
  name : containersOf lines = [status.name]
  skipped : containerCPUs m kindNodeID pod status = none → zonesOf lines = []
  zones : ∀ assignedCPUs, containerCPUs m kindNodeID pod status = some assignedCPUs →
    Exact m assignedCPUs (zonesOf lines)

theorem reported_reportContainer {m : Machine} (hcanonical : m.Canonical) {topo : Topology}
    (h : loadPhysicalTopology m = .ok topo) (kindNodeID : GoString) (pod : Pod)
    (allNUMANodes : CPUSet) (range : RangeOrder) (i : Nat) (status : ContainerStatus) :
    Reported m kindNodeID pod status
      (reportContainer m kindNodeID pod allNUMANodes topo (range.order i (keys topo)) status) where
  head := rfl
  name := containersOf_reportContainer m kindNodeID pod allNUMANodes topo _ status
  skipped hskipped := by
    rw [zonesOf_reportContainer, hskipped]
    rfl
  zones assignedCPUs hcpus := by
    rw [zonesOf_reportContainer, hcpus]
    exact exact_cpuZones hcanonical h range i assignedCPUs

theorem reported_reportContainers {m : Machine} (hcanonical : m.Canonical) {topo : Topology}
    (h : loadPhysicalTopology m = .ok topo) (kindNodeID : GoString) (pod : Pod)
    (allNUMANodes : CPUSet) (range : RangeOrder) (i : Nat) (statuses : List ContainerStatus) :
    ∃ blocks, reportContainers m kindNodeID pod allNUMANodes topo range i statuses =
        blocks.flatten ∧
      List.Forall₂ (Reported m kindNodeID pod) statuses blocks := by
  induction statuses generalizing i with
  | nil => exact ⟨[], rfl, .nil⟩
  | cons status statuses ih =>
      obtain ⟨blocks, hblocks, hreported⟩ := ih (i + 1)
      have hstatus :=
        reported_reportContainer hcanonical h kindNodeID pod allNUMANodes range i status
      refine ⟨_ :: blocks, ?_, .cons hstatus hreported⟩
      rw [reportContainers, hblocks, List.flatten_cons]

/-- The files of a machine with two nodes, on which one of two containers can be read. -/
def twoNodeFiles : List (GoString × GoString) :=
  [(lit "/sys/devices/system/node/online", lit "0-1"),
    (lit "/sys/devices/system/node/node0/cpulist", lit "0-1"),
    (lit "/sys/devices/system/node/node1/cpulist", lit "2-3"),
    (cgroupPath (lit "9c1e") ⟨lit "0a-1b", .guaranteed⟩ (lit "containerd") (lit "4f20") ++
      lit "/cpuset.cpus", lit "1-2"),
    (cgroupPath (lit "9c1e") ⟨lit "0a-1b", .guaranteed⟩ (lit "containerd") (lit "4f20") ++
      lit "/cpuset.mems", [])]

def twoNodes : Machine where
  stat _ := none
  readFile path :=
    match twoNodeFiles.lookup path with
    | some data => .ok data
    | none => .error (.msg "no such file or directory")
  nodeDir := [nodeName 0, nodeName 1]
  nodeDir_nodup := by decide +kernel
  parse data :=
    if data = lit "0-1" then .ok {0, 1}
    else if data = lit "1-2" then .ok {1, 2}
    else if data = lit "2-3" then .ok {2, 3}
    else .ok ∅
  size := .w64

def twoContainers : Pod :=
  ⟨⟨lit "0a-1b", .guaranteed⟩, lit "default", lit "pod", lit "kind-worker",
    [⟨lit "gone", lit "containerd://77aa"⟩, ⟨lit "ctr", lit "containerd://4f20"⟩]⟩

def onePod : Clients where
  config := none
  kubeCli := none
  mobyCli := none
  getPod _ _ := .ok twoContainers
  containerInspect _ := .ok (lit "9c1e")

def RangeOrder.sorted : RangeOrder where
  order _ keys := keys.sort
  nodup _ keys := keys.sort_nodup _
  mem _ _ _ := Finset.mem_sort _

theorem twoNodes_canonical : twoNodes.Canonical := by
  intro name hname _
  rcases List.mem_pair.mp hname with rfl | rfl
  · exact ⟨0, by decide, rfl⟩
  · exact ⟨1, by decide, rfl⟩

theorem twoNodes_topology : ∃ topo, loadPhysicalTopology twoNodes = .ok topo := by
  have hglob : globNodes twoNodes =
      [join [nodeRoot, nodeName 0], join [nodeRoot, nodeName 1]] := by
    have hfilter : twoNodes.nodeDir.filter matchesNode = [nodeName 0, nodeName 1] := by
      decide +kernel
    rw [globNodes, hfilter, sortStrings, List.mergeSort_of_pairwise (by decide +kernel)]
    rfl
  rw [loadPhysicalTopology, hglob]
  exact ⟨_, rfl⟩

theorem twoNodes_main : ∃ lines,
    main twoNodes onePod .sorted [[], lit "default", lit "pod"] = (0, lines) := by
  obtain ⟨topo, htopo⟩ := twoNodes_topology
  rw [main, htopo]
  exact ⟨_, rfl⟩

end DraEnv.Alignment
