import DraEnv.GoStd.Filepath
import DraEnv.GoStd.Os

/-!
The cgroup of a container on a Kind node (`validation/kind/alignment`).

The validation tool reads the CPUs and the memory nodes of a container
from a directory whose path it builds from the identifiers of the Kind
node, the pod and the container. What makes its report one about that
container is that no two containers have the same path
(`cgroupPath_eq_iff`). The identifiers go through string formatting,
a replacement of dashes and a cleaning of the path, so this takes the
form they have in a cluster: `Container` says which.
-/

namespace DraEnv.Alignment

open DraEnv.GoStd

inductive PodQOSClass where
  | guaranteed
  | burstable
  | bestEffort
  | unset
  deriving DecidableEq, Repr

/-- The part of a pod the path depends on. -/
structure PodKey where
  uid : GoString
  qosClass : PodQOSClass

inductive CgroupError where
  /-- `fmt.Errorf("invalid container ID")` -/
  | invalidContainerID
  /-- `fmt.Errorf("path not found: %s", path)` -/
  | pathNotFound (path : GoString)

def cgroupRoot : GoString := lit "/sys/fs/cgroup"

def dash : UInt8 := 45

def underscore : UInt8 := 95

def qosSlice : PodQOSClass → GoString
  | .burstable => lit "kubelet-kubepods-burstable.slice"
  | .bestEffort => lit "kubelet-kubepods-besteffort.slice"
  | _ => []

def qosSubSlice (qosClass : PodQOSClass) (podUID : GoString) : GoString :=
  match qosClass with
  | .burstable => lit "kubelet-kubepods-burstable-pod" ++ podUID ++ lit ".slice"
  | .bestEffort => lit "kubelet-kubepods-besteffort-pod" ++ podUID ++ lit ".slice"
  | _ => lit "kubelet-kubepods-pod" ++ podUID ++ lit ".slice"

def containerScope (runtime containerID : GoString) : GoString :=
  if runtime = lit "containerd" then lit "cri-containerd-" ++ containerID ++ lit ".scope"
  else lit "crio-" ++ containerID ++ lit ".scope"

def nodeScope (kindNodeID : GoString) : GoString := lit "docker-" ++ kindNodeID ++ lit ".scope"

/-- The path `findKindCgroupPath` looks up. -/
def cgroupPath (kindNodeID : GoString) (pod : PodKey) (runtime containerID : GoString) :
    GoString :=
  let podUID := replaceByte pod.uid dash underscore
  let baseKindPath := join [cgroupRoot, lit "system.slice", nodeScope kindNodeID]
  let path := clean (join [baseKindPath, lit "kubelet.slice", lit "kubelet-kubepods.slice",
    qosSlice pod.qosClass])
  join [path, qosSubSlice pod.qosClass podUID, containerScope runtime containerID]

/-- `stat` is the error of `os.Stat`, of which only one kind is looked at. -/
def findKindCgroupPath (stat : GoString → Option FsError) (kindNodeID : GoString) (pod : PodKey)
    (fullContainerID : GoString) : Except CgroupError GoString :=
  match split fullContainerID (lit "://") with
  | runtime :: containerID :: _ =>
      let path := cgroupPath kindNodeID pod runtime containerID
      match stat path with
      | some err => if err.notExist then .error (.pathNotFound path) else .ok path
      | none => .ok path
  | _ => .error .invalidContainerID

/-! ### The components of the path -/

theorem flatMap_splitOn_plain {names : List GoString} (hnames : ∀ c ∈ names, Plain c) :
    names.flatMap (·.splitOn slash) = names := by
  induction names with
  | nil => rfl
  | cons c names ih =>
      rw [List.forall_mem_cons] at hnames
      rw [List.flatMap_cons, splitOn_plain hnames.1, ih hnames.2, List.singleton_append]

theorem cleanStack_join_plain {dir : GoString} (hdir : isRooted dir = true)
    {names : List GoString} (hnames : ∀ c ∈ names, Plain c) :
    isRooted (join (dir :: names)) = true ∧
      cleanStack (join (dir :: names)) = names.reverse ++ cleanStack dir := by
  obtain ⟨hrooted, hstack⟩ := cleanStack_join hdir names
  rw [flatMap_splitOn_plain hnames, foldl_cleanStep_plain _ _ hnames] at hstack
  exact ⟨hrooted, hstack⟩

/-- A formatted name is one component. -/
theorem plain_format {front id back : GoString} (hfront : 2 < front.length) (hslash : slash ∉ front)
    (hid : slash ∉ id) (hback : slash ∉ back) : Plain (front ++ id ++ back) := by
  refine plain_of_length ?_ ?_
  · rw [List.length_append, List.length_append]
    omega
  · simp [hslash, hid, hback]

/-! ### Containers -/

/-- The runtimes a container ID can name. -/
inductive Runtime where
  | containerd
  | crio
  deriving DecidableEq, Repr

def Runtime.name : Runtime → GoString
  | .containerd => lit "containerd"
  | .crio => lit "cri-o"

/-- A container as a cluster identifies it: hexadecimal IDs for the Kind node and the
container, a UUID for the pod. Of their form only this much is used. -/
structure Container where
  kindNodeID : GoString
  pod : PodKey
  runtime : Runtime
  containerID : GoString
  kindNodeID_slash : slash ∉ kindNodeID
  uid_slash : slash ∉ pod.uid
  uid_underscore : underscore ∉ pod.uid
  containerID_slash : slash ∉ containerID
  containerID_colon : 58 ∉ containerID

def Container.fullContainerID (c : Container) : GoString :=
  c.runtime.name ++ lit "://" ++ c.containerID

def Container.podUID (c : Container) : GoString := replaceByte c.pod.uid dash underscore

theorem Container.podUID_slash (c : Container) : slash ∉ c.podUID := by
  intro hmem
  obtain ⟨b, hb, heq⟩ := List.mem_map.mp hmem
  by_cases hdash : b = dash
  · rw [if_pos hdash] at heq
    exact absurd heq (by decide)
  · rw [if_neg hdash] at heq
    exact c.uid_slash (heq ▸ hb)

theorem Container.plain_nodeScope (c : Container) : Plain (nodeScope c.kindNodeID) :=
  plain_format (by decide) (by decide) c.kindNodeID_slash (by decide)

theorem Container.plain_qosSubSlice (c : Container) :
    Plain (qosSubSlice c.pod.qosClass c.podUID) := by
  unfold qosSubSlice
  split <;> exact plain_format (by decide) (by decide) c.podUID_slash (by decide)

theorem Container.plain_containerScope (c : Container) :
    Plain (containerScope c.runtime.name c.containerID) := by
  unfold containerScope
  split <;> exact plain_format (by decide) (by decide) c.containerID_slash (by decide)

/-- The slices between the pods and the one of the container. -/
def qosSlices : PodQOSClass → List GoString
  | .burstable => [qosSlice .burstable]
  | .bestEffort => [qosSlice .bestEffort]
  | _ => []

theorem foldl_qosSlice (qosClass : PodQOSClass) (stack : List GoString) :
    ((qosSlice qosClass).splitOn slash).foldl (cleanStep true) stack =
      qosSlices qosClass ++ stack := by
  have hburstable : Plain (qosSlice .burstable) := by decide
  have hbestEffort : Plain (qosSlice .bestEffort) := by decide
  cases qosClass with
  | burstable =>
      rw [splitOn_plain hburstable]
      exact cleanStep_plain true stack hburstable
  | bestEffort =>
      rw [splitOn_plain hbestEffort]
      exact cleanStep_plain true stack hbestEffort
  | guaranteed => rfl
  | unset => rfl

/-- The components of the path, last first. -/
theorem Container.cleanStack_cgroupPath (c : Container) :
    cleanStack (cgroupPath c.kindNodeID c.pod c.runtime.name c.containerID) =
      containerScope c.runtime.name c.containerID :: qosSubSlice c.pod.qosClass c.podUID ::
        (qosSlices c.pod.qosClass ++ [lit "kubelet-kubepods.slice", lit "kubelet.slice",
          nodeScope c.kindNodeID, lit "system.slice", lit "cgroup", lit "fs", lit "sys"]) := by
  have hroot : isRooted cgroupRoot = true := by decide
  have hrootStack : cleanStack cgroupRoot = [lit "cgroup", lit "fs", lit "sys"] := by decide
  have hbaseNames : ∀ name ∈ [lit "system.slice", nodeScope c.kindNodeID], Plain name := by
    simpa using ⟨by decide, c.plain_nodeScope⟩
  have hlastNames : ∀ name ∈ [qosSubSlice c.pod.qosClass c.podUID,
      containerScope c.runtime.name c.containerID], Plain name := by
    simpa using ⟨c.plain_qosSubSlice, c.plain_containerScope⟩
  obtain ⟨hbase, hbaseStack⟩ := cleanStack_join_plain hroot hbaseNames
  obtain ⟨hpods, hpodsStack⟩ := cleanStack_join hbase
    [lit "kubelet.slice", lit "kubelet-kubepods.slice", qosSlice c.pod.qosClass]
  obtain ⟨hclean, hcleanStack⟩ := cleanStack_clean hpods
  obtain ⟨-, hstack⟩ := cleanStack_join_plain hclean hlastNames
  have hkubelet : Plain (lit "kubelet.slice") := by decide
  have hkubepods : Plain (lit "kubelet-kubepods.slice") := by decide
  rw [List.flatMap_cons, List.flatMap_cons, List.flatMap_singleton, splitOn_plain hkubelet,
    splitOn_plain hkubepods, List.foldl_append, List.foldl_append, foldl_qosSlice,
    List.foldl_cons, List.foldl_nil, List.foldl_cons, List.foldl_nil, cleanStep_plain _ _ hkubelet,
    cleanStep_plain _ _ hkubepods, hbaseStack, hrootStack] at hpodsStack
  rw [hcleanStack, hpodsStack] at hstack
  exact hstack

/-! ### Different containers -/

theorem format_inj {front id id' back : GoString} (h : front ++ id ++ back = front ++ id' ++ back) :
    id = id' :=
  List.append_cancel_left (List.append_cancel_right h)

theorem qosSubSlice_inj {qosClass qosClass' : PodQOSClass} {podUID podUID' : GoString}
    (hslices : qosSlices qosClass = qosSlices qosClass')
    (h : qosSubSlice qosClass podUID = qosSubSlice qosClass' podUID') : podUID = podUID' := by
  cases qosClass <;> cases qosClass' <;> first
    | exact absurd hslices (by decide)
    | exact format_inj h

theorem containerScope_inj {runtime runtime' : Runtime} {containerID containerID' : GoString}
    (h : containerScope runtime.name containerID = containerScope runtime'.name containerID') :
    runtime = runtime' ∧ containerID = containerID' := by
  have hcontainerd : ∀ id, containerScope (Runtime.name .containerd) id =
      lit "cri-containerd-" ++ id ++ lit ".scope" := fun _ => if_pos rfl
  have hcrio : ∀ id, containerScope (Runtime.name .crio) id =
      lit "crio-" ++ id ++ lit ".scope" := fun _ => if_neg (by decide)
  -- the two formats differ in their fourth byte
  have hbytes : ∀ id id' : GoString,
      lit "cri-containerd-" ++ id ++ lit ".scope" ≠ lit "crio-" ++ id' ++ lit ".scope" := by
    intro id id' heq
    have hfront := congrArg (List.take 4) heq
    rw [List.append_assoc, List.append_assoc, List.take_append_of_le_length (by decide),
      List.take_append_of_le_length (by decide)] at hfront
    exact absurd hfront (by decide)
  cases runtime with
  | containerd =>
      cases runtime' with
      | containerd =>
          rw [hcontainerd, hcontainerd] at h
          exact ⟨rfl, format_inj h⟩
      | crio =>
          rw [hcontainerd, hcrio] at h
          exact absurd h (hbytes _ _)
  | crio =>
      cases runtime' with
      | containerd =>
          rw [hcontainerd, hcrio] at h
          exact absurd h.symm (hbytes _ _)
      | crio =>
          rw [hcrio, hcrio] at h
          exact ⟨rfl, format_inj h⟩

/-- The same container: guaranteed pods and pods without a class are not told apart. -/
structure Container.Same (c c' : Container) : Prop where
  kindNodeID : c.kindNodeID = c'.kindNodeID
  uid : c.pod.uid = c'.pod.uid
  qosClass : qosSlices c.pod.qosClass = qosSlices c'.pod.qosClass
  runtime : c.runtime = c'.runtime
  containerID : c.containerID = c'.containerID

theorem Container.same_of_cgroupPath {c c' : Container}
    (h : cgroupPath c.kindNodeID c.pod c.runtime.name c.containerID =
      cgroupPath c'.kindNodeID c'.pod c'.runtime.name c'.containerID) : c.Same c' := by
  have hstack := congrArg cleanStack h
  rw [c.cleanStack_cgroupPath, c'.cleanStack_cgroupPath] at hstack
  obtain ⟨hscope, hstack⟩ := List.cons.inj hstack
  obtain ⟨hsubSlice, hstack⟩ := List.cons.inj hstack
  obtain ⟨hslices, hbase⟩ := List.append_inj' hstack rfl
  obtain ⟨hruntime, hcontainerID⟩ := containerScope_inj hscope
  have hnode : nodeScope c.kindNodeID = nodeScope c'.kindNodeID := by
    simp only [List.cons.injEq, true_and, and_true] at hbase
    exact hbase
  have huid := replaceByte_inj c.uid_underscore c'.uid_underscore
    (qosSubSlice_inj hslices hsubSlice)
  exact ⟨format_inj hnode, huid, hslices, hruntime, hcontainerID⟩

theorem Container.Same.cgroupPath {c c' : Container} (h : c.Same c') :
    cgroupPath c.kindNodeID c.pod c.runtime.name c.containerID =
      Alignment.cgroupPath c'.kindNodeID c'.pod c'.runtime.name c'.containerID := by
  have hqos : qosSlice c.pod.qosClass = qosSlice c'.pod.qosClass ∧ ∀ podUID,
      qosSubSlice c.pod.qosClass podUID = qosSubSlice c'.pod.qosClass podUID := by
    have hslices := h.qosClass
    revert hslices
    cases c.pod.qosClass <;> cases c'.pod.qosClass <;> first
      | exact fun hslices => absurd hslices (by decide)
      | exact fun _ => ⟨rfl, fun _ => rfl⟩
  simp only [Alignment.cgroupPath, h.kindNodeID, h.uid, h.runtime, h.containerID, hqos.1, hqos.2]

theorem Runtime.name_colon (runtime : Runtime) : 58 ∉ runtime.name := by
  cases runtime <;> decide

/-- The path of the container, unless there is nothing at it. -/
theorem Container.findKindCgroupPath_eq (c : Container) (stat : GoString → Option FsError) :
    findKindCgroupPath stat c.kindNodeID c.pod c.fullContainerID =
      let path := cgroupPath c.kindNodeID c.pod c.runtime.name c.containerID
      if (stat path).any FsError.notExist then .error (.pathNotFound path) else .ok path := by
  have hsplit : split c.fullContainerID (lit "://") = [c.runtime.name, c.containerID] :=
    split_pair c.runtime.name_colon c.containerID_colon
  rw [findKindCgroupPath, hsplit]
  dsimp only
  cases stat (cgroupPath c.kindNodeID c.pod c.runtime.name c.containerID) with
  | none => rfl
  | some err => rfl

theorem Container.path_of_found {c : Container} {stat : GoString → Option FsError}
    {path : GoString}
    (h : findKindCgroupPath stat c.kindNodeID c.pod c.fullContainerID = .ok path) :
    path = cgroupPath c.kindNodeID c.pod c.runtime.name c.containerID := by
  rw [c.findKindCgroupPath_eq] at h
  dsimp only at h
  split at h
  · cases h
  · exact (Except.ok.inj h).symm

/-- Whatever the file system says, two containers are found at the same path exactly if
they are the same container. -/
theorem cgroupPath_eq_iff {stat stat' : GoString → Option FsError} {c c' : Container}
    {path path' : GoString}
    (h : findKindCgroupPath stat c.kindNodeID c.pod c.fullContainerID = .ok path)
    (h' : findKindCgroupPath stat' c'.kindNodeID c'.pod c'.fullContainerID = .ok path') :
    path = path' ↔ c.Same c' := by
  rw [Container.path_of_found h, Container.path_of_found h']
  exact ⟨Container.same_of_cgroupPath, Container.Same.cgroupPath⟩

/-- The container of a guaranteed pod. -/
def guaranteedContainer : Container where
  kindNodeID := lit "9c1e"
  pod := ⟨lit "0a-1b", .guaranteed⟩
  runtime := .containerd
  containerID := lit "4f20"
  kindNodeID_slash := by decide
  uid_slash := by decide
  uid_underscore := by decide
  containerID_slash := by decide
  containerID_colon := by decide

def burstableContainer : Container :=
  { guaranteedContainer with
    pod := ⟨lit "0a-1b", .burstable⟩
    uid_slash := by decide
    uid_underscore := by decide }

theorem cgroupPath_eq_iff_burstable :
    cgroupPath (lit "9c1e") ⟨lit "0a-1b", .guaranteed⟩ (lit "containerd") (lit "4f20") ≠
      cgroupPath (lit "9c1e") ⟨lit "0a-1b", .burstable⟩ (lit "containerd") (lit "4f20") := by
  have hfound : ∀ c : Container,
      findKindCgroupPath (fun _ => none) c.kindNodeID c.pod c.fullContainerID =
        .ok (cgroupPath c.kindNodeID c.pod c.runtime.name c.containerID) :=
    fun c => c.findKindCgroupPath_eq _
  intro heq
  have hsame := (cgroupPath_eq_iff (hfound guaranteedContainer) (hfound burstableContainer)).mp heq
  exact absurd hsame.qosClass (by decide)

end DraEnv.Alignment
