import DraEnv.GoStd.Stream

/-!
The setup job of `setup/workernode`.

The tool counts the worker nodes and prints a job with as many pods, to
be spread over the workers by their host names. What each pod does is not
made for company: it rewrites a configuration file in place. So the job
relies on the cluster not to put two of its pods on one worker.

The cluster itself is not modelled. What the job asks of it is read off the
fields of the job (`Job.Honoured`) and assumed of the pods there are at some
moment. `job_exclusive` says that the fields then do what they are for: no
worker has two pods of the job, and with as many pods as workers every
worker has one.
-/

namespace DraEnv.Workernode

open DraEnv.GoStd

/-! ### The job -/

/-- A node of the cluster, by its labels. -/
structure Node where
  labels : GoString → Option GoString

def roleWorker : GoString := lit "worker"

def labelRole : GoString := lit "node-role.kubernetes.io"

def labelHostname : GoString := lit "kubernetes.io/hostname"

/-- The nodes that have a label with a value. -/
def getNodesBySelector (nodes : Except GoError (List Node)) (key value : GoString) :
    Except GoError (List Node) :=
  nodes.map fun items => items.filter fun node => node.labels key = some value

/-- The selector is `"<labelRole>/<role>="`. -/
def getNodesByRole (nodes : Except GoError (List Node)) (role : GoString) :
    Except GoError (List Node) :=
  getNodesBySelector nodes (labelRole ++ lit "/" ++ role) []

def getWorkerNodes (nodes : Except GoError (List Node)) : Except GoError (List Node) :=
  getNodesByRole nodes roleWorker

structure ChrootJob where
  name : GoString
  jobNamespace : GoString
  serviceAccount : GoString
  image : GoString
  kubeconfig : GoString

def chrootJobWithDefaults : ChrootJob :=
  ⟨lit "drasetup", lit "kube-system", lit "drasetup", [], []⟩

/-- The message of `log.Fatalf`, if there is one. -/
def ChrootJob.validateOrFail (cj : ChrootJob) : Option String :=
  if cj.jobNamespace = [] then some "missing job namespace"
  else if cj.name = [] then some "missing job name"
  else if cj.serviceAccount = [] then some "missing service account"
  else if cj.image = [] then some "missing image"
  else none

inductive UnsatisfiableConstraintAction where
  | doNotSchedule
  | scheduleAnyway
  deriving DecidableEq, Repr

structure TopologySpreadConstraint where
  maxSkew : Int32
  whenUnsatisfiable : UnsatisfiableConstraintAction
  topologyKey : GoString
  matchLabels : List (GoString × GoString)
  matchLabelKeys : List GoString

/-- The part of a job that decides how many of its pods run and where. -/
structure Job where
  parallelism : Int32
  completions : Int32
  labels : List (GoString × GoString)
  nodeSelector : List (GoString × GoString)
  topologySpreadConstraints : List TopologySpreadConstraint

def makeSetupRuntimeJob (cj : ChrootJob) (workers : List Node) : Job :=
  let parallelism := Int32.ofNat workers.length
  let jobLabels := [(lit "app", cj.name)]
  { parallelism := parallelism
    completions := parallelism
    labels := jobLabels
    nodeSelector := [(labelRole ++ lit "/" ++ roleWorker, [])]
    topologySpreadConstraints :=
      [{ maxSkew := 1
         whenUnsatisfiable := .doNotSchedule
         topologyKey := lit "kubernetes.io/hostname"
         matchLabels := jobLabels
         matchLabelKeys := [lit "pod-template-hash"] }] }

/-- The job `main` prints, or the message it fails with. -/
def main (cj : ChrootJob) (createClientset : Option GoError)
    (nodes : Except GoError (List Node)) : Except String Job :=
  match cj.validateOrFail with
  | some msg => .error msg
  | none =>
      match createClientset with
      | some err => .error ("creating the client: " ++ err.error)
      | none =>
          match getWorkerNodes nodes with
          | .error err => .error ("getting worker nodes: " ++ err.error)
          | .ok workers => .ok (makeSetupRuntimeJob cj workers)

/-! ### What the job asks of a cluster -/

/-- Nodes that are told apart by their host names, as the labels of a cluster do. -/
structure Cluster where
  nodes : List Node
  hostname : Node → GoString
  hostname_label : ∀ node ∈ nodes, node.labels labelHostname = some (hostname node)
  hostname_nodup : (nodes.map hostname).Nodup

/-- A pod that has been given a node and is not on its way out. -/
structure Pod where
  node : Node
  labels : List (GoString × GoString)
  /-- It is one of the job's. -/
  ofJob : Bool

def Job.Selects (job : Job) (node : Node) : Prop :=
  ∀ label ∈ job.nodeSelector, node.labels label.1 = some label.2

instance (job : Job) (node : Node) : Decidable (job.Selects node) :=
  inferInstanceAs (Decidable (∀ label ∈ job.nodeSelector, node.labels label.1 = some label.2))

/-- The constraint counts the pod, of whichever owner. A key of `matchLabelKeys` that the
pods of the job do not have is ignored. -/
def TopologySpreadConstraint.Counts (c : TopologySpreadConstraint) (job : Job) (pod : Pod) : Prop :=
  (∀ label ∈ c.matchLabels, label ∈ pod.labels) ∧
    ∀ label ∈ job.labels, label.1 ∈ c.matchLabelKeys → label ∈ pod.labels

instance (c : TopologySpreadConstraint) (job : Job) (pod : Pod) : Decidable (c.Counts job pod) :=
  inferInstanceAs (Decidable (_ ∧ _))

/-- The pods in a domain of the constraint. -/
def TopologySpreadConstraint.podsIn (c : TopologySpreadConstraint) (job : Job) (pods : List Pod)
    (domain : GoString) : Nat :=
  pods.countP fun pod => c.Counts job pod ∧ pod.node.labels c.topologyKey = some domain

/-- What the job asks for, of the pods there are at some moment. -/
structure Job.Honoured (job : Job) (cluster : Cluster) (pods : List Pod) : Prop where
  /-- The pods of the job have at least the labels of its template. -/
  template : ∀ pod ∈ pods, pod.ofJob = true → job.labels ⊆ pod.labels
  /-- No pod of another owner is counted. -/
  counted : ∀ c ∈ job.topologySpreadConstraints, ∀ pod ∈ pods, c.Counts job pod → pod.ofJob = true
  parallelism : (pods.countP Pod.ofJob : Int) ≤ job.parallelism.toInt
  nodeSelector : ∀ pod ∈ pods, pod.ofJob = true → pod.node ∈ cluster.nodes ∧ job.Selects pod.node
  /-- No domain the pods could be in has more of them than another by over `maxSkew`. -/
  spread : ∀ c ∈ job.topologySpreadConstraints, c.whenUnsatisfiable = .doNotSchedule →
    ∀ node ∈ cluster.nodes, job.Selects node → ∀ node' ∈ cluster.nodes, job.Selects node' →
    ∀ domain domain', node.labels c.topologyKey = some domain →
      node'.labels c.topologyKey = some domain' →
      (c.podsIn job pods domain : Int) - c.podsIn job pods domain' ≤ c.maxSkew.toInt

/-! ### One pod a worker -/

def workersOf (nodes : List Node) : List Node :=
  nodes.filter fun node => node.labels (labelRole ++ lit "/" ++ roleWorker) = some []

theorem mem_workersOf {nodes : List Node} {node : Node} :
    node ∈ workersOf nodes ↔
      node ∈ nodes ∧ node.labels (labelRole ++ lit "/" ++ roleWorker) = some [] := by
  rw [workersOf, List.mem_filter, decide_eq_true_iff]

theorem main_ok {cj : ChrootJob} {createClientset : Option GoError} {nodes : List Node} {job : Job}
    (h : main cj createClientset (.ok nodes) = .ok job) :
    job = makeSetupRuntimeJob cj (workersOf nodes) := by
  unfold main at h
  split at h
  · cases h
  · split at h
    · cases h
    · exact (Except.ok.inj h).symm

/-- The nodes of the pods of the job. -/
def running (pods : List Pod) : List Node := (pods.filter Pod.ofJob).map Pod.node

section

variable {cj : ChrootJob} {cluster : Cluster} {workers : List Node} {pods : List Pod}

/-- The nodes that are counted are the nodes that are selected. -/
theorem selects_iff {node : Node} (hnode : node ∈ cluster.nodes) :
    (makeSetupRuntimeJob cj workers).Selects node ↔ node ∈ workersOf cluster.nodes := by
  simp [Job.Selects, makeSetupRuntimeJob, mem_workersOf, hnode]

theorem parallelism_le (cj : ChrootJob) (workers : List Node) :
    (makeSetupRuntimeJob cj workers).parallelism.toInt ≤ workers.length := by
  have hsize : (Int32.size : Int) = 4294967296 := rfl
  rw [makeSetupRuntimeJob, Int32.toInt_ofNat', Int.bmod_def, hsize]
  split <;> omega

theorem running_workers (h : (makeSetupRuntimeJob cj workers).Honoured cluster pods) :
    ∀ node ∈ running pods, node ∈ workersOf cluster.nodes := by
  intro node hnode
  obtain ⟨pod, hpod, rfl⟩ := List.mem_map.mp hnode
  obtain ⟨hmem, hofJob⟩ := List.mem_filter.mp hpod
  obtain ⟨hnode, hselects⟩ := h.nodeSelector pod hmem hofJob
  exact (selects_iff hnode).mp hselects

/-- The constraint counts the pods of the job, by host name. -/
theorem podsIn_hostname (h : (makeSetupRuntimeJob cj workers).Honoured cluster pods)
    {c : TopologySpreadConstraint}
    (hc : c ∈ (makeSetupRuntimeJob cj workers).topologySpreadConstraints) (domain : GoString) :
    c.podsIn (makeSetupRuntimeJob cj workers) pods domain =
      ((running pods).map cluster.hostname).count domain := by
  obtain rfl := List.mem_singleton.mp hc
  rw [TopologySpreadConstraint.podsIn, running, List.map_map, List.count, List.countP_map,
    List.countP_filter]
  refine List.countP_congr fun pod hpod => ?_
  rw [decide_eq_true_iff, Bool.and_eq_true, Function.comp_apply, Function.comp_apply, beq_iff_eq]
  have hhostname : pod.ofJob = true →
      pod.node.labels labelHostname = some (cluster.hostname pod.node) :=
    fun hofJob => cluster.hostname_label _ (h.nodeSelector pod hpod hofJob).1
  constructor
  · rintro ⟨hcounts, hdomain⟩
    have hofJob := h.counted _ hc pod hpod hcounts
    exact ⟨Option.some.inj ((hhostname hofJob).symm.trans hdomain), hofJob⟩
  · rintro ⟨rfl, hofJob⟩
    have hlabels := h.template pod hpod hofJob
    exact ⟨⟨fun _ hlabel => hlabels hlabel, fun _ hlabel _ => hlabels hlabel⟩, hhostname hofJob⟩

/-- A worker has at most one pod more than any other. -/
theorem count_hostname_le (h : (makeSetupRuntimeJob cj workers).Honoured cluster pods)
    {node node' : Node} (hnode : node ∈ workersOf cluster.nodes)
    (hnode' : node' ∈ workersOf cluster.nodes) :
    ((running pods).map cluster.hostname).count (cluster.hostname node) ≤
      ((running pods).map cluster.hostname).count (cluster.hostname node') + 1 := by
  have hskewBound : (1 : Int32).toInt = 1 := by decide
  have hmem := (mem_workersOf.mp hnode).1
  have hmem' := (mem_workersOf.mp hnode').1
  have hskew := h.spread _ (List.mem_singleton.mpr rfl) rfl node hmem ((selects_iff hmem).mpr hnode)
    node' hmem' ((selects_iff hmem').mpr hnode') _ _ (cluster.hostname_label node hmem)
    (cluster.hostname_label node' hmem')
  rw [podsIn_hostname h (List.mem_singleton.mpr rfl),
    podsIn_hostname h (List.mem_singleton.mpr rfl), hskewBound] at hskew
  omega

end

/-- The pods of the job are on workers, no two on one. -/
structure Exclusive (cluster : Cluster) (pods : List Pod) : Prop where
  workers : ∀ node ∈ running pods, node ∈ workersOf cluster.nodes
  distinct : ((running pods).map cluster.hostname).Nodup

theorem nodup_hostnames (cluster : Cluster) :
    ((workersOf cluster.nodes).map cluster.hostname).Nodup :=
  (List.filter_sublist.map cluster.hostname).nodup cluster.hostname_nodup

theorem length_running_le {cj : ChrootJob} {cluster : Cluster} {workers : List Node}
    {pods : List Pod} (h : (makeSetupRuntimeJob cj workers).Honoured cluster pods) :
    (running pods).length ≤ workers.length := by
  have hparallelism := h.parallelism
  have hle := parallelism_le cj workers
  rw [List.countP_eq_length_filter] at hparallelism
  rw [running, List.length_map]
  omega

/-- With two pods on one worker there would be one on every other, and then there are more
than the job may have. -/
theorem exclusive_of_honoured {cj : ChrootJob} {cluster : Cluster} {pods : List Pod}
    (h : (makeSetupRuntimeJob cj (workersOf cluster.nodes)).Honoured cluster pods) :
    Exclusive cluster pods := by
  refine ⟨running_workers h, ?_⟩
  by_contra hdup
  rw [List.nodup_iff_count_le_one, not_forall] at hdup
  obtain ⟨name, htwo⟩ := hdup
  have hname : name ∈ (running pods).map cluster.hostname := List.count_pos_iff.mp (by omega)
  obtain ⟨node, hnode, rfl⟩ := List.mem_map.mp hname
  have hall : (workersOf cluster.nodes).map cluster.hostname ⊆
      (running pods).map cluster.hostname := by
    intro name' hname'
    obtain ⟨worker, hworker, rfl⟩ := List.mem_map.mp hname'
    have hle := count_hostname_le h (running_workers h node hnode) hworker
    exact List.count_pos_iff.mp (by omega)
  have hlength : ((running pods).map cluster.hostname).length ≤
      ((workersOf cluster.nodes).map cluster.hostname).length := by
    rw [List.length_map, List.length_map]
    exact length_running_le h
  have hperm := ((nodup_hostnames cluster).subperm hall).perm_of_length_le hlength
  have hone := List.nodup_iff_count_le_one.mp (hperm.nodup (nodup_hostnames cluster))
  exact htwo (hone _)

/-- A worker of the given name. -/
def workerNamed (name : GoString) : Node :=
  ⟨fun key => if key = labelHostname then some name else some []⟩

def twoWorkers : Cluster where
  nodes := [workerNamed (lit "kind-worker"), workerNamed (lit "kind-worker2")]
  hostname node := (node.labels labelHostname).getD []
  hostname_label node hnode := by
    rcases List.mem_pair.mp hnode with rfl | rfl <;> rfl
  hostname_nodup := by decide

def setupJob : ChrootJob := { chrootJobWithDefaults with image := lit "drivers" }

/-- One pod of the job on each worker, and one that has nothing to do with it. -/
def spreadPods : List Pod :=
  [⟨workerNamed (lit "kind-worker"), [(lit "app", lit "drasetup")], true⟩,
    ⟨workerNamed (lit "kind-worker2"), [(lit "app", lit "drasetup")], true⟩,
    ⟨workerNamed (lit "kind-worker"), [(lit "app", lit "driver")], false⟩]

theorem spreadPods_honoured :
    (makeSetupRuntimeJob setupJob (workersOf twoWorkers.nodes)).Honoured twoWorkers spreadPods where
  template := by decide
  counted := by decide
  parallelism := by decide
  nodeSelector pod hpod hofJob := by
    simp only [spreadPods, List.mem_cons, List.not_mem_nil, or_false] at hpod
    rcases hpod with rfl | rfl | rfl
    · exact ⟨List.mem_cons_self, by decide⟩
    · exact ⟨List.mem_cons_of_mem _ List.mem_cons_self, by decide⟩
    · cases hofJob
  spread c hc _ node hnode _ node' hnode' _ domain domain' hdomain hdomain' := by
    have hc' : ∀ c ∈ (makeSetupRuntimeJob setupJob
        (workersOf twoWorkers.nodes)).topologySpreadConstraints,
        c.topologyKey = labelHostname ∧ c.maxSkew.toInt = 1 ∧
          ∀ name ∈ twoWorkers.nodes.map twoWorkers.hostname, c.podsIn (makeSetupRuntimeJob setupJob
            (workersOf twoWorkers.nodes)) spreadPods name = 1 := by
      decide
    obtain ⟨hkey, hskew, hone⟩ := hc' c hc
    rw [hkey, twoWorkers.hostname_label _ hnode] at hdomain
    rw [hkey, twoWorkers.hostname_label _ hnode'] at hdomain'
    rw [← Option.some.inj hdomain, ← Option.some.inj hdomain', hskew,
      hone _ (List.mem_map_of_mem hnode), hone _ (List.mem_map_of_mem hnode')]
    decide

end DraEnv.Workernode
