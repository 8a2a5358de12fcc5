import DraEnv.GoStd.Filepath
import DraEnv.GoStd.Stream
import DraEnv.GoStd.Strconv

/-!
Provisioning hugepages through sysfs (`setup/pkg/hugepages/provision`).

A provisioning run writes page counts into the `nr_hugepages` files of
the NUMA nodes, group after group, and stops at the first error. Whether
an open or a write fails is up to the host and may depend on everything
written before, so a procedure is a function of the writes made so far;
it says how it ended and which writes it added. A write that fails ends
the run and is not recorded.

The run keeps its writes by group. `runtimeHugepages_ok` is its spec: in
a run that returns no error, the writes of a group are those of its
`placement`, which depends on the group and the number of zones alone.
-/

namespace DraEnv.Hugepages

open DraEnv.GoStd

/-! ### The API types -/

/-- The build tag that selects `ValidateHugePageSize`. -/
inductive Arch where
  | amd64
  | other
  deriving DecidableEq, Repr

abbrev HugePageSize := GoString

structure HugePage where
  size : HugePageSize
  count : Int32
  node : Option Int32
  deriving DecidableEq

structure HugePageProvisionSpec where
  pages : List HugePage

structure HugePageProvision where
  spec : HugePageProvisionSpec

/-- The sysfs name of a size (`validation_amd64.go`, `validation_others.go`). -/
def validateHugePageSize (arch : Arch) (hps : HugePageSize) : Except GoError GoString :=
  match arch with
  | .amd64 =>
      if hps = lit "1G" ∨ hps = lit "1Gi" ∨ hps = lit "1g" then .ok (lit "1048576kB")
      else if hps = lit "2M" ∨ hps = lit "2Mi" ∨ hps = lit "2m" then .ok (lit "2048kB")
      else .error (.msg "unsupported size")
  | .other => .error (.msg "not yet unsupported")

theorem validateHugePageSize_ok {arch : Arch} {hps : HugePageSize} {hpSize : GoString}
    (h : validateHugePageSize arch hps = .ok hpSize) :
    hpSize = lit "1048576kB" ∨ hpSize = lit "2048kB" := by
  cases arch with
  | amd64 =>
      simp only [validateHugePageSize] at h
      split at h
      · exact Or.inl (Except.ok.inj h).symm
      · split at h
        · exact Or.inr (Except.ok.inj h).symm
        · exact absurd h (by simp)
  | other => exact absurd h (by simp [validateHugePageSize])

/-! ### Writes -/

/-- The file that holds the number of hugepages of a size on a node. -/
def nrHugepages (sysRoot : GoString) (numaNode : Int) (hpSize : GoString) : GoString :=
  join [sysRoot, lit "sys", lit "devices", lit "system", lit "node", lit "node" ++ itoa numaNode,
    lit "hugepages", lit "hugepages-" ++ hpSize, lit "nr_hugepages"]

/-- One write: `hpCount` as the new number of pages of a size on a node. -/
structure Write where
  numaNode : Int
  hpSize : GoString
  hpCount : Int
  deriving DecidableEq

def Write.hpPath (sysRoot : GoString) (w : Write) : GoString :=
  nrHugepages sysRoot w.numaNode w.hpSize

/-- The text that goes into the file. -/
def Write.text (w : Write) : GoString := itoa w.hpCount

inductive ProvisionError where
  | invalidSize (err : GoError)
  | openFile (err : GoError)
  /-- `fmt.Errorf("failed to write on %q: %w", hpPath, err)` -/
  | writeString (hpPath : GoString) (err : GoError)

inductive Ending where
  | returned (err : Option ProvisionError)
  /-- The run-time panic of an integer division by zero. -/
  | panicked

/-- What the machine decides: the architecture the program was built for, and
which calls fail, given the writes made so far. -/
structure Host where
  arch : Arch
  openFile : List Write → GoString → Option GoError
  writeString : List Write → GoString → GoString → Option GoError

/-- A host on which no call fails. -/
def Host.reliable : Host := ⟨.amd64, fun _ _ => none, fun _ _ _ => none⟩

/-- A procedure on the writes made so far. -/
abbrev Procedure := List Write → Ending × List Write

/-- Go on unless the first procedure returned an error. -/
def Procedure.andThen (first second : Procedure) : Procedure := fun history =>
  match first history with
  | (.returned none, writes) =>
      let rest := second (history ++ writes)
      (rest.1, writes ++ rest.2)
  | stopped => stopped

theorem Procedure.andThen_ok {first second : Procedure} {history writes : List Write}
    (h : first.andThen second history = (.returned none, writes)) :
    ∃ front back, first history = (.returned none, front) ∧
      second (history ++ front) = (.returned none, back) ∧ writes = front ++ back := by
  unfold Procedure.andThen at h
  split at h
  · next front hfront =>
      obtain ⟨hending, hwrites⟩ := Prod.mk.inj h
      exact ⟨front, _, hfront, Prod.ext hending rfl, hwrites.symm⟩
  · next hstopped => exact absurd h (hstopped writes)

/-! ### The procedures of the source -/

def provisionOnNode (host : Host) (numaNode hpCount : Int) (apiHpSize : HugePageSize)
    (sysRoot : GoString) : Procedure := fun history =>
  match validateHugePageSize host.arch apiHpSize with
  | .error err => (.returned (some (.invalidSize err)), [])
  | .ok hpSize =>
      let w : Write := ⟨numaNode, hpSize, hpCount⟩
      match host.openFile history (w.hpPath sysRoot) with
      | some err => (.returned (some (.openFile err)), [])
      | none =>
          match host.writeString history (w.hpPath sysRoot) w.text with
          | some err => (.returned (some (.writeString (w.hpPath sysRoot) err)), [])
          | none => (.returned none, [w])

/-- The loop of `provisionOnMultiNode`, with as many nodes to go. -/
def provisionFrom (host : Host) (perNode : Int) (hpSize : HugePageSize) (sysRoot : GoString) :
    Nat → Int → Procedure
  | 0, _ => fun _ => (.returned none, [])
  | rest + 1, numaNode =>
      (provisionOnNode host numaNode perNode hpSize sysRoot).andThen
        (provisionFrom host perNode hpSize sysRoot rest (numaNode + 1))

-- The quotient and the remainder of an `int32` fit Go's `int` wherever a size
-- is supported, so they are taken in `Int`, rounding towards zero.
def provisionOnMultiNode (host : Host) (numaNodeCount hpCount : Int) (hpSize : HugePageSize)
    (sysRoot : GoString) : Procedure :=
  if numaNodeCount = 0 then fun _ => (.panicked, [])
  else
    let extra := hpCount.tmod numaNodeCount
    let perNode := hpCount.tdiv numaNodeCount
    (provisionOnNode host 0 (perNode + extra) hpSize sysRoot).andThen
      (provisionFrom host perNode hpSize sysRoot (numaNodeCount - 1).toNat 1)

def pickNode (hp : HugePage) : Int :=
  match hp.node with
  | none => 0
  | some node => node.toInt

/-- The body of the loop of `RuntimeHugepages`. -/
def provisionGroup (host : Host) (conf : HugePage) (sysRoot : GoString) (numaZones : Int) :
    Procedure :=
  if numaZones = 1 then
    provisionOnNode host (pickNode conf) conf.count.toInt conf.size sysRoot
  else provisionOnMultiNode host numaZones conf.count.toInt conf.size sysRoot

/-- The groups under way, each with the writes made for it. -/
abbrev Trace := List (HugePage × List Write)

def provisionGroups (host : Host) (sysRoot : GoString) (numaZones : Int) :
    List HugePage → List Write → Ending × Trace
  | [], _ => (.returned none, [])
  | conf :: pages, history =>
      match provisionGroup host conf sysRoot numaZones history with
      | (.returned none, writes) =>
          let rest := provisionGroups host sysRoot numaZones pages (history ++ writes)
          (rest.1, (conf, writes) :: rest.2)
      | (ending, writes) => (ending, [(conf, writes)])

def runtimeHugepages (host : Host) (hpp : HugePageProvision) (sysRoot : GoString)
    (numaZones : Int) : Ending × Trace :=
  provisionGroups host sysRoot numaZones hpp.spec.pages []

/-! ### What a successful run writes -/

/-- The nodes and counts `provisionOnMultiNode` writes. -/
def spread (numaNodeCount hpCount : Int) : List (Int × Int) :=
  (0, hpCount.tdiv numaNodeCount + hpCount.tmod numaNodeCount) ::
    (List.range (numaNodeCount - 1).toNat).map fun i : Nat =>
      (1 + (i : Int), hpCount.tdiv numaNodeCount)

/-- The nodes and counts a group is written to. -/
def placement (numaZones : Int) (conf : HugePage) : List (Int × Int) :=
  if numaZones = 1 then [(pickNode conf, conf.count.toInt)]
  else spread numaZones conf.count.toInt

/-- The write of a count to a node. -/
def Write.to (hpSize : GoString) (target : Int × Int) : Write := ⟨target.1, hpSize, target.2⟩

theorem provisionOnNode_ok {host : Host} {numaNode hpCount : Int} {apiHpSize : HugePageSize}
    {sysRoot : GoString} {history writes : List Write}
    (h : provisionOnNode host numaNode hpCount apiHpSize sysRoot history =
      (.returned none, writes)) :
    ∃ hpSize, validateHugePageSize host.arch apiHpSize = .ok hpSize ∧
      writes = [Write.to hpSize (numaNode, hpCount)] := by
  simp only [provisionOnNode] at h
  split at h
  · simp at h
  · next hpSize hsize =>
      split at h
      · simp at h
      · split at h
        · simp at h
        · exact ⟨hpSize, hsize, (Prod.mk.inj h).2.symm⟩

theorem provisionFrom_ok {host : Host} {perNode : Int} {apiHpSize : HugePageSize}
    {sysRoot hpSize : GoString} (hsize : validateHugePageSize host.arch apiHpSize = .ok hpSize)
    {rest : Nat} {numaNode : Int} {history writes : List Write}
    (h : provisionFrom host perNode apiHpSize sysRoot rest numaNode history =
      (.returned none, writes)) :
    writes = ((List.range rest).map fun i : Nat => (numaNode + (i : Int), perNode)).map
      (Write.to hpSize) := by
  induction rest generalizing numaNode history writes with
  | zero => exact (Prod.mk.inj h).2.symm
  | succ rest ih =>
      obtain ⟨front, back, hfront, hback, rfl⟩ := Procedure.andThen_ok h
      obtain ⟨hpSize', hsize', rfl⟩ := provisionOnNode_ok hfront
      obtain rfl : hpSize = hpSize' := Except.ok.inj (hsize.symm.trans hsize')
      rw [ih hback, List.range_succ_eq_map]
      simp only [List.map_cons, List.map_map, List.cons_append, List.nil_append, Nat.cast_zero,
        add_zero, List.cons.injEq, true_and]
      refine List.map_congr_left fun i _ => ?_
      simp only [Function.comp_apply, Nat.cast_succ, add_assoc, add_comm (1 : Int)]

theorem provisionOnMultiNode_ok {host : Host} {numaNodeCount hpCount : Int}
    {apiHpSize : HugePageSize} {sysRoot : GoString} {history writes : List Write}
    (h : provisionOnMultiNode host numaNodeCount hpCount apiHpSize sysRoot history =
      (.returned none, writes)) :
    ∃ hpSize, validateHugePageSize host.arch apiHpSize = .ok hpSize ∧
      writes = (spread numaNodeCount hpCount).map (Write.to hpSize) := by
  unfold provisionOnMultiNode at h
  split at h
  · simp at h
  · obtain ⟨front, back, hfront, hback, rfl⟩ := Procedure.andThen_ok h
    obtain ⟨hpSize, hsize, rfl⟩ := provisionOnNode_ok hfront
    refine ⟨hpSize, hsize, ?_⟩
    rw [provisionFrom_ok hsize hback, spread, List.map_cons]
    rfl

theorem provisionGroup_ok {host : Host} {conf : HugePage} {sysRoot : GoString} {numaZones : Int}
    {history writes : List Write}
    (h : provisionGroup host conf sysRoot numaZones history = (.returned none, writes)) :
    ∃ hpSize, validateHugePageSize host.arch conf.size = .ok hpSize ∧
      writes = (placement numaZones conf).map (Write.to hpSize) := by
  unfold provisionGroup at h
  split at h
  · next hone =>
      obtain ⟨hpSize, hsize, rfl⟩ := provisionOnNode_ok h
      exact ⟨hpSize, hsize, by rw [placement, if_pos hone]; rfl⟩
  · next hmany =>
      obtain ⟨hpSize, hsize, rfl⟩ := provisionOnMultiNode_ok h
      exact ⟨hpSize, hsize, by rw [placement, if_neg hmany]⟩

theorem provisionGroups_ok {host : Host} {sysRoot : GoString} {numaZones : Int}
    {pages : List HugePage} {history : List Write} {trace : Trace}
    (h : provisionGroups host sysRoot numaZones pages history = (.returned none, trace)) :
    trace.map Prod.fst = pages ∧ ∀ entry ∈ trace, ∃ hpSize,
      validateHugePageSize host.arch entry.1.size = .ok hpSize ∧
        entry.2 = (placement numaZones entry.1).map (Write.to hpSize) := by
  induction pages generalizing history trace with
  | nil =>
      obtain rfl : [] = trace := (Prod.mk.inj h).2
      simp
  | cons conf pages ih =>
      simp only [provisionGroups] at h
      split at h
      · next writes hgroup =>
          obtain ⟨hending, rfl⟩ := Prod.mk.inj h
          obtain ⟨hpages, hentries⟩ := ih (Prod.ext hending rfl)
          refine ⟨by rw [List.map_cons, hpages], ?_⟩
          rw [List.forall_mem_cons]
          exact ⟨provisionGroup_ok hgroup, hentries⟩
      · next ending writes hstopped _ =>
          obtain ⟨rfl, -⟩ := Prod.mk.inj h
          exact (hstopped rfl).elim

/-- A run without error handles every group, and writes for each of them its
placement. -/
theorem runtimeHugepages_ok {host : Host} {hpp : HugePageProvision} {sysRoot : GoString}
    {numaZones : Int} {trace : Trace}
    (h : runtimeHugepages host hpp sysRoot numaZones = (.returned none, trace)) :
    trace.map Prod.fst = hpp.spec.pages ∧ ∀ entry ∈ trace, ∃ hpSize,
      validateHugePageSize host.arch entry.1.size = .ok hpSize ∧
        entry.2 = (placement numaZones entry.1).map (Write.to hpSize) :=
  provisionGroups_ok h

end DraEnv.Hugepages
