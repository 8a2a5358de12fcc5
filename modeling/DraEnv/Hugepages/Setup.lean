import DraEnv.Hugepages.Safety

/-!
The program (`setup/hugepages/main.go`).

The program takes the number of zones from the topology library, reads a
configuration for each of its arguments, and provisions them one after
the other. It looks at neither the number of zones nor the counts, so it
does no more and no less than one run over all the groups it was given up
to the first configuration that cannot be read (`provisionArgs_eq`), and
it is as safe as that run.
-/

namespace DraEnv.Hugepages

open DraEnv.GoStd

/-- What the program is given from outside: files, the YAML library and the topology
library. What a source holds may depend on the sources read before it, as standard input
does. -/
structure Inputs where
  openFile : List GoString → GoString → Option GoError
  readAll : List GoString → GoString → Except GoError Bytes
  unmarshal : Bytes → HugePageProvision × Option GoError
  /-- `ghwtopology.New`, of which the number of nodes is used. -/
  topology : GoString → Except GoError Nat

def readConfigurationFrom (inputs : Inputs) (r : Except GoError Bytes) :
    HugePageProvision × Option GoError :=
  match r with
  | .error err => (⟨⟨[]⟩⟩, some err)
  | .ok data => inputs.unmarshal data

def readConfiguration (inputs : Inputs) (earlier : List GoString) (source : GoString) :
    HugePageProvision × Option GoError :=
  if source = lit "-" then readConfigurationFrom inputs (inputs.readAll earlier source)
  else
    match inputs.openFile earlier source with
    | some err => (⟨⟨[]⟩⟩, some err)
    | none => readConfigurationFrom inputs (inputs.readAll earlier source)

inductive Exit where
  | status (code : Nat)
  | panicked
  deriving DecidableEq, Repr

/-- The host after some writes. -/
def Host.after (host : Host) (history : List Write) : Host where
  arch := host.arch
  openFile writes := host.openFile (history ++ writes)
  writeString writes := host.writeString (history ++ writes)

/-- The loop of `main` over its arguments. -/
def provisionArgs (host : Host) (inputs : Inputs) (sysRoot : GoString) (nodes : Nat) :
    List GoString → List GoString → List Write → Exit × Trace
  | _, [], _ => (.status 0, [])
  | earlier, arg :: args, history =>
      match readConfiguration inputs earlier arg with
      | (_, some _) => (.status 2, [])
      | (config, none) =>
          match runtimeHugepages (host.after history) config sysRoot nodes with
          | (.panicked, trace) => (.panicked, trace)
          | (.returned (some _), trace) => (.status 4, trace)
          | (.returned none, trace) =>
              let rest := provisionArgs host inputs sysRoot nodes (earlier ++ [arg]) args
                (history ++ trace.flatMap Prod.snd)
              (rest.1, trace ++ rest.2)

def main (host : Host) (inputs : Inputs) (sysRoot : GoString) (args : List GoString) :
    Exit × Trace :=
  match inputs.topology sysRoot with
  | .error _ => (.status 1, [])
  | .ok nodes => provisionArgs host inputs sysRoot nodes [] args []

/-! ### Later runs -/

section

variable {host : Host} {sysRoot : GoString} {numaZones : Int} {history : List Write}

theorem Procedure.andThen_after {first second first' second' : Procedure}
    (hfirst : ∀ writes, first' writes = first (history ++ writes))
    (hsecond : ∀ writes, second' writes = second (history ++ writes)) (writes : List Write) :
    first'.andThen second' writes = first.andThen second (history ++ writes) := by
  rw [Procedure.andThen, Procedure.andThen, hfirst]
  rcases first (history ++ writes) with ⟨⟨_ | _⟩ | _, front⟩
  · simp only [hsecond, List.append_assoc]
  · rfl
  · rfl

theorem provisionOnNode_after (numaNode hpCount : Int) (apiHpSize : HugePageSize)
    (writes : List Write) :
    provisionOnNode (host.after history) numaNode hpCount apiHpSize sysRoot writes =
      provisionOnNode host numaNode hpCount apiHpSize sysRoot (history ++ writes) := rfl

theorem provisionFrom_after (perNode : Int) (hpSize : HugePageSize) (rest : Nat) (numaNode : Int)
    (writes : List Write) :
    provisionFrom (host.after history) perNode hpSize sysRoot rest numaNode writes =
      provisionFrom host perNode hpSize sysRoot rest numaNode (history ++ writes) := by
  induction rest generalizing numaNode writes with
  | zero => rfl
  | succ rest ih =>
      exact Procedure.andThen_after (provisionOnNode_after _ _ _) (ih (numaNode + 1)) writes

theorem provisionGroup_after (conf : HugePage) (writes : List Write) :
    provisionGroup (host.after history) conf sysRoot numaZones writes =
      provisionGroup host conf sysRoot numaZones (history ++ writes) := by
  rw [provisionGroup, provisionGroup]
  split
  · exact provisionOnNode_after _ _ _ writes
  · rw [provisionOnMultiNode, provisionOnMultiNode]
    split
    · rfl
    · exact Procedure.andThen_after (provisionOnNode_after _ _ _) (provisionFrom_after _ _ _ _)
        writes

theorem provisionGroups_after (pages : List HugePage) (writes : List Write) :
    provisionGroups (host.after history) sysRoot numaZones pages writes =
      provisionGroups host sysRoot numaZones pages (history ++ writes) := by
  induction pages generalizing writes with
  | nil => rfl
  | cons conf pages ih =>
      rw [provisionGroups, provisionGroups, provisionGroup_after]
      simp only [ih, List.append_assoc]

/-- A run that went well is followed by the run over the rest. -/
theorem provisionGroups_append {front back : List HugePage} {trace : Trace}
    (h : provisionGroups host sysRoot numaZones front history = (.returned none, trace)) :
    provisionGroups host sysRoot numaZones (front ++ back) history =
      ((provisionGroups host sysRoot numaZones back (history ++ trace.flatMap Prod.snd)).1,
        trace ++
          (provisionGroups host sysRoot numaZones back (history ++ trace.flatMap Prod.snd)).2) := by
  induction front generalizing history trace with
  | nil =>
      cases h
      simp
  | cons conf front ih =>
      rw [provisionGroups] at h
      split at h
      next writes hgroup =>
        obtain ⟨hending, rfl⟩ := Prod.mk.inj h
        rw [List.cons_append, provisionGroups, hgroup]
        dsimp only
        rw [ih (Prod.ext hending rfl)]
        simp
      next ending writes hstopped hgroup =>
        obtain ⟨rfl, -⟩ := Prod.mk.inj h
        exact (hstopped rfl).elim

/-- A run that stopped is the run over more groups. -/
theorem provisionGroups_append_of_stopped {front : List HugePage} (back : List HugePage)
    (h : (provisionGroups host sysRoot numaZones front history).1 ≠ .returned none) :
    provisionGroups host sysRoot numaZones (front ++ back) history =
      provisionGroups host sysRoot numaZones front history := by
  induction front generalizing history with
  | nil => exact absurd rfl h
  | cons conf front ih =>
      rw [List.cons_append, provisionGroups, provisionGroups]
      rw [provisionGroups] at h
      split
      next writes hgroup =>
        rw [hgroup] at h
        rw [ih h]
      next => rfl

end

/-! ### The program -/

/-- The groups of the configurations before the first that cannot be read. -/
def requested (inputs : Inputs) : List GoString → List GoString → List HugePage
  | _, [] => []
  | earlier, arg :: args =>
      match readConfiguration inputs earlier arg with
      | (_, some _) => []
      | (config, none) => config.spec.pages ++ requested inputs (earlier ++ [arg]) args

theorem provisionArgs_eq (host : Host) (inputs : Inputs) (sysRoot : GoString) (nodes : Nat)
    (earlier args : List GoString) (history : List Write) :
    let run := provisionGroups host sysRoot nodes (requested inputs earlier args) history
    ((provisionArgs host inputs sysRoot nodes earlier args history).1 = .panicked ↔
        run.1 = .panicked) ∧
      (provisionArgs host inputs sysRoot nodes earlier args history).2 = run.2 := by
  induction args generalizing earlier history with
  | nil => simp [provisionArgs, requested, provisionGroups]
  | cons arg args ih =>
      rw [provisionArgs, requested]
      rcases readConfiguration inputs earlier arg with ⟨config, _ | err⟩
      · dsimp only
        rw [runtimeHugepages, provisionGroups_after, List.append_nil]
        rcases hrun : provisionGroups host sysRoot nodes config.spec.pages history with
          ⟨⟨_ | _⟩ | _, trace⟩
        · rw [provisionGroups_append hrun]
          obtain ⟨hexit, htrace⟩ := ih (earlier ++ [arg]) (history ++ trace.flatMap Prod.snd)
          exact ⟨hexit, by rw [← htrace]⟩
        · rw [provisionGroups_append_of_stopped _ (by simp [hrun]), hrun]
          simp
        · rw [provisionGroups_append_of_stopped _ (by simp [hrun]), hrun]
          simp
      · simp [provisionGroups]

/-- On a machine whose zones are counted the program is safe on every host exactly if all
it was asked for together is admissible. -/
theorem main_safe_iff {inputs : Inputs} {sysRoot : GoString} {nodes : Nat}
    (htopology : inputs.topology sysRoot = .ok nodes) (args : List GoString) :
    (∀ host, (main host inputs sysRoot args).1 ≠ .panicked ∧
        ∀ entry ∈ (main host inputs sysRoot args).2, ∀ w ∈ entry.2, 0 ≤ w.hpCount) ↔
      Admissible nodes (requested inputs [] args) := by
  rw [← provisionGroups_safe_iff nodes _ sysRoot]
  refine forall_congr' fun host => ?_
  obtain ⟨hexit, htrace⟩ := provisionArgs_eq host inputs sysRoot nodes [] args []
  rw [main, htopology, Safe]
  dsimp only
  rw [htrace, Ne, Ne, hexit]

end DraEnv.Hugepages
