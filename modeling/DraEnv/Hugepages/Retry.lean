import DraEnv.Hugepages.Conservation
import DraEnv.Hugepages.Setup

/-!
The whole program as one list of writes.

What the program sets out to do is fixed before the first write: the
architecture, the zones and the configurations determine the writes, in
order, and the exit after the last of them. A host on which calls fail
has no say in that; it decides only how far the program gets
(`main_failStop`). So a run that failed has written a front of what the
next one writes, and running the program again until it exits with 0
leaves the machine as if only the last run had been made
(`retries_converge`).
-/

namespace DraEnv.Hugepages

open DraEnv.GoStd DraEnv.Foundation

/-! ### Scripts -/

/-- What the program does where no call fails: the writes, and the exit after them. -/
structure Script where
  writes : List Write
  exit : Exit

/-- Run the script on a host. A call that fails ends it with the status of a failed
provisioning. -/
def Script.run (script : Script) (host : Host) (sysRoot : GoString) (history : List Write) :
    Exit × List Write :=
  match perform host sysRoot script.writes history with
  | (.returned none, writes) => (script.exit, writes)
  | (_, writes) => (.status 4, writes)

/-- The groups of one configuration, and then the rest. -/
def groupsScript (arch : Arch) (numaZones : Nat) (rest : Script) : List HugePage → Script
  | [] => rest
  | conf :: pages =>
      if numaZones = 0 then ⟨[], .panicked⟩
      else
        match validateHugePageSize arch conf.size with
        | .error _ => ⟨[], .status 4⟩
        | .ok hpSize =>
            let after := groupsScript arch numaZones rest pages
            ⟨(placement numaZones conf).map (Write.to hpSize) ++ after.writes, after.exit⟩

def argsScript (arch : Arch) (inputs : Inputs) (nodes : Nat) :
    List GoString → List GoString → Script
  | _, [] => ⟨[], .status 0⟩
  | earlier, arg :: args =>
      match readConfiguration inputs earlier arg with
      | (_, some _) => ⟨[], .status 2⟩
      | (config, none) =>
          groupsScript arch nodes (argsScript arch inputs nodes (earlier ++ [arg]) args)
            config.spec.pages

def script (arch : Arch) (inputs : Inputs) (sysRoot : GoString) (args : List GoString) : Script :=
  match inputs.topology sysRoot with
  | .error _ => ⟨[], .status 1⟩
  | .ok nodes => argsScript arch inputs nodes [] args

section

variable {host : Host} {sysRoot : GoString} {history : List Write}

/-- All of the script is performed, or what comes before the first write that fails. -/
theorem Script.run_cases (script : Script) (host : Host) (sysRoot : GoString)
    (history : List Write) :
    script.run host sysRoot history = (script.exit, script.writes) ∨
      ∃ front w back err, script.writes = front ++ w :: back ∧
        failure host sysRoot (history ++ front) w = some err ∧
        script.run host sysRoot history = (.status 4, front) := by
  rw [Script.run]
  rcases perform_cases host sysRoot script.writes history with
    hall | ⟨front, w, back, err, hplan, hfails, hfront⟩
  · rw [hall]
    exact Or.inl rfl
  · rw [hfront]
    exact Or.inr ⟨front, w, back, err, hplan, hfails, rfl⟩

/-- A script that is performed to the end goes on with what was appended to it. -/
theorem perform_append_of_all {plan : List Write} (rest : List Write)
    (h : perform host sysRoot plan history = (.returned none, plan)) :
    perform host sysRoot (plan ++ rest) history =
      ((perform host sysRoot rest (history ++ plan)).1,
        plan ++ (perform host sysRoot rest (history ++ plan)).2) := by
  induction plan generalizing history with
  | nil => simp
  | cons w plan ih =>
      cases hw : failure host sysRoot history w with
      | some err =>
          rw [perform_cons_of_failure plan hw] at h
          simp at h
      | none =>
          rw [perform_cons plan hw] at h
          obtain ⟨hending, hwrites⟩ := Prod.mk.inj h
          have hplan : perform host sysRoot plan (history ++ [w]) = (.returned none, plan) :=
            Prod.ext hending (List.cons.inj hwrites).2
          rw [List.cons_append, perform_cons _ hw, ih hplan]
          simp

theorem perform_append_of_stopped {plan front : List Write} {err : ProvisionError}
    (rest : List Write) (h : perform host sysRoot plan history = (.returned (some err), front)) :
    perform host sysRoot (plan ++ rest) history = (.returned (some err), front) := by
  induction plan generalizing history front with
  | nil => simp [perform] at h
  | cons w plan ih =>
      cases hw : failure host sysRoot history w with
      | some err' =>
          rw [perform_cons_of_failure plan hw] at h
          rw [List.cons_append, perform_cons_of_failure _ hw, h]
      | none =>
          rw [perform_cons plan hw] at h
          obtain ⟨hending, hwrites⟩ := Prod.mk.inj h
          rw [List.cons_append, perform_cons _ hw, ih (Prod.ext hending rfl)]
          exact Prod.ext rfl hwrites

/-! ### The program follows its script -/

/-- The writes of a run, in order. -/
def written (trace : Trace) : List Write := trace.flatMap Prod.snd

/-- What a run over the groups says about the script: it has stopped with the run, or the
rest is yet to come. -/
def Followed (host : Host) (sysRoot : GoString) (history : List Write) (rest whole : Script) :
    Ending × Trace → Prop
  | (.panicked, trace) => whole.run host sysRoot history = (.panicked, written trace)
  | (.returned (some _), trace) => whole.run host sysRoot history = (.status 4, written trace)
  | (.returned none, trace) =>
      whole.run host sysRoot history =
        ((rest.run host sysRoot (history ++ written trace)).1,
          written trace ++ (rest.run host sysRoot (history ++ written trace)).2)

theorem Script.run_append_of_all {plan : List Write} (rest : Script)
    (h : perform host sysRoot plan history = (.returned none, plan)) :
    Script.run ⟨plan ++ rest.writes, rest.exit⟩ host sysRoot history =
      ((rest.run host sysRoot (history ++ plan)).1,
        plan ++ (rest.run host sysRoot (history ++ plan)).2) := by
  rw [Script.run, Script.run, perform_append_of_all _ h]
  rcases perform host sysRoot rest.writes (history ++ plan) with ⟨⟨_ | err⟩ | _, front⟩ <;> rfl

theorem Script.run_append_of_stopped {plan front : List Write} {err : ProvisionError}
    (rest : Script) (h : perform host sysRoot plan history = (.returned (some err), front)) :
    Script.run ⟨plan ++ rest.writes, rest.exit⟩ host sysRoot history = (.status 4, front) := by
  rw [Script.run, perform_append_of_stopped _ h]

/-- One more group before the others, all of which was written. -/
theorem Followed.cons {plan : List Write} {rest whole : Script} {run : Ending × Trace}
    (conf : HugePage) (hall : perform host sysRoot plan history = (.returned none, plan))
    (h : Followed host sysRoot (history ++ plan) rest whole run) :
    Followed host sysRoot history rest ⟨plan ++ whole.writes, whole.exit⟩
      (run.1, (conf, plan) :: run.2) := by
  rcases run with ⟨⟨_ | err⟩ | _, trace⟩ <;>
  · simp only [Followed] at h ⊢
    rw [Script.run_append_of_all _ hall, h]
    simp [written]

theorem followed_provisionGroups (host : Host) (sysRoot : GoString) (history : List Write)
    (numaZones : Nat) (pages : List HugePage) (rest : Script) :
    Followed host sysRoot history rest (groupsScript host.arch numaZones rest pages)
      (provisionGroups host sysRoot numaZones pages history) := by
  induction pages generalizing history with
  | nil => simp [Followed, provisionGroups, groupsScript, written]
  | cons conf pages ih =>
      by_cases hzones : numaZones = 0
      · subst hzones
        rw [provisionGroups, Nat.cast_zero, provisionGroup_zero, groupsScript, if_pos rfl]
        rfl
      have hn : 1 ≤ (numaZones : Int) := by omega
      rw [provisionGroups, groupsScript, if_neg hzones]
      cases hsize : validateHugePageSize host.arch conf.size with
      | error err =>
          rw [provisionGroup_invalid hsize hn]
          rfl
      | ok hpSize =>
          rw [provisionGroup_eq hsize hn]
          dsimp only
          generalize hplan : (placement numaZones conf).map (Write.to hpSize) = plan
          rcases perform_cases host sysRoot plan history with
            hall | ⟨front, w, back, err, -, -, hfront⟩
          · rw [hall]
            exact (ih _).cons conf hall
          · rw [hfront]
            simp only [Followed]
            rw [Script.run_append_of_stopped _ hfront]
            simp [written]

theorem provisionArgs_script (inputs : Inputs) (nodes : Nat) (earlier args : List GoString)
    (history : List Write) :
    let run := provisionArgs host inputs sysRoot nodes earlier args history
    (run.1, written run.2) =
      (argsScript host.arch inputs nodes earlier args).run host sysRoot history := by
  induction args generalizing earlier history with
  | nil => rfl
  | cons arg args ih =>
      rw [provisionArgs, argsScript]
      rcases readConfiguration inputs earlier arg with ⟨config, _ | err⟩
      · dsimp only
        rw [runtimeHugepages, provisionGroups_after, List.append_nil]
        have hfollowed := followed_provisionGroups host sysRoot history nodes config.spec.pages
          (argsScript host.arch inputs nodes (earlier ++ [arg]) args)
        revert hfollowed
        rcases provisionGroups host sysRoot nodes config.spec.pages history with
          ⟨⟨_ | err⟩ | _, trace⟩
        · intro hfollowed
          simp only [Followed] at hfollowed
          have hrest := ih (earlier ++ [arg]) (history ++ written trace)
          rw [hfollowed, ← hrest]
          simp [written]
        · exact Eq.symm
        · exact Eq.symm
      · rfl

end

/-- The program performs its script, as far as the host lets it. -/
theorem main_script (host : Host) (inputs : Inputs) (sysRoot : GoString) (args : List GoString) :
    ((main host inputs sysRoot args).1, written (main host inputs sysRoot args).2) =
      (script host.arch inputs sysRoot args).run host sysRoot [] := by
  rw [main, script]
  cases inputs.topology sysRoot with
  | error err => rfl
  | ok nodes => exact provisionArgs_script inputs nodes [] args []

/-- The program performs all of its script and exits as the script says, or it stops with
status 4 at the first write that fails, having made the writes before it. -/
theorem main_failStop (host : Host) (inputs : Inputs) (sysRoot : GoString)
    (args : List GoString) :
    let plan := script host.arch inputs sysRoot args
    let run := main host inputs sysRoot args
    (run.1 = plan.exit ∧ written run.2 = plan.writes) ∨
      ∃ front w back err, plan.writes = front ++ w :: back ∧
        failure host sysRoot front w = some err ∧ run.1 = .status 4 ∧ written run.2 = front := by
  intro plan run
  have hrun : (run.1, written run.2) = plan.run host sysRoot [] :=
    main_script host inputs sysRoot args
  rcases plan.run_cases host sysRoot [] with hall | ⟨front, w, back, err, hplan, hfails, hstopped⟩
  · rw [hall] at hrun
    exact Or.inl (Prod.mk.inj hrun)
  · rw [hstopped] at hrun
    exact Or.inr ⟨front, w, back, err, hplan, hfails, Prod.mk.inj hrun⟩

/-! ### Running it again -/

/-- The page counts in the files after a log of writes. -/
def filesAfter (sysRoot : GoString) (files : GoString → Option Int) (log : List Write) :
    GoString → Option Int :=
  (log.map fun w => (w.hpPath sysRoot, w.hpCount)).foldl put files

/-- A run that writes a front of what the next one writes leaves no trace. -/
theorem filesAfter_of_front {sysRoot : GoString} {front log : List Write} (h : front <+: log)
    (files : GoString → Option Int) :
    filesAfter sysRoot (filesAfter sysRoot files front) log = filesAfter sysRoot files log := by
  refine foldl_put_of_subset (fun path hpath => ?_) files
  rw [keys, List.mem_toFinset] at hpath ⊢
  exact ((h.map _).map _).subset hpath

theorem foldl_filesAfter_of_fronts {sysRoot : GoString} {fronts : List (List Write)}
    {log : List Write} (h : ∀ front ∈ fronts, front <+: log) (files : GoString → Option Int) :
    filesAfter sysRoot (fronts.foldl (filesAfter sysRoot) files) log =
      filesAfter sysRoot files log := by
  induction fronts generalizing files with
  | nil => rfl
  | cons front fronts ih =>
      rw [List.forall_mem_cons] at h
      rw [List.foldl_cons, ih h.2, filesAfter_of_front h.1]

theorem written_front (host : Host) (inputs : Inputs) (sysRoot : GoString)
    (args : List GoString) :
    written (main host inputs sysRoot args).2 <+:
      (script host.arch inputs sysRoot args).writes := by
  have hrun := main_script host inputs sysRoot args
  rcases (script host.arch inputs sysRoot args).run_cases host sysRoot [] with
    hall | ⟨front, w, back, err, hplan, -, hstopped⟩
  · rw [hall] at hrun
    rw [(Prod.mk.inj hrun).2]
  · rw [hstopped] at hrun
    rw [(Prod.mk.inj hrun).2, hplan]
    exact List.prefix_append _ _

theorem written_of_success {host : Host} {inputs : Inputs} {sysRoot : GoString}
    {args : List GoString} (hok : (main host inputs sysRoot args).1 = .status 0) :
    written (main host inputs sysRoot args).2 = (script host.arch inputs sysRoot args).writes := by
  have hrun := main_script host inputs sysRoot args
  rcases (script host.arch inputs sysRoot args).run_cases host sysRoot [] with
    hall | ⟨front, w, back, err, -, -, hstopped⟩
  · rw [hall] at hrun
    exact (Prod.mk.inj hrun).2
  · rw [hstopped, hok] at hrun
    simp at hrun

/-- However often the program failed before, and wherever, once it exits with 0 the files
hold what they would hold had it been run only that once. -/
theorem retries_converge {host : Host} {inputs : Inputs} {sysRoot : GoString}
    {args : List GoString} (hok : (main host inputs sysRoot args).1 = .status 0)
    (attempts : List Host) (harch : ∀ attempt ∈ attempts, attempt.arch = host.arch)
    (files : GoString → Option Int) :
    ((attempts ++ [host]).map fun attempt =>
        written (main attempt inputs sysRoot args).2).foldl (filesAfter sysRoot) files =
      filesAfter sysRoot files (written (main host inputs sysRoot args).2) := by
  rw [List.map_append, List.foldl_append]
  refine foldl_filesAfter_of_fronts (List.forall_mem_map.mpr fun attempt hattempt => ?_) files
  dsimp only
  rw [written_of_success hok, ← harch attempt hattempt]
  exact written_front attempt inputs sysRoot args

/-- Four pages on a machine with two zones. -/
def fourPages : Inputs where
  openFile _ _ := none
  readAll _ _ := .ok []
  unmarshal _ := (⟨⟨[⟨lit "2M", 4, none⟩]⟩⟩, none)
  topology _ := .ok 2

/-- A host on which the second write fails. -/
def Host.failsSecond : Host :=
  ⟨.amd64, fun _ _ => none, fun history _ _ => if history.length = 1 then some .eof else none⟩

theorem retries_converge_failsSecond :
    (main .failsSecond fourPages (lit "/") [lit "-"]).1 = .status 4 ∧
      ([Host.failsSecond, .reliable].map fun attempt =>
          written (main attempt fourPages (lit "/") [lit "-"]).2).foldl
          (filesAfter (lit "/")) (fun _ => none) =
        filesAfter (lit "/") (fun _ => none)
          (written (main .reliable fourPages (lit "/") [lit "-"]).2) :=
  ⟨by decide, retries_converge (by decide) [.failsSecond]
    (by simp [Host.failsSecond, Host.reliable]) _⟩

end DraEnv.Hugepages
