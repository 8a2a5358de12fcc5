import DraEnv.Sriovvf.Plan

/-!
What the tool writes at all.

The results about strict runs assume a sysfs that keeps its promises. Here
nothing is assumed: any call may fail or change anything, and either mode
may be on. What a run writes is then told by what its calls were answered.
Without a device that was found as the configuration asks, and that can
have the requested number of VFs, nothing is written. With one, the run
goes through three parts: the number of VFs by way of zero, the node of
the device, the nodes of the VFs it was shown. Each part is written up to
the first failure, after which strict mode stops and try mode goes on with
the next part.
-/

namespace DraEnv.Sriovvf

open DraEnv.Foundation DraEnv.GoStd Effect

variable {σ : Type} (fs : Filesystem σ) (size : IntSize)

/-! ### Writes -/

/-- The writes of a plan, up to the first that fails. -/
abbrev Writes : List (GoString × Bytes) → σ → Bool → σ → List (WriteCall σ) → Prop :=
  Attempts (fun request => fs.writeFile request.1 request.2)
    fun s request err => ⟨s, request.1, request.2, err⟩

/-- The program writes the plan, and fails if one of the writes does. -/
abbrev Issues (plan : List (GoString × Bytes)) (p : Tool σ Unit) : Prop :=
  Performs (fun request => fs.writeFile request.1 request.2)
    (fun s request err => ⟨s, request.1, request.2, err⟩) plan p

/-- The writes that bring `sriov_numvfs` to a number. -/
def countPlan (pf : PfDevice) (requested : Int) : List (GoString × Bytes) :=
  if pf.currentVFs = requested then []
  else if pf.currentVFs > 0 then
    [(numvfsPath pf.path, intData 0), (numvfsPath pf.path, intData requested)]
  else [(numvfsPath pf.path, intData requested)]

/-- The writes for a plan of nodes. -/
def nodeRequests (plan : List (GoString × Int)) : List (GoString × Bytes) :=
  plan.map fun step => (numaPath step.1, intData step.2)

theorem issues_writeIntToFile (path : GoString) (value : Int) :
    Issues fs [(path, intData value)] (writeIntToFile fs path value) := by
  intro s
  simp only [writeIntToFile]
  rcases hwrite : fs.writeFile path (intData value) s with ⟨_ | err, s'⟩
  · exact .succeeds hwrite (.done s')
  · exact .fails hwrite

theorem issues_setNumVFs (pf : PfDevice) (requested : Int) :
    Issues fs (countPlan pf requested) (setNumVFs fs pf requested) := by
  have hset := issues_writeIntToFile fs (numvfsPath pf.path) requested
  rw [setNumVFs, countPlan]
  split
  · exact performs_pure
  split
  · have hreset := issues_writeIntToFile fs (numvfsPath pf.path) 0
    exact (hreset.mapError _).seq (hset.mapError _)
  · exact hset.mapError _

theorem issues_setVFNUMANode (vfPath : GoString) (node : Int) :
    Issues fs (nodeRequests [(vfPath, node)]) (setVFNUMANode fs vfPath node) :=
  (issues_writeIntToFile fs _ node).mapError _

theorem issues_pinVFNUMA (node : Int) (vfPaths : List GoString) :
    Issues fs (nodeRequests (vfPaths.map (·, node))) (pinVFNUMA fs node vfPaths) := by
  induction vfPaths with
  | nil => exact performs_pure
  | cons vfPath vfPaths ih => exact (issues_setVFNUMANode fs vfPath node).seq ih

theorem issues_balanceFrom (nodes : List Int) (hnodes : nodes ≠ []) (idx : Nat)
    (vfPaths : List GoString) :
    Issues fs (nodeRequests (balancePlan nodes hnodes idx vfPaths))
      (balanceFrom fs nodes hnodes idx vfPaths) := by
  induction vfPaths generalizing idx with
  | nil => exact performs_pure
  | cons vfPath vfPaths ih =>
      exact (issues_setVFNUMANode fs vfPath (nodeAt nodes hnodes idx)).seq (ih (idx + 1))

/-! ### The parts of a run -/

theorem silent_handleFailure (cfg : Config) (err : ToolError) :
    Silent (handleFailure cfg err : Tool σ Unit) := by
  rw [handleFailure]
  split
  · exact silent_pure _
  · exact silent_fail _

theorem orHandle_run (cfg : Config) (p : Tool σ Unit) (s : σ) :
    (orHandle cfg p).run s =
      ⟨if cfg.tryMode then .ok () else (p.run s).result, (p.run s).state, (p.run s).log⟩ := by
  rw [orHandle, bind_ok (run_attempt p s)]
  cases (p.run s).result with
  | error err => cases htry : cfg.tryMode <;> simp [handleFailure, htry]
  | ok _ => simp

/-- A part of a run and the rest: in strict mode the rest is left out if the part
fails. -/
theorem orHandle_seq (cfg : Config) {plan : List (GoString × Bytes)} {p : Tool σ Unit}
    (hp : Issues fs plan p) (q : Tool σ Unit) (s : σ) :
    ∃ ok s₁ log, Writes fs plan s ok s₁ log ∧
      ((cfg.tryMode = false ∧ ok = false ∧ ((do orHandle cfg p; q).run s).log = log) ∨
        (cfg.tryMode = true ∨ ok = true) ∧
          ((do orHandle cfg p; q).run s).log = log ++ (q.run s₁).log) := by
  refine ⟨_, _, _, hp s, ?_⟩
  have hrun := orHandle_run cfg p s
  cases htry : cfg.tryMode with
  | true =>
      rw [htry, if_pos rfl] at hrun
      rw [bind_ok hrun]
      exact Or.inr ⟨Or.inl rfl, rfl⟩
  | false =>
      rw [htry, if_neg (by decide)] at hrun
      cases hresult : (p.run s).result with
      | error err =>
          rw [hresult] at hrun
          rw [bind_error hrun]
          exact Or.inl ⟨rfl, rfl, rfl⟩
      | ok _ =>
          rw [hresult] at hrun
          rw [bind_ok hrun]
          exact Or.inr ⟨Or.inr rfl, rfl⟩

/-- The node of the device, as a part of the run. -/
theorem assignPF_eq (cfg : Config) (pf : PfDevice) :
    ∃ p, Issues fs (nodeRequests (pfPlan cfg pf)) p ∧ assignPF fs cfg pf = orHandle cfg p := by
  rw [assignPF, pfPlan]
  split
  · exact ⟨_, (issues_writeIntToFile fs _ _).mapError _, rfl⟩
  · exact ⟨pure (), performs_pure, rfl⟩

/-- What is written for the VFs: the ones a listing shows get the node of the
configuration, or the nodes a listing shows, in turn. -/
inductive AssignsVFs (cfg : Config) (pf : PfDevice) (s : σ) : List (WriteCall σ) → Prop
  | unlisted (hvfs : ∀ vfPaths s', ¬ ListsVFs fs pf.path s vfPaths s') : AssignsVFs cfg pf s []
  | idle {vfPaths : List GoString} {s₁ : σ} (hvfs : ListsVFs fs pf.path s vfPaths s₁)
      (hidle : vfPaths.length = 0 ∨ cfg.numVFs = 0) : AssignsVFs cfg pf s []
  | pinned {vfPaths : List GoString} {s₁ s' : σ} {ok : Bool} {log : List (WriteCall σ)}
      (hvfs : ListsVFs fs pf.path s vfPaths s₁) (hnumVFs : cfg.numVFs ≠ 0)
      (hnode : 0 ≤ cfg.pfNUMANode)
      (hwrites : Writes fs (nodeRequests (vfPaths.map (·, cfg.pfNUMANode))) s₁ ok s' log) :
      AssignsVFs cfg pf s log
  | noNodes {vfPaths : List GoString} {s₁ : σ} (hvfs : ListsVFs fs pf.path s vfPaths s₁)
      (hnode : cfg.pfNUMANode < 0)
      (hnodes : ∀ nodes s', ListsNodes fs size cfg.sysfsRoot s₁ nodes s' → nodes = []) :
      AssignsVFs cfg pf s []
  | balanced {vfPaths : List GoString} {s₁ s₂ s' : σ} {nodes : List Int} {ok : Bool}
      {log : List (WriteCall σ)} (hvfs : ListsVFs fs pf.path s vfPaths s₁)
      (hnumVFs : cfg.numVFs ≠ 0) (hnode : cfg.pfNUMANode < 0)
      (hnodes : ListsNodes fs size cfg.sysfsRoot s₁ nodes s₂) (hne : nodes ≠ [])
      (hwrites : Writes fs (nodeRequests (balancePlan nodes hne 0 vfPaths)) s₂ ok s' log) :
      AssignsVFs cfg pf s log

theorem assignVFs_writes (cfg : Config) (pf : PfDevice) (s : σ) :
    AssignsVFs fs size cfg pf s ((assignVFs fs size cfg pf).run s).log := by
  rw [assignVFs, (silent_listVFPaths fs pf.path).attempt_bind]
  rcases hlist : (listVFPaths fs pf.path).run s with ⟨err | vfPaths, s₁, log₁⟩
  · dsimp only
    rw [silent_handleFailure]
    refine .unlisted fun vfPaths s' hvfs => ?_
    rw [listVFPaths_run_ok.mpr ⟨hvfs, rfl⟩] at hlist
    cases hlist
  · have hvfs := (listVFPaths_run_ok.mp hlist).1
    dsimp only
    split
    next hidle => exact .idle hvfs hidle
    next hidle =>
      have hnumVFs : cfg.numVFs ≠ 0 := fun hzero => hidle (Or.inr hzero)
      split
      next hnode =>
        rw [orHandle_run]
        exact .pinned hvfs hnumVFs hnode (issues_pinVFNUMA fs cfg.pfNUMANode vfPaths s₁)
      next hnode =>
        have hneg : cfg.pfNUMANode < 0 := not_le.mp hnode
        rw [(silent_listNUMANodes fs size cfg.sysfsRoot).attempt_bind]
        rcases hlisted : (listNUMANodes fs size cfg.sysfsRoot).run s₁ with
          ⟨err | nodes, s₂, log₂⟩
        · dsimp only
          rw [silent_handleFailure]
          refine .noNodes hvfs hneg fun nodes s' hnodes => ?_
          rw [listNUMANodes_run_ok.mpr ⟨hnodes, rfl⟩] at hlisted
          cases hlisted
        · dsimp only
          split
          next hempty =>
            refine .noNodes hvfs hneg fun nodes' s' hnodes' => ?_
            rw [listNUMANodes_run_ok.mpr ⟨hnodes', rfl⟩] at hlisted
            cases hlisted
            exact hempty
          next hne =>
            rw [orHandle_run]
            exact .balanced hvfs hnumVFs hneg (listNUMANodes_run_ok.mp hlisted).1 hne
              (issues_balanceFrom fs nodes hne 0 vfPaths s₂)

/-- What is written for a device: the parts one after the other, in strict mode up to
the first that fails. -/
inductive SetsUp (cfg : Config) (pf : PfDevice) (s : σ) : List (WriteCall σ) → Prop
  | counts {s₁ : σ} {log : List (WriteCall σ)} (hstrict : cfg.tryMode = false)
      (hcounts : Writes fs (countPlan pf cfg.numVFs) s false s₁ log) : SetsUp cfg pf s log
  | own {s₁ s₂ : σ} {log₁ log₂ : List (WriteCall σ)} (hstrict : cfg.tryMode = false)
      (hcounts : Writes fs (countPlan pf cfg.numVFs) s true s₁ log₁)
      (hown : Writes fs (nodeRequests (pfPlan cfg pf)) s₁ false s₂ log₂) :
      SetsUp cfg pf s (log₁ ++ log₂)
  | vfs {ok₁ ok₂ : Bool} {s₁ s₂ : σ} {log₁ log₂ log₃ : List (WriteCall σ)}
      (hgoes : cfg.tryMode = true ∨ ok₁ = true ∧ ok₂ = true)
      (hcounts : Writes fs (countPlan pf cfg.numVFs) s ok₁ s₁ log₁)
      (hown : Writes fs (nodeRequests (pfPlan cfg pf)) s₁ ok₂ s₂ log₂)
      (hvfs : AssignsVFs fs size cfg pf s₂ log₃) : SetsUp cfg pf s (log₁ ++ (log₂ ++ log₃))

theorem setUp_writes {cfg : Config} {pf : PfDevice} (hle : cfg.numVFs ≤ pf.totalVFs) (s : σ) :
    SetsUp fs size cfg pf s ((setUp fs size cfg pf).run s).log := by
  obtain ⟨p, hp, hassign⟩ := assignPF_eq fs cfg pf
  rw [setUp, if_neg (not_lt.mpr hle), hassign]
  obtain ⟨ok₁, s₁, log₁, hcounts, ⟨hstrict, rfl, hlog⟩ | ⟨hgoes₁, hlog⟩⟩ :=
    orHandle_seq fs cfg (issues_setNumVFs fs pf cfg.numVFs)
      (do orHandle cfg p; assignVFs fs size cfg pf) s
  · rw [hlog]
    exact .counts hstrict hcounts
  obtain ⟨ok₂, s₂, log₂, hown, ⟨hstrict, rfl, hlog'⟩ | ⟨hgoes₂, hlog'⟩⟩ :=
    orHandle_seq fs cfg hp (assignVFs fs size cfg pf) s₁
  · rw [hlog, hlog']
    obtain rfl : ok₁ = true := by simpa [hstrict] using hgoes₁
    exact .own hstrict hcounts hown
  · rw [hlog, hlog']
    refine .vfs ?_ hcounts hown (assignVFs_writes fs size cfg pf s₂)
    cases htry : cfg.tryMode with
    | true => exact Or.inl rfl
    | false =>
        simp only [htry, Bool.false_eq_true, false_or] at hgoes₁ hgoes₂
        exact Or.inr ⟨hgoes₁, hgoes₂⟩

/-! ### The run -/

/-- The device was found as the configuration asks, and can have the requested number
of VFs. -/
structure Accepted (cfg : Config) (s : σ) (pf : PfDevice) (s' : σ) : Prop where
  nonneg : 0 ≤ cfg.numVFs
  found : ∃ s₁, IsDirAt fs cfg.sysfsRoot s s₁ ∧ Selected fs size cfg s₁ pf s'
  capacity : cfg.numVFs ≤ pf.totalVFs

theorem Accepted.run_ok {fs : Filesystem σ} {size : IntSize} {cfg : Config} {s s' : σ}
    {pf : PfDevice} (h : Accepted fs size cfg s pf s') :
    ∃ s₁, (ensureDir fs cfg.sysfsRoot).run s = ⟨.ok (), s₁, []⟩ ∧
      (resolvePF fs size cfg.sysfsRoot cfg.pciAddr).run s₁ = ⟨.ok pf, s', []⟩ := by
  obtain ⟨s₁, hdir, hselected⟩ := h.found
  exact ⟨s₁, ensureDir_run_ok.mpr ⟨hdir, rfl⟩, resolvePF_run_ok.mpr ⟨hselected, rfl⟩⟩

/-- Whatever the file system does and in either mode, a run writes what it takes to set
up the device it has accepted, or nothing if there is none. -/
theorem run_confined (cfg : Config) (s : σ) :
    (∃ pf s₁, Accepted fs size cfg s pf s₁ ∧
      SetsUp fs size cfg pf s₁ ((run fs size cfg).run s).log) ∨
    (∀ pf s₁, ¬ Accepted fs size cfg s pf s₁) ∧ ((run fs size cfg).run s).log = [] := by
  rw [run]
  split
  next hneg =>
    exact Or.inr ⟨fun _ _ h => absurd h.nonneg (not_le.mpr hneg), silent_handleFailure cfg _ s⟩
  next hnonneg =>
    rw [(silent_ensureDir fs cfg.sysfsRoot).attempt_bind]
    rcases hroot : (ensureDir fs cfg.sysfsRoot).run s with ⟨err | _, s₁, log₁⟩
    · refine Or.inr ⟨fun pf s₂ h => ?_, silent_handleFailure cfg _ s₁⟩
      obtain ⟨_, hroot', -⟩ := h.run_ok
      cases hroot.symm.trans hroot'
    · dsimp only
      rw [(silent_resolvePF fs size cfg.sysfsRoot cfg.pciAddr).attempt_bind]
      rcases hpf : (resolvePF fs size cfg.sysfsRoot cfg.pciAddr).run s₁ with ⟨err | pf, s₂, log₂⟩
      · refine Or.inr ⟨fun pf s₂ h => ?_, silent_handleFailure cfg _ s₂⟩
        obtain ⟨_, hroot', hpf'⟩ := h.run_ok
        cases hroot.symm.trans hroot'
        cases hpf.symm.trans hpf'
      · by_cases hle : cfg.numVFs ≤ pf.totalVFs
        · have hfound : ∃ s₁, IsDirAt fs cfg.sysfsRoot s s₁ ∧ Selected fs size cfg s₁ pf s₂ :=
            ⟨s₁, (ensureDir_run_ok.mp hroot).1, (resolvePF_run_ok.mp hpf).1⟩
          exact Or.inl ⟨pf, s₂, ⟨not_lt.mp hnonneg, hfound, hle⟩, setUp_writes fs size hle s₂⟩
        · refine Or.inr ⟨fun pf' s₂' h => ?_, ?_⟩
          · obtain ⟨_, hroot', hpf'⟩ := h.run_ok
            cases hroot.symm.trans hroot'
            cases hpf.symm.trans hpf'
            exact hle h.capacity
          · dsimp only
            rw [setUp, if_pos (not_le.mp hle), silent_handleFailure]

end DraEnv.Sriovvf
