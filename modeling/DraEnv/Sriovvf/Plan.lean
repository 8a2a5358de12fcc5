import DraEnv.Sriovvf.Sysfs

/-!
How a strict run goes.

A strict run that returns nil has gone through all its steps. It has set
the number of VFs, possibly by way of zero (`Reconfigures`), and has then
carried out a plan: a list of directories and the nodes to be written to
their `numa_node` files, the PF first (`pfPlan`, `vfPlan`). Each loop of
the tool carries out its part of the plan (`Assigns`).

Of sysfs it is assumed here that writing a `numa_node` file changes that
file alone. The plan then reads as a log of writes to cells that keep
the last value, whatever paths lead to the same file.
-/

namespace DraEnv.Sriovvf

open DraEnv.Foundation DraEnv.GoStd Effect

variable {τ φ : Type} {fs : Sysfs τ φ} {size : IntSize} {cfg : Config}

def numvfsPath (dir : GoString) : GoString := join [dir, lit "sriov_numvfs"]

theorem lastComponent_numaPath (dir : GoString) :
    lastComponent (numaPath dir) = lit "numa_node" :=
  lastComponent_join_name dir (by decide)

theorem lastComponent_numvfsPath (dir : GoString) :
    lastComponent (numvfsPath dir) = lit "sriov_numvfs" :=
  lastComponent_join_name dir (by decide)

theorem numaPath_ne_numvfsPath (dir pfPath : GoString) : numaPath dir ≠ numvfsPath pfPath := by
  intro heq
  have hlast := congrArg lastComponent heq
  rw [lastComponent_numaPath, lastComponent_numvfsPath] at hlast
  exact absurd hlast (by decide)

/-- Writing a `numa_node` file changes that file only. -/
structure NumaFiles [DecidableEq φ] (fs : Sysfs τ φ) : Prop where
  store : ∀ dir node s s', fs.writeFile (numaPath dir) (intData node) s = (none, s') →
    ∃ file, fs.numaFile s.tree (numaPath dir) = some file ∧
      s' = { s with numa := put s.numa (file, node) }

/-- The value of the `numa_node` file in a directory. -/
def numaNode (fs : Sysfs τ φ) (s : State τ φ) (dir : GoString) : Option Int :=
  (fs.numaFile s.tree (numaPath dir)).bind s.numa

/-! ### Carrying out a plan -/

/-- The nodes of a plan are written one after the other, without an error. -/
inductive Assigns (fs : Sysfs τ φ) :
    List (GoString × Int) → State τ φ → State τ φ → List (WriteCall (State τ φ)) → Prop
  | nil (s : State τ φ) : Assigns fs [] s s []
  | cons {dir : GoString} {node : Int} {plan : List (GoString × Int)} {s s₁ s' : State τ φ}
      {log : List (WriteCall (State τ φ))} :
      fs.writeFile (numaPath dir) (intData node) s = (none, s₁) → Assigns fs plan s₁ s' log →
      Assigns fs ((dir, node) :: plan) s s' (⟨s, numaPath dir, intData node, none⟩ :: log)

section

variable {dir : GoString} {node : Int} {plan plan₁ plan₂ : List (GoString × Int)}
  {s s' : State τ φ} {log : List (WriteCall (State τ φ))}

theorem assigns_nil : Assigns fs [] s s' log ↔ s' = s ∧ log = [] := by
  constructor
  · rintro ⟨⟩
    exact ⟨rfl, rfl⟩
  · rintro ⟨rfl, rfl⟩
    exact .nil _

theorem assigns_cons :
    Assigns fs ((dir, node) :: plan) s s' log ↔
      ∃ s₁ log', fs.writeFile (numaPath dir) (intData node) s = (none, s₁) ∧
        Assigns fs plan s₁ s' log' ∧ log = ⟨s, numaPath dir, intData node, none⟩ :: log' := by
  constructor
  · rintro (_ | ⟨hwrite, hrest⟩)
    exact ⟨_, _, hwrite, hrest, rfl⟩
  · rintro ⟨s₁, log', hwrite, hrest, rfl⟩
    exact .cons hwrite hrest

theorem assigns_append :
    Assigns fs (plan₁ ++ plan₂) s s' log ↔
      ∃ s₁ log₁ log₂, Assigns fs plan₁ s s₁ log₁ ∧ Assigns fs plan₂ s₁ s' log₂ ∧
        log = log₁ ++ log₂ := by
  induction plan₁ generalizing s log with
  | nil => simp [assigns_nil]
  | cons step plan₁ ih =>
      rw [List.cons_append, assigns_cons]
      constructor
      · rintro ⟨s₁, log', hwrite, hrest, rfl⟩
        obtain ⟨s₂, log₁, log₂, h₁, h₂, rfl⟩ := ih.mp hrest
        exact ⟨s₂, _, log₂, .cons hwrite h₁, h₂, rfl⟩
      · rintro ⟨s₂, log₁, log₂, h₁, h₂, rfl⟩
        obtain ⟨s₁, log', hwrite, hrest, rfl⟩ := assigns_cons.mp h₁
        exact ⟨s₁, _, hwrite, ih.mpr ⟨s₂, log', log₂, hrest, h₂, rfl⟩, rfl⟩

/-- What is written are the directories of the plan. -/
theorem assigns_write (h : Assigns fs plan s s' log) {w : WriteCall (State τ φ)} (hw : w ∈ log) :
    ∃ dir ∈ plan.map Prod.fst, w.path = numaPath dir := by
  induction h with
  | nil s => simp at hw
  | cons _ _ ih =>
      rw [List.map_cons]
      rcases List.mem_cons.mp hw with rfl | hw
      · exact ⟨_, List.mem_cons_self, rfl⟩
      · obtain ⟨dir, hdir, hpath⟩ := ih hw
        exact ⟨dir, List.mem_cons_of_mem _ hdir, hpath⟩

end

/-- The cells a plan writes to. -/
def cells (fs : Sysfs τ φ) (tree : τ) (plan : List (GoString × Int)) : List (φ × Int) :=
  plan.filterMap fun step => (fs.numaFile tree (numaPath step.1)).map (·, step.2)

section

variable [DecidableEq φ] (hnuma : NumaFiles fs) {plan : List (GoString × Int)}
  {s s' : State τ φ} {log : List (WriteCall (State τ φ))}

include hnuma

theorem assigns_state (h : Assigns fs plan s s' log) :
    s' = { s with numa := (cells fs s.tree plan).foldl put s.numa } ∧
      ∀ step ∈ plan, ∃ file, fs.numaFile s.tree (numaPath step.1) = some file := by
  induction h with
  | nil s => exact ⟨rfl, by simp⟩
  | cons hwrite _ ih =>
      obtain ⟨file, hfile, rfl⟩ := hnuma.store _ _ _ _ hwrite
      obtain ⟨hstate, hfiles⟩ := ih
      refine ⟨?_, List.forall_mem_cons.mpr ⟨⟨file, hfile⟩, hfiles⟩⟩
      rw [hstate, cells, cells, List.filterMap_cons, hfile]
      rfl

theorem assigns_tree (h : Assigns fs plan s s' log) : s'.tree = s.tree := by
  rw [(assigns_state hnuma h).1]

/-- Each directory of the plan ends up with a node that the plan has for it. -/
theorem assigns_numaNode (h : Assigns fs plan s s' log) {dir : GoString}
    (hdir : dir ∈ plan.map Prod.fst) :
    ∃ step ∈ plan, numaNode fs s' dir = some step.2 := by
  obtain ⟨step, hstep, rfl⟩ := List.mem_map.mp hdir
  obtain ⟨hstate, hfiles⟩ := assigns_state hnuma h
  obtain ⟨file, hfile⟩ := hfiles step hstep
  have hcell : (file, step.2) ∈ cells fs s.tree plan :=
    List.mem_filterMap.mpr ⟨step, hstep, by rw [hfile]; rfl⟩
  obtain ⟨node, hnode⟩ : ∃ node, contents (cells fs s.tree plan) file = some node := by
    rw [← Option.ne_none_iff_exists', ne_eq, contents_eq_none, not_not, mem_keys]
    exact ⟨_, hcell, rfl⟩
  obtain ⟨other, hother, hvalue⟩ := List.mem_filterMap.mp (mem_of_contents hnode)
  obtain ⟨_, -, hpair⟩ := Option.map_eq_some_iff.mp hvalue
  obtain ⟨-, rfl⟩ := Prod.mk.inj hpair
  refine ⟨other, hother, ?_⟩
  rw [numaNode, hstate]
  dsimp only
  rw [hfile, Option.bind_some, foldl_put, hnode, Option.some_or]

end

/-! ### The loops -/

section

variable {dir : GoString} {node value : Int} {path : GoString} {plan : List (GoString × Int)}
  {s s' : State τ φ} {log : List (WriteCall (State τ φ))}

theorem writeIntToFile_ok :
    (writeIntToFile fs.filesystem path value).run s = ⟨.ok (), s', log⟩ ↔
      fs.writeFile path (intData value) s = (none, s') ∧
        log = [⟨s, path, intData value, none⟩] := by
  have hwrite : fs.filesystem.writeFile path (intData value) s =
      fs.writeFile path (intData value) s := rfl
  simp only [writeIntToFile, hwrite]
  rcases fs.writeFile path (intData value) s with ⟨_ | err, s₁⟩
  · simp [eq_comm]
  · simp

theorem setPFNUMANode_ok {pf : PfDevice} :
    (setPFNUMANode fs.filesystem pf node).run s = ⟨.ok (), s', log⟩ ↔
      Assigns fs [(pf.path, node)] s s' log := by
  rw [setPFNUMANode, mapError_ok, writeIntToFile_ok, assigns_cons]
  simp [assigns_nil]

/-- One turn of either loop. -/
theorem setVFNUMANode_seq_ok {rest : Tool (State τ φ) Unit}
    (hrest : ∀ s log, rest.run s = ⟨.ok (), s', log⟩ ↔ Assigns fs plan s s' log) :
    (do setVFNUMANode fs.filesystem dir node; rest).run s = ⟨.ok (), s', log⟩ ↔
      Assigns fs ((dir, node) :: plan) s s' log := by
  simp only [seq_run_ok, setVFNUMANode, mapError_ok, writeIntToFile_ok, hrest, assigns_cons]
  constructor
  · rintro ⟨s₁, _, log₂, ⟨hwrite, rfl⟩, h, rfl⟩
    exact ⟨s₁, log₂, hwrite, h, rfl⟩
  · rintro ⟨s₁, log₂, hwrite, h, rfl⟩
    exact ⟨s₁, _, log₂, ⟨hwrite, rfl⟩, h, rfl⟩

theorem pinVFNUMA_ok {vfPaths : List GoString} :
    (pinVFNUMA fs.filesystem node vfPaths).run s = ⟨.ok (), s', log⟩ ↔
      Assigns fs (vfPaths.map (·, node)) s s' log := by
  induction vfPaths generalizing s log with
  | nil => simp [pinVFNUMA, assigns_nil, eq_comm]
  | cons vfPath vfPaths ih => exact setVFNUMANode_seq_ok fun _ _ => ih

/-- The nodes `balanceVFNUMA` deals out. -/
def balancePlan (nodes : List Int) (hnodes : nodes ≠ []) (idx : Nat) (vfPaths : List GoString) :
    List (GoString × Int) :=
  (vfPaths.zipIdx idx).map fun vf => (vf.1, nodeAt nodes hnodes vf.2)

theorem balanceFrom_ok {nodes : List Int} {hnodes : nodes ≠ []} {idx : Nat}
    {vfPaths : List GoString} :
    (balanceFrom fs.filesystem nodes hnodes idx vfPaths).run s = ⟨.ok (), s', log⟩ ↔
      Assigns fs (balancePlan nodes hnodes idx vfPaths) s s' log := by
  induction vfPaths generalizing s log idx with
  | nil => simp [balanceFrom, balancePlan, assigns_nil, eq_comm]
  | cons vfPath vfPaths ih => exact setVFNUMANode_seq_ok fun _ _ => ih

end

/-! ### The run -/

/-- The node of the PF, if it is to have one. -/
def pfPlan (cfg : Config) (pf : PfDevice) : List (GoString × Int) :=
  if cfg.pfNUMANode ≥ 0 then [(pf.path, cfg.pfNUMANode)] else []

/-- The nodes of the VFs, as the listings of the VFs and of the nodes call for. -/
def vfPlan (fs : Sysfs τ φ) (size : IntSize) (cfg : Config) (pf : PfDevice) (s : State τ φ) :
    Option (List (GoString × Int)) := do
  let vfPaths ← ((listVFPaths fs.filesystem pf.path).run s).result.toOption
  if vfPaths.length = 0 ∨ cfg.numVFs = 0 then some []
  else if cfg.pfNUMANode ≥ 0 then some (vfPaths.map (·, cfg.pfNUMANode))
  else
    let nodes ← ((listNUMANodes fs.filesystem size cfg.sysfsRoot).run s).result.toOption
    if hnodes : nodes = [] then some [] else some (balancePlan nodes hnodes 0 vfPaths)

/-- How `sriov_numvfs` gets from the current to the requested number. -/
inductive Reconfigures (fs : Sysfs τ φ) (target : GoString) (current requested : Int) :
    State τ φ → State τ φ → List (WriteCall (State τ φ)) → Prop
  | same (s : State τ φ) : current = requested → Reconfigures fs target current requested s s []
  | fresh {s s' : State τ φ} : current ≤ 0 →
      fs.writeFile target (intData requested) s = (none, s') →
      Reconfigures fs target current requested s s' [⟨s, target, intData requested, none⟩]
  | reset {s s₁ s' : State τ φ} : fs.writeFile target (intData 0) s = (none, s₁) →
      fs.writeFile target (intData requested) s₁ = (none, s') →
      Reconfigures fs target current requested s s'
        [⟨s, target, intData 0, none⟩, ⟨s₁, target, intData requested, none⟩]

theorem vfPlan_congr {pf : PfDevice} {s s' : State τ φ} (h : s.tree = s'.tree) :
    vfPlan fs size cfg pf s = vfPlan fs size cfg pf s' := by
  rw [vfPlan, vfPlan, (observes_listVFPaths fs _).result s s' h,
    (observes_listNUMANodes fs size _).result s s' h]

section

variable {pf : PfDevice} {s s' : State τ φ} {log : List (WriteCall (State τ φ))}

theorem setNumVFs_ok {requested : Int}
    (h : (setNumVFs fs.filesystem pf requested).run s = ⟨.ok (), s', log⟩) :
    Reconfigures fs (numvfsPath pf.path) pf.currentVFs requested s s' log := by
  rw [setNumVFs] at h
  split_ifs at h with hsame hreset
  · cases h
    exact .same s hsame
  · obtain ⟨s₁, log₁, log₂, h₁, h₂, rfl⟩ := seq_run_ok.mp h
    rw [mapError_ok, writeIntToFile_ok] at h₁ h₂
    obtain ⟨hwrite₁, rfl⟩ := h₁
    obtain ⟨hwrite₂, rfl⟩ := h₂
    exact .reset hwrite₁ hwrite₂
  · rw [mapError_ok, writeIntToFile_ok] at h
    obtain ⟨hwrite, rfl⟩ := h
    exact .fresh (not_lt.mp hreset) hwrite

variable (hstrict : cfg.tryMode = false)

include hstrict

theorem handleFailure_strict (err : ToolError) :
    (handleFailure cfg err : Tool (State τ φ) Unit) = fail err := by
  rw [handleFailure, hstrict, if_neg (by decide)]

theorem orHandle_ok {p : Tool (State τ φ) Unit} :
    (orHandle cfg p).run s = ⟨.ok (), s', log⟩ ↔ p.run s = ⟨.ok (), s', log⟩ := by
  rw [orHandle, bind_ok (run_attempt p s)]
  rcases p.run s with ⟨err | _, s₁, log₁⟩
  · simp [handleFailure_strict hstrict]
  · simp

theorem assignPF_ok :
    (assignPF fs.filesystem cfg pf).run s = ⟨.ok (), s', log⟩ ↔
      Assigns fs (pfPlan cfg pf) s s' log := by
  rw [assignPF, pfPlan]
  split
  · rw [orHandle_ok hstrict, setPFNUMANode_ok]
  · simp [assigns_nil, eq_comm]

theorem assignVFs_ok :
    (assignVFs fs.filesystem size cfg pf).run s = ⟨.ok (), s', log⟩ ↔
      ∃ plan, vfPlan fs size cfg pf s = some plan ∧ Assigns fs plan s s' log := by
  rw [assignVFs, (observes_listVFPaths fs pf.path).attempt_bind_ok
    fun err => ⟨_, handleFailure_strict hstrict _⟩, vfPlan]
  rcases ((listVFPaths fs.filesystem pf.path).run s).result with err | vfPaths
  · simp [Except.toOption]
  simp only [Except.toOption, Option.bind_eq_bind, Option.bind_some, Except.ok.injEq,
    exists_eq_left']
  split
  · simp [assigns_nil, eq_comm]
  split
  · simp [orHandle_ok hstrict, pinVFNUMA_ok]
  rw [(observes_listNUMANodes fs size cfg.sysfsRoot).attempt_bind_ok
    fun err => ⟨_, handleFailure_strict hstrict _⟩]
  rcases ((listNUMANodes fs.filesystem size cfg.sysfsRoot).run s).result with err | nodes
  · simp
  simp only [Option.bind_some, Except.ok.injEq, exists_eq_left']
  split
  · simp [assigns_nil, eq_comm]
  · simp [orHandle_ok hstrict, balanceVFNUMA, balanceFrom_ok]

theorem run_ok :
    (run fs.filesystem size cfg).run s = ⟨.ok (), s', log⟩ ↔
      0 ≤ cfg.numVFs ∧ fs.IsDir s.tree cfg.sysfsRoot ∧ ∃ pf,
        ((resolvePF fs.filesystem size cfg.sysfsRoot cfg.pciAddr).run s).result = .ok pf ∧
        (setUp fs.filesystem size cfg pf).run s = ⟨.ok (), s', log⟩ := by
  rw [run]
  split
  next hneg => simp [handleFailure_strict hstrict, hneg]
  next hneg =>
    rw [(observes_ensureDir fs cfg.sysfsRoot).attempt_bind_ok
      fun err => ⟨_, handleFailure_strict hstrict _⟩]
    constructor
    · rintro ⟨⟨⟩, hdir, h⟩
      rw [(observes_resolvePF fs size cfg.sysfsRoot cfg.pciAddr).attempt_bind_ok
        fun err => ⟨_, handleFailure_strict hstrict _⟩] at h
      exact ⟨not_lt.mp hneg, (ensureDir_ok fs).mp hdir, h⟩
    · rintro ⟨-, hdir, h⟩
      refine ⟨(), (ensureDir_ok fs).mpr hdir, ?_⟩
      rw [(observes_resolvePF fs size cfg.sysfsRoot cfg.pciAddr).attempt_bind_ok
        fun err => ⟨_, handleFailure_strict hstrict _⟩]
      exact h

variable [DecidableEq φ] (hnuma : NumaFiles fs)

include hnuma

theorem setUp_ok :
    (setUp fs.filesystem size cfg pf).run s = ⟨.ok (), s', log⟩ ↔
      cfg.numVFs ≤ pf.totalVFs ∧ ∃ s₁ plan log₁ log₂,
        (setNumVFs fs.filesystem pf cfg.numVFs).run s = ⟨.ok (), s₁, log₁⟩ ∧
        vfPlan fs size cfg pf s₁ = some plan ∧
        Assigns fs (pfPlan cfg pf ++ plan) s₁ s' log₂ ∧ log = log₁ ++ log₂ := by
  rw [setUp]
  split
  next hmore => simp [handleFailure_strict hstrict, hmore]
  next hmore =>
    simp only [not_lt.mp hmore, true_and, seq_run_ok, orHandle_ok hstrict, assignPF_ok hstrict,
      assignVFs_ok hstrict, assigns_append]
    -- the PF's node is written before the VFs are listed, which makes no difference to the listing
    constructor
    · rintro ⟨s₁, log₁, _, hset, ⟨s₂, log₂, log₃, hpf, ⟨plan, hplan, hvf⟩, rfl⟩, rfl⟩
      rw [vfPlan_congr (assigns_tree hnuma hpf)] at hplan
      exact ⟨s₁, plan, log₁, _, hset, hplan, ⟨s₂, log₂, log₃, hpf, hvf, rfl⟩, rfl⟩
    · rintro ⟨s₁, plan, log₁, _, hset, hplan, ⟨s₂, log₂, log₃, hpf, hvf, rfl⟩, rfl⟩
      rw [← vfPlan_congr (assigns_tree hnuma hpf)] at hplan
      exact ⟨s₁, log₁, _, hset, ⟨s₂, log₂, log₃, hpf, ⟨plan, hplan, hvf⟩, rfl⟩, rfl⟩

end

/-! ### What the plan says -/

section

variable {pf : PfDevice} {s : State τ φ} {vfPaths : List GoString} {plan : List (GoString × Int)}

theorem vfPlan_listed (h : vfPlan fs size cfg pf s = some plan) :
    ∃ vfPaths, ((listVFPaths fs.filesystem pf.path).run s).result = .ok vfPaths := by
  rw [vfPlan] at h
  rcases hlist : ((listVFPaths fs.filesystem pf.path).run s).result with err | vfPaths
  · simp [hlist, Except.toOption] at h
  · exact ⟨vfPaths, rfl⟩

/-- The ways through `vfPlan`, for the VFs that are listed. -/
theorem vfPlan_cases (h : vfPlan fs size cfg pf s = some plan)
    (hlist : ((listVFPaths fs.filesystem pf.path).run s).result = .ok vfPaths) :
    ((vfPaths.length = 0 ∨ cfg.numVFs = 0) ∧ plan = []) ∨
      (0 ≤ cfg.pfNUMANode ∧ plan = vfPaths.map (·, cfg.pfNUMANode)) ∨
      (cfg.pfNUMANode < 0 ∧ ∃ nodes,
        ((listNUMANodes fs.filesystem size cfg.sysfsRoot).run s).result = .ok nodes ∧
        ((nodes = [] ∧ plan = []) ∨ ∃ hnodes, plan = balancePlan nodes hnodes 0 vfPaths)) := by
  rw [vfPlan, hlist] at h
  simp only [Except.toOption, Option.bind_eq_bind, Option.bind_some] at h
  split at h
  next hidle => exact Or.inl ⟨hidle, (Option.some.inj h).symm⟩
  split at h
  next hnode => exact Or.inr (Or.inl ⟨hnode, (Option.some.inj h).symm⟩)
  next hnode =>
    refine Or.inr (Or.inr ⟨not_le.mp hnode, ?_⟩)
    rcases hnodes : ((listNUMANodes fs.filesystem size cfg.sysfsRoot).run s).result with
      err | nodes
    · simp [hnodes] at h
    refine ⟨nodes, rfl, ?_⟩
    simp only [hnodes, Option.bind_some] at h
    split at h
    next hempty => exact Or.inl ⟨hempty, (Option.some.inj h).symm⟩
    next hempty => exact Or.inr ⟨hempty, (Option.some.inj h).symm⟩

/-- With a node given, the PF and all VFs are to have it. -/
theorem plan_pinned (hnode : 0 ≤ cfg.pfNUMANode) (h : vfPlan fs size cfg pf s = some plan)
    (hlist : ((listVFPaths fs.filesystem pf.path).run s).result = .ok vfPaths)
    (hcount : (vfPaths.length : Int) = cfg.numVFs) :
    pfPlan cfg pf ++ plan = (pf.path :: vfPaths).map (·, cfg.pfNUMANode) := by
  rw [pfPlan, if_pos hnode]
  rcases vfPlan_cases h hlist with ⟨hidle, rfl⟩ | ⟨-, rfl⟩ | ⟨hneg, -⟩
  · -- either way out early means that there are no VFs
    obtain rfl : vfPaths = [] := List.length_eq_zero_iff.mp (by omega)
    rfl
  · rfl
  · omega

/-- With no node given, the listed nodes are dealt out to the VFs. -/
theorem plan_balanced (hneg : cfg.pfNUMANode < 0) (h : vfPlan fs size cfg pf s = some plan)
    (hlist : ((listVFPaths fs.filesystem pf.path).run s).result = .ok vfPaths)
    (hcount : (vfPaths.length : Int) = cfg.numVFs) (hpos : 0 < cfg.numVFs) {nodes : List Int}
    (hnodes : ((listNUMANodes fs.filesystem size cfg.sysfsRoot).run s).result = .ok nodes)
    (hne : nodes ≠ []) :
    pfPlan cfg pf ++ plan = balancePlan nodes hne 0 vfPaths := by
  rw [pfPlan, if_neg (not_le.mpr hneg), List.nil_append]
  rcases vfPlan_cases h hlist with
    ⟨hidle, -⟩ | ⟨hnode, -⟩ | ⟨-, _, hnodes', ⟨hempty, -⟩ | ⟨_, rfl⟩⟩
  · omega
  · omega
  · obtain rfl := Except.ok.inj (hnodes.symm.trans hnodes')
    exact absurd hempty hne
  · obtain rfl := Except.ok.inj (hnodes.symm.trans hnodes')
    rfl

/-- To deal out nodes, they must have been listed. -/
theorem vfPlan_nodes (hneg : cfg.pfNUMANode < 0) (h : vfPlan fs size cfg pf s = some plan)
    (hlist : ((listVFPaths fs.filesystem pf.path).run s).result = .ok vfPaths)
    (hcount : (vfPaths.length : Int) = cfg.numVFs) (hpos : 0 < cfg.numVFs) :
    ∃ nodes, ((listNUMANodes fs.filesystem size cfg.sysfsRoot).run s).result = .ok nodes := by
  rcases vfPlan_cases h hlist with ⟨hidle, -⟩ | ⟨hnode, -⟩ | ⟨-, nodes, hnodes, -⟩
  · omega
  · omega
  · exact ⟨nodes, hnodes⟩

theorem map_fst_balancePlan (nodes : List Int) (hnodes : nodes ≠ []) (idx : Nat)
    (vfPaths : List GoString) :
    (balancePlan nodes hnodes idx vfPaths).map Prod.fst = vfPaths := by
  rw [balancePlan, List.map_map]
  exact List.zipIdx_map_fst idx vfPaths

section

variable [DecidableEq φ] (hnuma : NumaFiles fs) {s' : State τ φ}
  {log : List (WriteCall (State τ φ))}

include hnuma

theorem assigns_pinned {dirs : List GoString} {node : Int}
    (h : Assigns fs (dirs.map (·, node)) s s' log) {dir : GoString} (hdir : dir ∈ dirs) :
    numaNode fs s' dir = some node := by
  have hmem : dir ∈ (dirs.map (·, node)).map Prod.fst := by simpa using hdir
  obtain ⟨step, hstep, hvalue⟩ := assigns_numaNode hnuma h hmem
  obtain ⟨_, -, rfl⟩ := List.mem_map.mp hstep
  exact hvalue

theorem assigns_balanced {nodes : List Int} {hnodes : nodes ≠ []} {idx : Nat}
    (h : Assigns fs (balancePlan nodes hnodes idx vfPaths) s s' log) {vfPath : GoString}
    (hvf : vfPath ∈ vfPaths) : ∃ node ∈ nodes, numaNode fs s' vfPath = some node := by
  have hmem : vfPath ∈ (balancePlan nodes hnodes idx vfPaths).map Prod.fst := by
    rwa [map_fst_balancePlan]
  obtain ⟨step, hstep, hvalue⟩ := assigns_numaNode hnuma h hmem
  obtain ⟨vf, -, rfl⟩ := List.mem_map.mp hstep
  exact ⟨_, List.get_mem _ _, hvalue⟩

end

/-- A plan is for the PF, if a node was given, and for the VFs. -/
theorem plan_dirs (h : vfPlan fs size cfg pf s = some plan)
    (hlist : ((listVFPaths fs.filesystem pf.path).run s).result = .ok vfPaths)
    {dir : GoString} (hdir : dir ∈ (pfPlan cfg pf ++ plan).map Prod.fst) :
    (0 ≤ cfg.pfNUMANode ∧ dir = pf.path) ∨ dir ∈ vfPaths := by
  rw [List.map_append, List.mem_append] at hdir
  rcases hdir with hdir | hdir
  · rw [pfPlan] at hdir
    split at hdir
    next hnode => exact Or.inl ⟨hnode, by simpa using hdir⟩
    next => simp at hdir
  · refine Or.inr ?_
    rcases vfPlan_cases h hlist with
      ⟨-, rfl⟩ | ⟨-, rfl⟩ | ⟨-, nodes, -, ⟨-, rfl⟩ | ⟨hnodes, rfl⟩⟩
    · simp at hdir
    · simpa using hdir
    · simp at hdir
    · rwa [map_fst_balancePlan] at hdir

end

end DraEnv.Sriovvf
