import DraEnv.Foundation.RoundRobin
import DraEnv.Sriovvf.Plan

/-!
Balancing the virtual functions over the nodes.

`balanceVFNUMA` deals the VFs out to the nodes in turn, so its plan is a
round robin deal and its loads are those of one. On any file system the
calls it makes follow the plan, up to the first write that fails.
-/

namespace DraEnv.Sriovvf

open DraEnv.Foundation DraEnv.GoStd Effect

variable {σ : Type}

/-- The write sets the node of the step. -/
structure Sets (step : GoString × Int) (w : WriteCall σ) : Prop where
  path : w.path = numaPath step.1
  data : w.data = intData step.2
  err : w.err = none

/-- The writes set the nodes of the plan, one by one. -/
def CarriedOut (plan : List (GoString × Int)) (log : List (WriteCall σ)) : Prop :=
  List.Forall₂ Sets plan log

/-- The run carries the plan out up to a step whose write fails. -/
def StopsIn (plan : List (GoString × Int)) (out : Outcome σ (WriteCall σ) (Except ToolError Unit)) :
    Prop :=
  ∃ before step after done last err, plan = before ++ step :: after ∧ out.log = done ++ [last] ∧
    CarriedOut before done ∧ last.path = numaPath step.1 ∧ last.data = intData step.2 ∧
    last.err = some err ∧ out.result = .error (.setVF step.1 step.2 (.fs err))

section

variable {nodes : List Int} {hnodes : nodes ≠ []}

theorem balancePlan_eq_deal (idx : Nat) (vfPaths : List GoString) :
    balancePlan nodes hnodes idx vfPaths = deal nodes hnodes idx vfPaths := rfl

theorem setVFNUMANode_cases (fs : Filesystem σ) (vfPath : GoString) (node : Int) (s : σ) :
    (∃ s' w, (setVFNUMANode fs vfPath node).run s = ⟨.ok (), s', [w]⟩ ∧ Sets (vfPath, node) w) ∨
      ∃ s' w err, (setVFNUMANode fs vfPath node).run s =
          ⟨.error (.setVF vfPath node (.fs err)), s', [w]⟩ ∧
        w.path = numaPath vfPath ∧ w.data = intData node ∧ w.err = some err := by
  rcases hwrite : fs.writeFile (numaPath vfPath) (intData node) s with ⟨_ | err, s'⟩
  · refine Or.inl ⟨s', ⟨s, numaPath vfPath, intData node, none⟩, ?_, rfl, rfl, rfl⟩
    simp [setVFNUMANode, mapError, writeIntToFile, hwrite, Except.mapError]
  · refine Or.inr ⟨s', ⟨s, numaPath vfPath, intData node, some err⟩, err, ?_, rfl, rfl, rfl⟩
    simp [setVFNUMANode, mapError, writeIntToFile, hwrite, Except.mapError]

/-- From any index on, the plan is carried out or the loop stops in it. -/
theorem balanceFrom_cases (fs : Filesystem σ) (hnodes : nodes ≠ []) (idx : Nat)
    (vfPaths : List GoString) (s : σ) :
    let out := (balanceFrom fs nodes hnodes idx vfPaths).run s
    (out.result = .ok () ∧ CarriedOut (balancePlan nodes hnodes idx vfPaths) out.log) ∨
      StopsIn (balancePlan nodes hnodes idx vfPaths) out := by
  induction vfPaths generalizing idx s with
  | nil => exact Or.inl ⟨rfl, .nil⟩
  | cons vfPath vfPaths ih =>
      have hplan : balancePlan nodes hnodes idx (vfPath :: vfPaths) =
          (vfPath, nodeAt nodes hnodes idx) :: balancePlan nodes hnodes (idx + 1) vfPaths := rfl
      rw [hplan, balanceFrom]
      rcases setVFNUMANode_cases fs vfPath (nodeAt nodes hnodes idx) s with
        ⟨s', w, hrun, hsets⟩ | ⟨s', w, err, hrun, hfailed⟩
      · rw [bind_ok hrun]
        rcases ih (idx + 1) s' with ⟨hresult, hlog⟩ |
          ⟨before, step, after, done, last, err, hsplit, hlog, hdone, hlast⟩
        · exact Or.inl ⟨hresult, .cons hsets hlog⟩
        · refine Or.inr ⟨_ :: before, step, after, w :: done, last, err, ?_, ?_,
            .cons hsets hdone, hlast⟩
          · rw [hsplit, List.cons_append]
          · dsimp only
            rw [hlog, List.singleton_append, List.cons_append]
      · rw [bind_error hrun]
        obtain ⟨hpath, hdata, herr⟩ := hfailed
        exact Or.inr ⟨[], _, _, [], w, err, rfl, rfl, .nil, hpath, hdata, herr, rfl⟩

theorem CarriedOut.err {plan : List (GoString × Int)} {log : List (WriteCall σ)}
    (h : CarriedOut plan log) : ∀ w ∈ log, w.err = none := by
  induction h with
  | nil => simp
  | cons hsets _ ih => exact List.forall_mem_cons.mpr ⟨hsets.err, ih⟩

theorem StopsIn.err {plan : List (GoString × Int)}
    {out : Outcome σ (WriteCall σ) (Except ToolError Unit)} (h : StopsIn plan out) :
    ∃ w ∈ out.log, w.err ≠ none := by
  obtain ⟨_, _, _, done, last, err, -, hlog, -, -, -, herr, -⟩ := h
  exact ⟨last, by simp [hlog], by simp [herr]⟩

/-- A VF has one node in the plan, and it is one of the nodes given. -/
theorem existsUnique_node {vfPaths : List GoString} (hvfPaths : vfPaths.Nodup) {vfPath : GoString}
    (hvf : vfPath ∈ vfPaths) :
    ∃! node, (vfPath, node) ∈ balancePlan nodes hnodes 0 vfPaths ∧ node ∈ nodes := by
  have hfst := map_fst_balancePlan nodes hnodes 0 vfPaths
  have hmem : vfPath ∈ (balancePlan nodes hnodes 0 vfPaths).map Prod.fst := by rwa [hfst]
  obtain ⟨⟨_, node⟩, hstep, rfl⟩ := List.mem_map.mp hmem
  obtain ⟨⟨_, idx⟩, -, heq⟩ := List.mem_map.mp hstep
  have hnode : node ∈ nodes := by
    rw [← (Prod.mk.inj heq).2]
    exact pick_mem hnodes idx
  refine ⟨node, ⟨hstep, hnode⟩, ?_⟩
  rintro other ⟨hother, -⟩
  rw [← hfst] at hvfPaths
  have hpair := List.inj_on_of_nodup_map hvfPaths hother hstep rfl
  exact (Prod.mk.inj hpair).2

end

/-- Where all writes succeed, each VF has got one of the nodes, the loads of the nodes add
up and differ by one at most, and the nodes with the larger load are in front. Where
one fails, the VFs before it have got the nodes they have in the same plan. -/
theorem balanceVFNUMA_balanced (fs : Filesystem σ) (vfPaths : List GoString) (nodes : List Int)
    (hvfPaths : vfPaths.Nodup) (hnodup : nodes.Nodup) (hnodes : nodes ≠ []) (s : σ) :
    let out := (balanceVFNUMA fs vfPaths nodes hnodes).run s
    let plan := balancePlan nodes hnodes 0 vfPaths
    ((∀ w ∈ out.log, w.err = none) → out.result = .ok () ∧ CarriedOut plan out.log) ∧
      ((∃ w ∈ out.log, w.err ≠ none) → StopsIn plan out) ∧
      plan.map Prod.fst = vfPaths ∧
      (∀ vfPath ∈ vfPaths, ∃! node, (vfPath, node) ∈ plan ∧ node ∈ nodes) ∧
      (nodes.map (load plan)).sum = vfPaths.length ∧
      (∀ a ∈ nodes, ∀ b ∈ nodes, load plan a ≤ load plan b + 1) ∧
      (∀ a ∈ nodes.take (vfPaths.length % nodes.length),
        load plan a = vfPaths.length / nodes.length + 1) ∧
      (∀ b ∈ nodes.drop (vfPaths.length % nodes.length),
        load plan b = vfPaths.length / nodes.length) := by
  intro out plan
  have hcases := balanceFrom_cases fs hnodes 0 vfPaths s
  refine ⟨fun hnone => ?_, ?_, map_fst_balancePlan nodes hnodes 0 vfPaths,
    fun vfPath hvf => existsUnique_node hvfPaths hvf, ?_⟩
  · rcases hcases with hcarried | hstops
    · exact hcarried
    · obtain ⟨w, hw, herr⟩ := hstops.err
      exact absurd (hnone w hw) herr
  · rintro ⟨w, hw, herr⟩
    rcases hcases with ⟨-, hcarried⟩ | hstops
    · exact absurd (hcarried.err w hw) herr
    · exact hstops
  · rw [show plan = deal nodes hnodes 0 vfPaths from balancePlan_eq_deal 0 vfPaths]
    exact ⟨sum_load hnodup, fun a ha b hb => load_le hnodup ha hb,
      fun a ha => load_front hnodup ha, fun b hb => load_back hnodup hb⟩

/-- A file system on which every write succeeds. -/
def acceptingFs : Filesystem Unit where
  stat _ s := (.error ⟨true, []⟩, s)
  readDir _ s := (.error ⟨true, []⟩, s)
  readFile _ s := (.error ⟨true, []⟩, s)
  evalSymlinks path s := (.ok path, s)
  writeFile _ _ s := (none, s)

/-- Three VFs over two nodes. -/
theorem balanceVFNUMA_balanced_three :
    let vfPaths := [lit "/vf0", lit "/vf1", lit "/vf2"]
    let plan := balancePlan [0, 1] (by decide) 0 vfPaths
    CarriedOut plan ((balanceVFNUMA acceptingFs vfPaths [0, 1] (by decide)).run ()).log ∧
      load plan 0 = 2 ∧ load plan 1 = 1 := by
  intro vfPaths plan
  obtain ⟨hcarried, -, -, -, -, -, hfront, hback⟩ :=
    balanceVFNUMA_balanced acceptingFs vfPaths [0, 1] (by decide) (by decide) (by decide) ()
  refine ⟨(hcarried ?_).2, (hfront 0 (by decide)).trans (by decide),
    (hback 1 (by decide)).trans (by decide)⟩
  decide

end DraEnv.Sriovvf
