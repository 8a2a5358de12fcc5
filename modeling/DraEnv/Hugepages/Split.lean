import DraEnv.Hugepages.Provision

/-!
Splitting one group over the nodes.

`provisionOnMultiNode` first computes what each node gets and then makes
one write a node. The second half knows nothing of the first: a list of
planned writes is performed in order until one fails (`perform`), and
what has been written then is a front of the plan (`perform_cases`).
The first half is arithmetic about Go's division, which rounds towards
zero: quotient and remainder have the sign of the count, and together
they give it back.
-/

namespace DraEnv.Hugepages

open DraEnv.GoStd

/-! ### Performing a plan -/

/-- The error of one write: opening the file or writing to it. -/
def failure (host : Host) (sysRoot : GoString) (history : List Write) (w : Write) :
    Option ProvisionError :=
  match host.openFile history (w.hpPath sysRoot) with
  | some err => some (.openFile err)
  | none => (host.writeString history (w.hpPath sysRoot) w.text).map
      (.writeString (w.hpPath sysRoot))

/-- Planned writes, in order, up to the first that fails. -/
def perform (host : Host) (sysRoot : GoString) : List Write → Procedure
  | [] => fun _ => (.returned none, [])
  | w :: plan => fun history =>
      match failure host sysRoot history w with
      | some err => (.returned (some err), [])
      | none =>
          let rest := perform host sysRoot plan (history ++ [w])
          (rest.1, w :: rest.2)

theorem perform_cons_of_failure {host : Host} {sysRoot : GoString} {history : List Write}
    {w : Write} {err : ProvisionError} (plan : List Write)
    (h : failure host sysRoot history w = some err) :
    perform host sysRoot (w :: plan) history = (.returned (some err), []) := by
  simp only [perform, h]

theorem perform_cons {host : Host} {sysRoot : GoString} {history : List Write} {w : Write}
    (plan : List Write) (h : failure host sysRoot history w = none) :
    perform host sysRoot (w :: plan) history =
      ((perform host sysRoot plan (history ++ [w])).1,
        w :: (perform host sysRoot plan (history ++ [w])).2) := by
  simp only [perform, h]

/-- Either the whole plan is carried out, or a front of it, and the write behind
that front is the one that failed. -/
theorem perform_cases (host : Host) (sysRoot : GoString) (plan history : List Write) :
    perform host sysRoot plan history = (.returned none, plan) ∨
      ∃ front w back err, plan = front ++ w :: back ∧
        failure host sysRoot (history ++ front) w = some err ∧
        perform host sysRoot plan history = (.returned (some err), front) := by
  induction plan generalizing history with
  | nil => exact Or.inl rfl
  | cons w plan ih =>
      cases hw : failure host sysRoot history w with
      | some err =>
          exact Or.inr ⟨[], w, plan, err, rfl, by simpa using hw, perform_cons_of_failure plan hw⟩
      | none =>
          rw [perform_cons plan hw]
          rcases ih (history ++ [w]) with hall | ⟨front, w', back, err, rfl, hfail, hrest⟩
          · exact Or.inl (by rw [hall])
          · refine Or.inr ⟨w :: front, w', back, err, rfl, ?_, by rw [hrest]⟩
            rwa [List.append_cons]

theorem perform_of_reliable {host : Host} {sysRoot : GoString}
    (h : ∀ history w, failure host sysRoot history w = none) (plan history : List Write) :
    perform host sysRoot plan history = (.returned none, plan) := by
  rcases perform_cases host sysRoot plan history with hall | ⟨front, w, _, err, _, hfail, _⟩
  · exact hall
  · rw [h] at hfail
    exact absurd hfail (by simp)

/-! ### The plan of the source -/

section Validated

variable {host : Host} {apiHpSize : HugePageSize} {sysRoot hpSize : GoString}

theorem provisionOnNode_eq (hsize : validateHugePageSize host.arch apiHpSize = .ok hpSize)
    (numaNode hpCount : Int) :
    provisionOnNode host numaNode hpCount apiHpSize sysRoot =
      perform host sysRoot [Write.to hpSize (numaNode, hpCount)] := by
  funext history
  simp only [provisionOnNode, hsize, perform, failure, Write.to]
  cases host.openFile history _ with
  | some err => rfl
  | none =>
      cases host.writeString history _ _ with
      | some err => rfl
      | none => rfl

theorem perform_andThen (w : Write) (plan : List Write) :
    Procedure.andThen (perform host sysRoot [w]) (perform host sysRoot plan) =
      perform host sysRoot (w :: plan) := by
  funext history
  cases hw : failure host sysRoot history w with
  | some err => simp only [Procedure.andThen, perform, hw]
  | none => simp only [Procedure.andThen, perform, hw, List.cons_append, List.nil_append]

theorem provisionFrom_eq (hsize : validateHugePageSize host.arch apiHpSize = .ok hpSize)
    (perNode : Int) (rest : Nat) (numaNode : Int) :
    provisionFrom host perNode apiHpSize sysRoot rest numaNode =
      perform host sysRoot
        (((List.range rest).map fun i : Nat => (numaNode + (i : Int), perNode)).map
          (Write.to hpSize)) := by
  induction rest generalizing numaNode with
  | zero => rfl
  | succ rest ih =>
      rw [provisionFrom, provisionOnNode_eq hsize, ih, perform_andThen, List.range_succ_eq_map]
      simp only [List.map_cons, List.map_map, Nat.cast_zero, add_zero]
      refine congrArg (fun plan => perform host sysRoot (_ :: plan)) (List.map_congr_left ?_)
      intro i _
      simp only [Function.comp_apply, Nat.cast_succ, add_assoc, add_comm (1 : Int)]

/-- With a supported size the code performs the spread of the count. -/
theorem provisionOnMultiNode_eq (hsize : validateHugePageSize host.arch apiHpSize = .ok hpSize)
    {numaNodeCount : Int} (hn : 1 ≤ numaNodeCount) (hpCount : Int) :
    provisionOnMultiNode host numaNodeCount hpCount apiHpSize sysRoot =
      perform host sysRoot ((spread numaNodeCount hpCount).map (Write.to hpSize)) := by
  rw [provisionOnMultiNode, if_neg (by omega)]
  simp only [provisionOnNode_eq hsize, provisionFrom_eq hsize]
  rw [perform_andThen, spread, List.map_cons]

end Validated

/-! ### The arithmetic -/

theorem spread_sum {numaNodeCount : Int} (h : 1 ≤ numaNodeCount) (hpCount : Int) :
    ((spread numaNodeCount hpCount).map Prod.snd).sum = hpCount := by
  have hrest : (((numaNodeCount - 1).toNat : Nat) : Int) = numaNodeCount - 1 := by omega
  have hdiv := Int.mul_tdiv_add_tmod hpCount numaNodeCount
  simp only [spread, List.map_cons, List.map_map, Function.comp_def, List.map_const',
    List.length_range, List.sum_cons, List.sum_replicate, nsmul_eq_mul, hrest]
  linarith

theorem spread_nodup (numaNodeCount hpCount : Int) :
    ((spread numaNodeCount hpCount).map Prod.fst).Nodup := by
  simp only [spread, List.map_cons, List.map_map, List.nodup_cons, List.mem_map,
    Function.comp_apply]
  refine ⟨by rintro ⟨i, -, hi⟩; omega, List.nodup_range.map fun i j hij => ?_⟩
  simpa using hij

/-- The nodes in the order they are written. -/
theorem spread_nodes {numaNodeCount : Int} (h : 1 ≤ numaNodeCount) (hpCount : Int) :
    (spread numaNodeCount hpCount).map Prod.fst =
      (List.range numaNodeCount.toNat).map fun i : Nat => (i : Int) := by
  have hcount : numaNodeCount.toNat = (numaNodeCount - 1).toNat + 1 := by omega
  rw [hcount, List.range_succ_eq_map]
  simp only [spread, List.map_cons, List.map_map, Nat.cast_zero]
  refine congrArg (0 :: ·) (List.map_congr_left fun i _ => ?_)
  simp only [Function.comp_apply, Nat.cast_succ]
  omega

/-- What node `0` gets on top of the others. -/
theorem spread_value {numaNodeCount : Int} {hpCount : Int} {target : Int × Int}
    (h : target ∈ spread numaNodeCount hpCount) :
    target.2 = hpCount.tdiv numaNodeCount +
      if target.1 = 0 then hpCount.tmod numaNodeCount else 0 := by
  rw [spread, List.mem_cons, List.mem_map] at h
  rcases h with rfl | ⟨i, -, rfl⟩
  · simp
  · rw [if_neg (by simp only; omega), add_zero]

theorem abs_tmod_lt {numaNodeCount : Int} (h : 1 ≤ numaNodeCount) (hpCount : Int) :
    |hpCount.tmod numaNodeCount| < numaNodeCount := by
  have hlt := Int.tmod_lt_of_pos hpCount (show 0 < numaNodeCount by omega)
  have hgt := Int.lt_tmod_of_pos hpCount (show 0 < numaNodeCount by omega)
  exact abs_lt.mpr ⟨hgt, hlt⟩

theorem spread_one (hpCount : Int) : spread 1 hpCount = [(0, hpCount)] := by
  simp [spread]

/-- With one node the split is the write of the single-node path. -/
theorem provisionOnMultiNode_one (host : Host) (hpCount : Int) (apiHpSize : HugePageSize)
    (sysRoot : GoString) :
    provisionOnMultiNode host 1 hpCount apiHpSize sysRoot =
      provisionOnNode host 0 hpCount apiHpSize sysRoot := by
  cases hsize : validateHugePageSize host.arch apiHpSize with
  | ok hpSize =>
      rw [provisionOnMultiNode_eq hsize le_rfl, provisionOnNode_eq hsize, spread_one]
      rfl
  | error err =>
      funext history
      simp [provisionOnMultiNode, Procedure.andThen, provisionOnNode, hsize]

/-- A size that is not supported stops the split before the first write. -/
theorem provisionOnMultiNode_invalid {host : Host} {apiHpSize : HugePageSize} {err : GoError}
    (hsize : validateHugePageSize host.arch apiHpSize = .error err) {numaNodeCount : Int}
    (hn : 1 ≤ numaNodeCount) (hpCount : Int) (sysRoot : GoString) (history : List Write) :
    provisionOnMultiNode host numaNodeCount hpCount apiHpSize sysRoot history =
      (.returned (some (.invalidSize err)), []) := by
  rw [provisionOnMultiNode, if_neg (by omega)]
  simp only [Procedure.andThen, provisionOnNode, hsize]

/-- The writes of a count that is split over `n` nodes: every node once, in order,
the same quotient for all but the first, and the whole count in the sum. -/
structure SplitsOver (n count : Int) (writes : List Write) : Prop where
  nodes : writes.map Write.numaNode = (List.range n.toNat).map fun i : Nat => (i : Int)
  sum : (writes.map Write.hpCount).sum = count
  others : ∀ w ∈ writes, w.numaNode ≠ 0 → w.hpCount = count.tdiv n
  first : ∀ w ∈ writes, w.numaNode = 0 → |w.hpCount - count.tdiv n| < n

theorem spread_splitsOver {n : Int} (hn : 1 ≤ n) (count : Int) (hpSize : GoString) :
    SplitsOver n count ((spread n count).map (Write.to hpSize)) where
  nodes := by
    rw [List.map_map, ← spread_nodes hn count]
    rfl
  sum := by
    rw [List.map_map]
    exact spread_sum hn count
  others := by
    rw [List.forall_mem_map]
    intro target htarget hne
    have hvalue := spread_value htarget
    rwa [if_neg (show target.1 ≠ 0 from hne), add_zero] at hvalue
  first := by
    rw [List.forall_mem_map]
    intro target htarget hzero
    have hvalue := spread_value htarget
    rw [if_pos (show target.1 = 0 from hzero)] at hvalue
    have hextra : (Write.to hpSize target).hpCount - count.tdiv n = count.tmod n := by
      change target.2 - count.tdiv n = count.tmod n
      omega
    rw [hextra]
    exact abs_tmod_lt hn count

/-- A split of any count over any number of nodes. There is one plan of writes
that splits the count; the call makes them all, or a front of them when the
write behind that front fails. -/
theorem split_conserves (host : Host) (count : Int32) (apiHpSize : HugePageSize)
    (sysRoot : GoString) (n : Int) (hn : 1 ≤ n) (history : List Write) :
    (∀ hpSize, validateHugePageSize host.arch apiHpSize = .ok hpSize →
      ∃ plan : List Write, SplitsOver n count.toInt plan ∧ (∀ w ∈ plan, w.hpSize = hpSize) ∧
        (provisionOnMultiNode host n count.toInt apiHpSize sysRoot history =
            (.returned none, plan) ∨
          ∃ front w back err, plan = front ++ w :: back ∧
            failure host sysRoot (history ++ front) w = some err ∧
            provisionOnMultiNode host n count.toInt apiHpSize sysRoot history =
              (.returned (some err), front)) ∧
        ((∀ history w, failure host sysRoot history w = none) →
          provisionOnMultiNode host n count.toInt apiHpSize sysRoot history =
            (.returned none, plan))) ∧
    (∀ err, validateHugePageSize host.arch apiHpSize = .error err →
      provisionOnMultiNode host n count.toInt apiHpSize sysRoot history =
        (.returned (some (.invalidSize err)), [])) ∧
    provisionOnMultiNode host 1 count.toInt apiHpSize sysRoot =
      provisionGroup host ⟨apiHpSize, count, none⟩ sysRoot 1 := by
  refine ⟨fun hpSize hsize => ?_, fun err hsize => ?_, ?_⟩
  · rw [provisionOnMultiNode_eq hsize hn]
    refine ⟨(spread n count.toInt).map (Write.to hpSize), spread_splitsOver hn _ hpSize, ?_,
      perform_cases host sysRoot _ history, fun hreliable => perform_of_reliable hreliable _ _⟩
    rw [List.forall_mem_map]
    exact fun _ _ => rfl
  · exact provisionOnMultiNode_invalid hsize hn _ sysRoot history
  · rw [provisionOnMultiNode_one]
    rfl

/-- Ten pages less than none over three nodes: `-4`, `-3` and `-3`. -/
theorem split_conserves_negative :
    ∃ plan : List Write, SplitsOver 3 (-10) plan ∧
      provisionOnMultiNode .reliable 3 (-10) (lit "2M") (lit "/") [] = (.returned none, plan) := by
  obtain ⟨hok, -, -⟩ := split_conserves .reliable (-10) (lit "2M") (lit "/") 3 (by decide) []
  obtain ⟨plan, hsplits, -, -, hreliable⟩ := hok (lit "2048kB") (by decide)
  exact ⟨plan, hsplits, hreliable fun _ _ => rfl⟩

end DraEnv.Hugepages
