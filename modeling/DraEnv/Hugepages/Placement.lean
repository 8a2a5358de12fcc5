import DraEnv.Hugepages.Provision

/-!
Whether the node a group asks for is honoured.

The API says that the pages of a group go to its `Node`, and are spread
equally over the nodes when no node is given. The code decides between
the two by the number of zones of the machine: with one zone it writes
to the picked node, with more it spreads every group, whatever its
`Node`. So the documented meaning holds of a run exactly on machines with
one zone, or when no group asks for a node.
-/

namespace DraEnv.Hugepages

open DraEnv.GoStd

/-- The calls a list of writes stands for: the file and the text put there. -/
def performed (sysRoot : GoString) (writes : List Write) : List (GoString × GoString) :=
  writes.map fun w => (w.hpPath sysRoot, w.text)

/-- The documented meaning of `Node`: a group with a node is written there and
nowhere else, its full count in one write. -/
def NodeHonoured (host : Host) (sysRoot : GoString) (conf : HugePage) (writes : List Write) :
    Prop :=
  ∀ node, conf.node = some node → ∃ hpSize, validateHugePageSize host.arch conf.size = .ok hpSize ∧
    performed sysRoot writes =
      [(nrHugepages sysRoot node.toInt hpSize, itoa conf.count.toInt)]

theorem spread_length {numaNodeCount : Int} (h : 1 ≤ numaNodeCount) (hpCount : Int) :
    ((spread numaNodeCount hpCount).length : Int) = numaNodeCount := by
  simp only [spread, List.length_cons, List.length_map, List.length_range]
  omega

/-- With several zones a group is written to every one of them. -/
theorem placement_length {numaZones : Int} (h : 1 ≤ numaZones) (conf : HugePage) :
    ((placement numaZones conf).length : Int) = numaZones := by
  unfold placement
  split
  · next hone => simp [hone]
  · exact spread_length h _

theorem placement_one {conf : HugePage} {node : Int32} (hnode : conf.node = some node) :
    placement 1 conf = [(node.toInt, conf.count.toInt)] := by
  simp [placement, pickNode, hnode]

theorem nodeHonoured_iff (host : Host) (hpp : HugePageProvision) (sysRoot : GoString)
    (numaZones : Int) (hzones : 1 ≤ numaZones) (trace : Trace)
    (hrun : runtimeHugepages host hpp sysRoot numaZones = (.returned none, trace)) :
    (∀ entry ∈ trace, NodeHonoured host sysRoot entry.1 entry.2) ↔
      numaZones = 1 ∨ ∀ conf ∈ hpp.spec.pages, conf.node = none := by
  obtain ⟨hpages, hentries⟩ := runtimeHugepages_ok hrun
  rw [← hpages, List.forall_mem_map]
  constructor
  · intro hhonoured
    by_contra! hneither
    obtain ⟨hmany, entry, hentry, hset⟩ := hneither
    obtain ⟨node, hnode⟩ := Option.ne_none_iff_exists'.mp hset
    -- the group was written to every node, and honouring it takes one write
    obtain ⟨hpSize, -, hwrites⟩ := hentries entry hentry
    obtain ⟨_, -, hone⟩ := hhonoured entry hentry node hnode
    have hlength := congrArg List.length hone
    rw [performed, List.length_map, hwrites, List.length_map, List.length_singleton] at hlength
    have := placement_length hzones entry.1
    omega
  · rintro (rfl | hunset) entry hentry node hnode
    · obtain ⟨hpSize, hsize, hwrites⟩ := hentries entry hentry
      refine ⟨hpSize, hsize, ?_⟩
      rw [hwrites, placement_one hnode]
      rfl
    · rw [hunset entry hentry] at hnode
      exact absurd hnode (by simp)

/-- Ten pages of 2M for node 1. -/
def pinnedGroup : HugePage := ⟨lit "2M", 10, some 1⟩

theorem nodeHonoured_iff_oneZone :
    runtimeHugepages .reliable ⟨⟨[pinnedGroup]⟩⟩ (lit "/") 1 =
        (.returned none, [(pinnedGroup, [⟨1, lit "2048kB", 10⟩])]) ∧
      ∀ entry ∈ [(pinnedGroup, [(⟨1, lit "2048kB", 10⟩ : Write)])],
        NodeHonoured .reliable (lit "/") entry.1 entry.2 := by
  have hrun : runtimeHugepages .reliable ⟨⟨[pinnedGroup]⟩⟩ (lit "/") 1 =
      (.returned none, [(pinnedGroup, [⟨1, lit "2048kB", 10⟩])]) := rfl
  exact ⟨hrun, (nodeHonoured_iff _ _ _ 1 (by decide) _ hrun).mpr (Or.inl rfl)⟩

/-- With two zones the group is split, half of it on a node it did not ask for. -/
theorem nodeHonoured_twoZones_fails :
    runtimeHugepages .reliable ⟨⟨[pinnedGroup]⟩⟩ (lit "/") 2 =
        (.returned none,
          [(pinnedGroup, [⟨0, lit "2048kB", 5⟩, ⟨1, lit "2048kB", 5⟩])]) ∧
      ¬ NodeHonoured .reliable (lit "/") pinnedGroup
        [⟨0, lit "2048kB", 5⟩, ⟨1, lit "2048kB", 5⟩] := by
  refine ⟨rfl, fun hhonoured => ?_⟩
  obtain ⟨_, -, hone⟩ := hhonoured 1 rfl
  exact absurd (congrArg List.length hone) (by simp [performed])

end DraEnv.Hugepages
