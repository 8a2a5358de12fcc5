import DraEnv.Dramachine.Mutators

/-!
The rewriter reaches its goals and stays there.

Each mutator establishes a goal of its own. For the two that follow the
common pattern the proof is the shape of the code: `setUnless`
establishes that an attribute has a value, and `withChild` carries a goal
of the child to a goal of the parent. What is left is that no later
mutator spoils an earlier goal, and that is a matter of tags: a mutator
touches the children with one tag, and searches for another tag do not
see it.
-/

namespace DraEnv.Dramachine

open DraEnv.Foundation DraEnv.PyStd

/-! ### The pattern -/

/-- An edit that does not rename its element. -/
def KeepsTag (k : Edit Element) : Prop := ∀ e, (k e).1.tag = e.tag

theorem setUnless_keepsTag (key value : PyStr) : KeepsTag (setUnless key value) := by
  intro e
  simp only [setUnless]
  split <;> rfl

theorem KeepsTag.andThen {k₁ k₂ : Edit Element} (h₁ : KeepsTag k₁) (h₂ : KeepsTag k₂) :
    KeepsTag (andThen k₁ k₂) := fun e => (h₂ _).trans (h₁ e)

theorem withChild_keepsTag (tag : PyStr) (k : Edit Element) : KeepsTag (withChild tag k) :=
  fun e => e.tag_atChild

theorem get_withChild (tag : PyStr) (k : Edit Element) (e : Element) (key : PyStr) :
    (withChild tag k e).1.get key = e.get key := e.get_atChild key

theorem get_setUnless_of_ne {key key' : PyStr} (value : PyStr) (e : Element) (h : key' ≠ key) :
    (setUnless key value e).1.get key' = e.get key' := by
  simp only [setUnless]
  split
  · exact e.get_set_of_ne value h
  · rfl

/-- The child `withChild` leaves in place is the edited one. -/
theorem find_withChild {tag : PyStr} {k : Edit Element} (hk : KeepsTag k) (e : Element) :
    (withChild tag k e).1.find tag = some (k ((e.find tag).getD (Element.new tag))).1 := by
  cases h : e.find tag with
  | some child => exact Element.find_atChild_of_some (fun _ c => hk c) h
  | none => exact Element.find_atChild_of_none (fun _ c => hk c) h

theorem findall_withChild_of_ne {tag tag' : PyStr} {k : Edit Element} (hk : KeepsTag k)
    (e : Element) (hne : tag' ≠ tag) : (withChild tag k e).1.findall tag' = e.findall tag' :=
  e.findall_atChild_of_ne (fun _ c => hk c) hne

theorem find_withChild_of_ne {tag tag' : PyStr} {k : Edit Element} (hk : KeepsTag k)
    (e : Element) (hne : tag' ≠ tag) : (withChild tag k e).1.find tag' = e.find tag' :=
  e.find_atChild_of_ne (fun _ c => hk c) hne

theorem setUnless_establishes (key value : PyStr) :
    Establishes (setUnless key value) (fun e => e.get key = some value) where
  reaches e := by
    simp only [setUnless]
    split
    · exact e.get_set_self key value
    · rename_i h
      exact not_not.mp h
  keeps e h := if_neg (not_not.mpr h)
  flags e h := by rw [setUnless, if_pos h]

/-- The goal of a child, as a goal of its parent. -/
def HasChild (tag : PyStr) (goal : Element → Prop) (e : Element) : Prop :=
  ∃ child, e.find tag = some child ∧ goal child

theorem withChild_establishes {k : Edit Element} {goal : Element → Prop} (tag : PyStr)
    (hk : KeepsTag k) (h : Establishes k goal) :
    Establishes (withChild tag k) (HasChild tag goal) where
  reaches e := ⟨_, find_withChild hk e, h.reaches _⟩
  keeps e := by
    rintro ⟨child, hchild, hgoal⟩
    simp only [withChild, Element.atChild, hchild, h.keeps child hgoal, Bool.or_self]
    rw [Element.updateChild_eq_self hchild rfl]
  flags e hgoal := by
    cases hfind : e.find tag with
    | none => simp only [withChild, Element.atChild, hfind, Bool.true_or]
    | some child =>
        have hchild : ¬ goal child := fun hc => hgoal ⟨child, hfind, hc⟩
        simp only [withChild, Element.atChild, hfind, h.flags child hchild, Bool.or_true]

/-! ### The goals -/

/-- The first `os/type`, if any, names a q35 machine. -/
def MachineGoal (root : Element) : Prop :=
  ∀ typeElem, root.findPath (py "os") (py "type") = some typeElem →
    ∃ machine, typeElem.get (py "machine") = some machine ∧ py "q35" <:+: machine

/-- The first ioapic of the first features has the driver `qemu`. -/
def IoapicGoal : Element → Prop :=
  HasChild (py "features") <| HasChild (py "ioapic") fun ioapic =>
    ioapic.get (py "driver") = some (py "qemu")

/-- The first iommu of the first devices is an `intel` one, and its first driver
has both settings on. -/
def IommuGoal : Element → Prop :=
  HasChild (py "devices") <| HasChild (py "iommu") fun iommu =>
    iommu.get (py "model") = some (py "intel") ∧
      HasChild (py "driver") (fun driver =>
        driver.get (py "intremap") = some (py "on") ∧ driver.get (py "iotlb") = some (py "on"))
        iommu

/-- The first devices hold an igb interface. -/
def IgbGoal : Element → Prop :=
  HasChild (py "devices") fun devices => (devices.findall (py "interface")).any isIgb = true

theorem ensureIoapic_establishes : Establishes ensureIoapic IoapicGoal :=
  withChild_establishes _ (withChild_keepsTag _ _) <|
    withChild_establishes _ (setUnless_keepsTag _ _) (setUnless_establishes _ _)

theorem driverSettings_establishes :
    Establishes (andThen (setUnless (py "intremap") (py "on")) (setUnless (py "iotlb") (py "on")))
      (fun driver =>
        driver.get (py "intremap") = some (py "on") ∧
          driver.get (py "iotlb") = some (py "on")) := by
  refine (setUnless_establishes _ _).andThen (setUnless_establishes _ _) fun driver h => ?_
  rwa [get_setUnless_of_ne _ driver (by decide)]

theorem ensureIommu_establishes : Establishes ensureIommu IommuGoal := by
  have hdriver := withChild_establishes (py "driver")
    ((setUnless_keepsTag (py "intremap") (py "on")).andThen
      (setUnless_keepsTag (py "iotlb") (py "on")))
    driverSettings_establishes
  refine withChild_establishes _ (withChild_keepsTag _ _) <|
    withChild_establishes _ ((setUnless_keepsTag _ _).andThen (withChild_keepsTag _ _)) <|
      (setUnless_establishes _ _).andThen hdriver fun iommu h => ?_
  rwa [get_withChild]

theorem q35_in_newMachine (currentMachine : PyStr) : py "q35" <:+: newMachine currentMachine := by
  rw [newMachine]
  split
  · rename_i versionSuffix _
    exact ⟨py "pc-", versionSuffix, rfl⟩
  · exact List.infix_rfl

/-- What `ensure_machine_type` does, by what it finds. The new name never equals
one without `q35`, so its last test always passes. -/
theorem ensureMachineType_cases (root : Element) :
    (MachineGoal root ∧ ensureMachineType root = (root, false)) ∨
      ∃ typeElem machine, root.findPath (py "os") (py "type") = some typeElem ∧
        ¬ MachineGoal root ∧ py "q35" <:+: machine ∧
        ensureMachineType root =
          (root.updatePath (py "os") (py "type") fun e => e.set (py "machine") machine, true) := by
  cases hfind : root.findPath (py "os") (py "type") with
  | none =>
      refine Or.inl ⟨fun typeElem h => ?_, by simp only [ensureMachineType, hfind]⟩
      rw [hfind] at h
      simp at h
  | some typeElem =>
      set currentMachine := (typeElem.get (py "machine")).getD [] with hcurrent
      by_cases hq35 : contains (py "q35") currentMachine = true
      · refine Or.inl ⟨fun typeElem' h => ?_, ?_⟩
        · obtain rfl : typeElem = typeElem' := Option.some.inj (hfind.symm.trans h)
          rw [contains, decide_eq_true_iff] at hq35
          cases hget : typeElem.get (py "machine") with
          | none => simp [hcurrent, hget] at hq35
          | some machine => exact ⟨machine, rfl, by simpa [hcurrent, hget] using hq35⟩
        · simp only [ensureMachineType, hfind, ← hcurrent, hq35, if_true]
      · have hne : newMachine currentMachine ≠ currentMachine := by
          intro heq
          apply hq35
          rw [contains, decide_eq_true_iff, ← heq]
          exact q35_in_newMachine currentMachine
        refine Or.inr ⟨typeElem, newMachine currentMachine, rfl, fun hgoal => ?_,
          q35_in_newMachine _, ?_⟩
        · obtain ⟨machine, hget, hmachine⟩ := hgoal typeElem hfind
          apply hq35
          rw [contains, decide_eq_true_iff, hcurrent, hget]
          exact hmachine
        · simp only [ensureMachineType, hfind, ← hcurrent]
          rw [if_neg hq35, if_pos hne]

theorem ensureMachineType_establishes : Establishes ensureMachineType MachineGoal where
  reaches root := by
    rcases ensureMachineType_cases root with ⟨hgoal, heq⟩ |
      ⟨typeElem, machine, hfind, -, hq35, heq⟩
    · rw [heq]
      exact hgoal
    · rw [heq]
      intro typeElem' hafter
      rw [Element.findPath_updatePath hfind rfl, Option.some.injEq] at hafter
      exact ⟨machine, hafter ▸ typeElem.get_set_self _ _, hq35⟩
  keeps root hgoal := by
    rcases ensureMachineType_cases root with ⟨-, heq⟩ | ⟨-, -, -, hnot, -⟩
    · exact heq
    · exact absurd hgoal hnot
  flags root hgoal := by
    rcases ensureMachineType_cases root with ⟨h, -⟩ | ⟨_, _, -, -, -, heq⟩
    · exact absurd h hgoal
    · rw [heq]

/-- The flag the last mutator does not return makes no difference: where the
devices had to be created there is no interface to be found. -/
theorem ensureIgbInterface_eq : ensureIgbInterface = withChild (py "devices") addIgb := by
  funext root
  cases h : root.find (py "devices") with
  | some devices =>
      simp only [ensureIgbInterface, withChild, Element.atChild, h, Bool.false_or]
  | none =>
      simp only [ensureIgbInterface, withChild, Element.atChild, h, Bool.true_or]
      rfl

theorem addIgb_keepsTag : KeepsTag addIgb := by
  intro devices
  rw [addIgb]
  split <;> rfl

theorem findall_addIgb (devices : Element) :
    (addIgb devices).1.findall (py "interface") =
      if (devices.findall (py "interface")).any isIgb then devices.findall (py "interface")
      else devices.findall (py "interface") ++ [newInterface] := by
  have hnew : newInterface.hasTag (py "interface") = true := by decide
  rw [addIgb]
  split
  · rfl
  · rw [Element.findall_append, hnew, if_pos rfl]

theorem isIgb_newInterface : isIgb newInterface = true := by decide

theorem addIgb_establishes :
    Establishes addIgb (fun devices => (devices.findall (py "interface")).any isIgb = true) where
  reaches devices := by
    rw [findall_addIgb]
    split
    · assumption
    · rw [List.any_append, List.any_cons, isIgb_newInterface, Bool.true_or, Bool.or_true]
  keeps devices h := by rw [addIgb, if_pos h]
  flags devices h := by rw [addIgb, if_neg h]

theorem ensureIgbInterface_establishes : Establishes ensureIgbInterface IgbGoal := by
  rw [ensureIgbInterface_eq]
  exact withChild_establishes _ addIgb_keepsTag addIgb_establishes

/-! ### No mutator spoils another's goal -/

theorem MachineGoal.congr {root root' : Element} (h : MachineGoal root)
    (hos : root'.findall (py "os") = root.findall (py "os")) : MachineGoal root' := by
  intro typeElem hfind
  rw [Element.findPath_congr hos] at hfind
  exact h typeElem hfind

/-- An edit of the children with one tag keeps every goal about the first child
with another. -/
theorem HasChild.withChild_of_ne {tag tag' : PyStr} {k : Edit Element} {goal : Element → Prop}
    {e : Element} (h : HasChild tag' goal e) (hk : KeepsTag k) (hne : tag' ≠ tag) :
    HasChild tag' goal (withChild tag k e).1 := by
  obtain ⟨child, hchild, hgoal⟩ := h
  exact ⟨child, (find_withChild_of_ne hk e hne).trans hchild, hgoal⟩

theorem HasChild.withChild {tag : PyStr} {k : Edit Element} {goal : Element → Prop}
    {e : Element} (h : HasChild tag goal e) (hk : KeepsTag k)
    (hgoal : ∀ child, goal child → goal (k child).1) :
    HasChild tag goal (withChild tag k e).1 := by
  obtain ⟨child, hchild, hc⟩ := h
  refine ⟨_, find_withChild hk e, ?_⟩
  rw [hchild, Option.getD_some]
  exact hgoal child hc

theorem HasChild.addIgb {tag : PyStr} {goal : Element → Prop} {devices : Element}
    (h : HasChild tag goal devices) : HasChild tag goal (addIgb devices).1 := by
  obtain ⟨child, hchild, hgoal⟩ := h
  refine ⟨child, ?_, hgoal⟩
  rw [Dramachine.addIgb]
  split
  · exact hchild
  · rw [Element.find] at hchild
    rw [Element.find, Element.append, List.find?_append, hchild, Option.some_or]

theorem mutate_establishes :
    Establishes mutate (fun root =>
      ((MachineGoal root ∧ IoapicGoal root) ∧ IommuGoal root) ∧ IgbGoal root) := by
  refine ((ensureMachineType_establishes.andThen ensureIoapic_establishes ?_).andThen
    ensureIommu_establishes ?_).andThen ensureIgbInterface_establishes ?_
  · intro root h
    exact h.congr (findall_withChild_of_ne (withChild_keepsTag _ _) root (by decide))
  · rintro root ⟨hmachine, hioapic⟩
    exact ⟨hmachine.congr (findall_withChild_of_ne (withChild_keepsTag _ _) root (by decide)),
      hioapic.withChild_of_ne (withChild_keepsTag _ _) (by decide)⟩
  · rintro root ⟨⟨hmachine, hioapic⟩, hiommu⟩
    rw [ensureIgbInterface_eq]
    exact ⟨⟨hmachine.congr (findall_withChild_of_ne addIgb_keepsTag root (by decide)),
      hioapic.withChild_of_ne addIgb_keepsTag (by decide)⟩,
      hiommu.withChild addIgb_keepsTag fun _ => HasChild.addIgb⟩

/-! ### Counting the igb interfaces -/

/-- The igb interfaces of the first devices. -/
def igbInterfaces (root : Element) : List Element :=
  match root.find (py "devices") with
  | none => []
  | some devices => (devices.findall (py "interface")).filter isIgb

theorem igbInterfaces_congr {root root' : Element}
    (h : root'.find (py "devices") = root.find (py "devices")) :
    igbInterfaces root' = igbInterfaces root := by
  rw [igbInterfaces, igbInterfaces, h]

/-- An edit of the devices shows in the interfaces it leaves. -/
theorem igbInterfaces_withChild {k : Edit Element} (hk : KeepsTag k) (root : Element) :
    igbInterfaces (withChild (py "devices") k root).1 =
      ((k ((root.find (py "devices")).getD (Element.new (py "devices")))).1.findall
        (py "interface")).filter isIgb := by
  rw [igbInterfaces, find_withChild hk]

theorem igbInterfaces_getD (root : Element) :
    igbInterfaces root =
      (((root.find (py "devices")).getD (Element.new (py "devices"))).findall
        (py "interface")).filter isIgb := by
  rw [igbInterfaces]
  cases root.find (py "devices") with
  | none => rfl
  | some devices => rfl

theorem igbInterfaces_ensureIommu (root : Element) :
    igbInterfaces (ensureIommu root).1 = igbInterfaces root := by
  rw [ensureIommu, igbInterfaces_withChild (withChild_keepsTag _ _), igbInterfaces_getD,
    findall_withChild_of_ne ((setUnless_keepsTag _ _).andThen (withChild_keepsTag _ _)) _
      (by decide)]

theorem filter_isIgb_addIgb (devices : Element) :
    (((addIgb devices).1.findall (py "interface")).filter isIgb).length =
      max 1 ((devices.findall (py "interface")).filter isIgb).length := by
  rw [findall_addIgb]
  cases hany : (devices.findall (py "interface")).any isIgb with
  | true =>
      obtain ⟨interface, hmem, higb⟩ := List.any_eq_true.mp hany
      have hpos := List.length_pos_of_mem (List.mem_filter.mpr ⟨hmem, higb⟩)
      rw [if_pos rfl, Nat.max_eq_right hpos]
  | false =>
      have hnone : (devices.findall (py "interface")).filter isIgb = [] := by
        rw [List.filter_eq_nil_iff]
        exact List.any_eq_false.mp hany
      simp [hnone, isIgb_newInterface]

theorem find_ensureMachineType (root : Element) {tag : PyStr} (hne : tag ≠ py "os") :
    (ensureMachineType root).1.find tag = root.find tag := by
  rcases ensureMachineType_cases root with ⟨-, heq⟩ | ⟨_, _, -, -, -, heq⟩
  · rw [heq]
  · rw [heq, Element.find_eq_head?, Element.find_eq_head?,
      Element.findall_updatePath_of_ne root hne]

theorem igbInterfaces_mutate (root : Element) :
    (igbInterfaces (mutate root).1).length = max 1 (igbInterfaces root).length := by
  have hmachine : igbInterfaces (ensureMachineType root).1 = igbInterfaces root :=
    igbInterfaces_congr (find_ensureMachineType root (by decide))
  have hioapic : ∀ e, igbInterfaces (ensureIoapic e).1 = igbInterfaces e := fun e =>
    igbInterfaces_congr (find_withChild_of_ne (withChild_keepsTag _ _) e (by decide))
  simp only [mutate, andThen]
  rw [ensureIgbInterface_eq, igbInterfaces_withChild addIgb_keepsTag, filter_isIgb_addIgb,
    ← igbInterfaces_getD, igbInterfaces_ensureIommu, hioapic, hmachine]

/-! ### The stream -/

theorem find_mutate (root : Element) {tag : PyStr} (hos : tag ≠ py "os")
    (hfeatures : tag ≠ py "features") (hdevices : tag ≠ py "devices") :
    (mutate root).1.find tag = root.find tag := by
  simp only [mutate, andThen]
  rw [ensureIgbInterface_eq, find_withChild_of_ne addIgb_keepsTag _ hdevices, ensureIommu,
    find_withChild_of_ne (withChild_keepsTag _ _) _ hdevices, ensureIoapic,
    find_withChild_of_ne (withChild_keepsTag _ _) _ hfeatures, find_ensureMachineType root hos]

theorem isWorker_mutate (root : Element) : isWorker (mutate root).1 = isWorker root := by
  rw [isWorker, isWorker, find_mutate root (by decide) (by decide) (by decide)]

theorem XmlCodec.ne_nil_of_parsed (et : XmlCodec) {data : PyBytes} {root : Element}
    (hparse : et.fromstring data = .ok root) : data ≠ [] := by
  rintro rfl
  rw [et.fromstring_nil] at hparse
  simp at hparse

/-- A stream whose tree is a fixed point is printed as it came. -/
theorem processXmlStream_of_settled {et : XmlCodec} {data : PyBytes} {root : Element}
    (hparse : et.fromstring data = .ok root) (hsettled : mutate root = (root, false)) :
    processXmlStream et data = ⟨0, data, []⟩ := by
  rw [processXmlStream]
  split
  · rename_i hnil
    rw [hnil]
  · simp only [hparse, hsettled]
    split <;> rfl

/-- What is printed for a worker parses to the mutated tree. -/
theorem fromstring_processXmlStream {et : XmlCodec} {data text : PyBytes} {root : Element}
    (hworker : isWorker root = true) (hparse : et.fromstring data = .ok root)
    (hwrite : et.write (mutate root).1 = .ok text)
    (hreparse : et.fromstring text = .ok (mutate root).1) :
    et.fromstring (processXmlStream et data).stdout = .ok (mutate root).1 := by
  rw [processXmlStream, if_neg (et.ne_nil_of_parsed hparse)]
  simp only [hparse, hworker, hwrite, if_true]
  cases hflag : (mutate root).2 with
  | true => exact hreparse
  | false =>
      have hsame : (mutate root).1 = root := by
        by_contra hchanged
        rw [(mutate_establishes.exact root).mpr hchanged] at hflag
        simp at hflag
      rw [hsame]
      exact hparse

/-- The rewriter on a worker domain. After the four mutators all goals hold
together, running them again changes nothing and says so, and the stream
processor prints its own output again for ever. -/
theorem rewriter_fixedPoint {root : Element} (hworker : isWorker root = true) :
    let root' := (mutate root).1
    (MachineGoal root' ∧ IoapicGoal root' ∧ IommuGoal root' ∧
      (igbInterfaces root').length = max 1 (igbInterfaces root).length) ∧
    (ensureMachineType root' = (root', false) ∧ ensureIoapic root' = (root', false) ∧
      ensureIommu root' = (root', false) ∧ ensureIgbInterface root' = (root', false)) ∧
    isWorker root' = true ∧
    ∀ (et : XmlCodec) (data text : PyBytes), et.fromstring data = .ok root →
      et.write root' = .ok text → et.fromstring text = .ok root' →
      let output := (processXmlStream et data).stdout
      et.fromstring output = .ok root' ∧ processXmlStream et output = ⟨0, output, []⟩ ∧
        ∀ n, (fun bytes => (processXmlStream et bytes).stdout)^[n] output = output := by
  intro root'
  obtain ⟨⟨⟨hmachine, hioapic⟩, hiommu⟩, higb⟩ := mutate_establishes.reaches root
  refine ⟨⟨hmachine, hioapic, hiommu, igbInterfaces_mutate root⟩,
    ⟨ensureMachineType_establishes.keeps _ hmachine, ensureIoapic_establishes.keeps _ hioapic,
      ensureIommu_establishes.keeps _ hiommu, ensureIgbInterface_establishes.keeps _ higb⟩,
    (isWorker_mutate root).trans hworker, ?_⟩
  intro et data text hparse hwrite hreparse output
  have houtput : et.fromstring output = .ok root' :=
    fromstring_processXmlStream hworker hparse hwrite hreparse
  have hagain : processXmlStream et output = ⟨0, output, []⟩ :=
    processXmlStream_of_settled houtput (mutate_establishes.settled root)
  refine ⟨houtput, hagain, fun n => ?_⟩
  exact Function.iterate_fixed (congrArg StreamResult.stdout hagain) n

/-- A worker with an i440fx machine and nothing else. -/
def workerDomain : Element :=
  { Element.new (py "domain") with
    children :=
      [{ Element.new (py "name") with text := some (py "minikube-m02") },
        (Element.new (py "os")).append
          { (Element.new (py "type")).set (py "machine") (py "pc-i440fx-7.1") with
            text := some (py "hvm") }] }

@[irreducible] def workerXml : PyBytes :=
  utf8 "<domain>" ++ (utf8 "<name>minikube-m02</name>" ++
    (utf8 "<os><type machine=\"pc-i440fx-7.1\">hvm</type></os>" ++ utf8 "</domain>"))

@[irreducible] def rewrittenXml : PyBytes :=
  utf8 "<?xml version='1.0' encoding='UTF-8'?>\n" ++ (utf8 "<domain><name>minikube-m02</name>" ++
    (utf8 "<os><type machine=\"pc-q35-7.1\">hvm</type></os>" ++
    (utf8 "<features><ioapic driver=\"qemu\" /></features><devices>" ++
    (utf8 "<iommu model=\"intel\"><driver intremap=\"on\" iotlb=\"on\" /></iommu>" ++
    (utf8 "<interface type=\"network\"><source network=\"sriov-net\" />" ++
    utf8 "<model type=\"igb\" /></interface></devices></domain>")))))

theorem workerXml_ne_nil : workerXml ≠ [] := by decide +kernel

theorem rewrittenXml_ne_nil : rewrittenXml ≠ [] := by decide +kernel

theorem rewrittenXml_ne_workerXml : rewrittenXml ≠ workerXml := by decide +kernel

/-- The codec on the two documents of the worker. -/
def workerCodec : XmlCodec where
  fromstring data :=
    if data = workerXml then .ok workerDomain
    else if data = rewrittenXml then .ok (mutate workerDomain).1
    else .error .parseError
  write _ := .ok rewrittenXml
  fromstring_nil := by rw [if_neg workerXml_ne_nil.symm, if_neg rewrittenXml_ne_nil.symm]

theorem workerCodec_workerXml : workerCodec.fromstring workerXml = .ok workerDomain := by
  simp only [workerCodec, if_true]

theorem workerCodec_rewrittenXml :
    workerCodec.fromstring rewrittenXml = .ok (mutate workerDomain).1 := by
  simp only [workerCodec, rewrittenXml_ne_workerXml, if_false, if_true]

theorem rewriter_fixedPoint_worker :
    processXmlStream workerCodec workerXml = ⟨0, rewrittenXml, []⟩ ∧
      processXmlStream workerCodec rewrittenXml = ⟨0, rewrittenXml, []⟩ := by
  have hworker : isWorker workerDomain = true := by decide
  have hfirst : processXmlStream workerCodec workerXml = ⟨0, rewrittenXml, []⟩ := by
    have hflag : (mutate workerDomain).2 = true := by decide +kernel
    rw [processXmlStream, if_neg workerXml_ne_nil]
    simp only [workerCodec_workerXml, hworker, hflag, if_true]
    rfl
  obtain ⟨-, -, -, hstream⟩ := rewriter_fixedPoint hworker
  obtain ⟨-, hagain, -⟩ :=
    hstream workerCodec workerXml rewrittenXml workerCodec_workerXml rfl workerCodec_rewrittenXml
  rw [hfirst] at hagain
  exact ⟨hfirst, hagain⟩

end DraEnv.Dramachine
