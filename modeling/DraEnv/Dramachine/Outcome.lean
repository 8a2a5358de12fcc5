import DraEnv.Dramachine.FixedPoint

/-!
What the mutators report and what they promise.

Each mutator establishes a goal, so its flag is exact, and the four flags
together decide what the stream processor prints. One promise goes
further than the goal behind it: the last mutator says that it attaches
the domain to the SR-IOV network, but it looks for an igb interface on
any network and is content with the first it finds.
-/

namespace DraEnv.Dramachine

open DraEnv.Foundation DraEnv.PyStd

/-! ### Flags -/

/-- The tree is a fixed point of all four mutators. -/
def Settled (root : Element) : Prop :=
  (ensureMachineType root).1 = root ∧ (ensureIoapic root).1 = root ∧
    (ensureIommu root).1 = root ∧ (ensureIgbInterface root).1 = root

/-- The domain is named, and its name starts as those of the workers do. -/
def NamedWorker (root : Element) : Prop :=
  ∃ nameElem text, root.find (py "name") = some nameElem ∧ nameElem.text = some text ∧
    py "minikube-m" <+: text

theorem isWorker_iff (root : Element) : isWorker root = true ↔ NamedWorker root := by
  unfold isWorker NamedWorker
  cases root.find (py "name") with
  | none => simp
  | some nameElem =>
      cases htext : nameElem.text with
      | none => simp [htext]
      | some text => simp [htext]

/-- The four mutators in a row change nothing exactly where each of them does. -/
theorem mutate_eq_self_iff (root : Element) : (mutate root).1 = root ↔ Settled root := by
  rw [mutate_establishes.fixed_iff, Settled, ensureMachineType_establishes.fixed_iff,
    ensureIoapic_establishes.fixed_iff, ensureIommu_establishes.fixed_iff,
    ensureIgbInterface_establishes.fixed_iff, and_assoc, and_assoc]

/-- For a worker that is not settled the serialiser decides: its tree is printed,
or the exception is. -/
theorem processXmlStream_of_changed {et : XmlCodec} {data : PyBytes} {root : Element}
    (hparse : et.fromstring data = .ok root) (hworker : NamedWorker root)
    (hchanged : ¬ Settled root) :
    processXmlStream et data =
      match et.write (mutate root).1 with
      | .ok text => ⟨0, text, []⟩
      | .error (written, e) => ⟨1, written, (XmlError.exception e).message⟩ := by
  have hflag : (mutate root).2 = true := by
    rw [mutate_establishes.exact, Ne, mutate_eq_self_iff]
    exact hchanged
  rw [processXmlStream, if_neg (et.ne_nil_of_parsed hparse)]
  cases hwrite : et.write (mutate root).1 with
  | error err => simp [hparse, (isWorker_iff root).mpr hworker, hflag, hwrite]
  | ok text => simp [hparse, (isWorker_iff root).mpr hworker, hflag, hwrite]

/-- Any other domain is printed as it was read. -/
theorem processXmlStream_of_unchanged {et : XmlCodec} {data : PyBytes} {root : Element}
    (hparse : et.fromstring data = .ok root) (hunchanged : ¬ NamedWorker root ∨ Settled root) :
    processXmlStream et data = ⟨0, data, []⟩ := by
  rcases hunchanged with hother | hsettled
  · rw [processXmlStream, if_neg (et.ne_nil_of_parsed hparse)]
    simp only [hparse, (isWorker_iff root).not.mpr hother]
    rfl
  · refine processXmlStream_of_settled hparse (mutate_establishes.keeps root ?_)
    rwa [← mutate_establishes.fixed_iff, mutate_eq_self_iff]

/-- A changed tree is not printed as the input it came from. -/
theorem write_ne_input {et : XmlCodec} {data text : PyBytes} {root : Element}
    (hparse : et.fromstring data = .ok root)
    (hreparse : et.fromstring text = .ok (mutate root).1)
    (hchanged : (mutate root).1 ≠ root) : text ≠ data := by
  rintro rfl
  rw [hparse, Except.ok.injEq] at hreparse
  exact hchanged hreparse.symm

/-- The flags of the mutators, and what the stream processor does with them. -/
theorem flags_exact :
    (∀ root : Element,
      ((ensureMachineType root).2 = true ↔ (ensureMachineType root).1 ≠ root) ∧
      ((ensureIoapic root).2 = true ↔ (ensureIoapic root).1 ≠ root) ∧
      ((ensureIommu root).2 = true ↔ (ensureIommu root).1 ≠ root) ∧
      ((ensureIgbInterface root).2 = true ↔ (ensureIgbInterface root).1 ≠ root)) ∧
    (∀ (et : XmlCodec) (data text : PyBytes) (root : Element), et.fromstring data = .ok root →
      et.write (mutate root).1 = .ok text → et.fromstring text = .ok (mutate root).1 →
      ((processXmlStream et data).stdout = data ↔ ¬ NamedWorker root ∨ Settled root) ∧
      (NamedWorker root → ¬ Settled root → (processXmlStream et data).stdout = text) ∧
      (processXmlStream et data).code = 0) ∧
    (∀ (et : XmlCodec) (data : PyBytes) (err : XmlError), data ≠ [] →
      et.fromstring data = .error err →
      (processXmlStream et data).code = 1 ∧ (processXmlStream et data).stdout = []) := by
  refine ⟨fun root => ⟨ensureMachineType_establishes.exact root,
    ensureIoapic_establishes.exact root, ensureIommu_establishes.exact root,
    ensureIgbInterface_establishes.exact root⟩,
    fun et data text root hparse hwrite hreparse => ?_, fun et data err hne hparse => ?_⟩
  · by_cases hprinted : NamedWorker root ∧ ¬ Settled root
    · obtain ⟨hworker, hchanged⟩ := hprinted
      rw [processXmlStream_of_changed hparse hworker hchanged, hwrite]
      have hne : text ≠ data := write_ne_input hparse hreparse
        (fun heq => hchanged ((mutate_eq_self_iff root).mp heq))
      refine ⟨iff_of_false hne ?_, fun _ _ => rfl, rfl⟩
      rintro (hother | hsettled)
      · exact hother hworker
      · exact hchanged hsettled
    · have hunchanged : ¬ NamedWorker root ∨ Settled root := by
        rwa [not_and_or, not_not] at hprinted
      rw [processXmlStream_of_unchanged hparse hunchanged]
      exact ⟨iff_of_true rfl hunchanged, fun hworker hchanged =>
        absurd ⟨hworker, hchanged⟩ hprinted, rfl⟩
  · rw [processXmlStream, if_neg hne]
    simp only [hparse]
    exact ⟨trivial, trivial⟩

/-- A worker whose machine type has to change, and what is printed for it. -/
theorem flags_exact_workerDomain :
    (NamedWorker workerDomain ∧ ¬ Settled workerDomain) ∧
      (processXmlStream workerCodec workerXml).stdout = rewrittenXml := by
  obtain ⟨hflags, hstream, -⟩ := flags_exact
  have hworker : NamedWorker workerDomain := ⟨_, _, rfl, rfl, by decide⟩
  have hchanged : ¬ Settled workerDomain := by
    rintro ⟨hmachine, -⟩
    exact (hflags workerDomain).1.mp (by decide) hmachine
  obtain ⟨-, hprinted, -⟩ := hstream workerCodec workerXml rewrittenXml workerDomain
    workerCodec_workerXml rfl workerCodec_rewrittenXml
  exact ⟨⟨hworker, hchanged⟩, hprinted hworker hchanged⟩

/-! ### The SR-IOV network -/

/-- A network interface with an igb model and a source on the SR-IOV network. -/
def OnSriovNetwork (interface : Element) : Prop :=
  interface.get (py "type") = some (py "network") ∧
    (∃ model ∈ interface.findall (py "model"), model.get (py "type") = some (py "igb")) ∧
    ∃ source ∈ interface.findall (py "source"),
      source.get (py "network") = some sriovNetworkName

/-- The first devices have such an interface. -/
def Attached (root : Element) : Prop :=
  ∃ devices, root.find (py "devices") = some devices ∧
    ∃ interface ∈ devices.findall (py "interface"), OnSriovNetwork interface

theorem onSriovNetwork_newInterface : OnSriovNetwork newInterface := by
  refine ⟨by decide, ⟨(Element.new (py "model")).set (py "type") (py "igb"), ?_, by decide⟩,
    (Element.new (py "source")).set (py "network") sriovNetworkName, ?_, by decide⟩
  · exact List.mem_filter.mpr ⟨by simp [newInterface, Element.append], by decide⟩
  · exact List.mem_filter.mpr ⟨by simp [newInterface, Element.append], by decide⟩

theorem attached_ensureIgbInterface (root : Element) :
    Attached (ensureIgbInterface root).1 ↔
      ∃ interface ∈ (addIgb ((root.find (py "devices")).getD
        (Element.new (py "devices")))).1.findall (py "interface"), OnSriovNetwork interface := by
  rw [Attached, ensureIgbInterface_eq, find_withChild addIgb_keepsTag]
  simp only [Option.some.injEq, exists_eq_left']

/-- The promise is kept exactly when no igb interface was there to be mistaken
for one on the SR-IOV network, or the domain was on that network before. -/
theorem attached_iff (root : Element) :
    Attached (ensureIgbInterface root).1 ↔
      (∀ devices, root.find (py "devices") = some devices →
        ∀ interface ∈ devices.findall (py "interface"), isIgb interface = false) ∨
      Attached root := by
  rw [attached_ensureIgbInterface, findall_addIgb]
  cases hdevices : root.find (py "devices") with
  | none =>
      refine iff_of_true ⟨newInterface, ?_, onSriovNetwork_newInterface⟩ (Or.inl (by simp))
      rw [if_neg (by simp [Element.new, Element.findall])]
      simp
  | some devices =>
      simp only [Option.getD_some, Attached, hdevices, Option.some.injEq, forall_eq',
        exists_eq_left']
      cases hany : (devices.findall (py "interface")).any isIgb with
      | true =>
          rw [if_pos rfl, or_iff_right]
          intro hnone
          obtain ⟨interface, hmem, higb⟩ := List.any_eq_true.mp hany
          rw [hnone interface hmem] at higb
          exact absurd higb (by decide)
      | false =>
          refine iff_of_true ⟨newInterface, by simp, onSriovNetwork_newInterface⟩ (Or.inl ?_)
          intro interface hmem
          exact Bool.eq_false_iff.mpr (List.any_eq_false.mp hany interface hmem)

/-- A domain with an igb interface on the default network. -/
def otherNetwork : Element :=
  (Element.new (py "domain")).append <| (Element.new (py "devices")).append <|
    (((Element.new (py "interface")).set (py "type") (py "network")).append
        ((Element.new (py "source")).set (py "network") (py "default"))).append
      ((Element.new (py "model")).set (py "type") (py "igb"))

/-- The interface on the other network is taken for the one wanted. -/
theorem attached_otherNetwork_fails :
    ¬ Attached (ensureIgbInterface otherNetwork).1 := by
  rw [attached_ensureIgbInterface]
  rintro ⟨interface, hinterface, -, -, source, hsource, hnetwork⟩
  cases List.mem_singleton.mp hinterface
  cases List.mem_singleton.mp hsource
  exact absurd hnetwork (by decide)

end DraEnv.Dramachine
