import DraEnv.Dramachine.FixedPoint
import DraEnv.PyStd.Growth

/-!
What the rewriter leaves as it was.

The mutators set five attributes and append six kinds of elements, and
each does so at the first place its search finds. Below, the places are
described from the inside out, each by the attributes that may differ
there, the child that may have changed and the elements that are new.
The description of the root then follows from those of the mutators, and
with it that every element of the original tree is still at its place.
-/

namespace DraEnv.Dramachine

open DraEnv.Foundation DraEnv.PyStd

/-! ### New elements -/

def newIoapic : Element := (Element.new (py "ioapic")).set (py "driver") (py "qemu")

def newFeatures : Element := (Element.new (py "features")).append newIoapic

def newDriver : Element :=
  ((Element.new (py "driver")).set (py "intremap") (py "on")).set (py "iotlb") (py "on")

def newIommu : Element :=
  ((Element.new (py "iommu")).set (py "model") (py "intel")).append newDriver

def newDevices : Element := ((Element.new (py "devices")).append newIommu).append newInterface

/-- The new child, where there is none with the tag. -/
def unlessFound (e : Element) (tag : PyStr) (new : Element) : List Element :=
  if (e.find tag).isSome then [] else [new]

/-! ### The places -/

def TypeGrown : Element → Element → Prop := Grown [py "machine"] [] []

/-- An os whose first type may have another machine. -/
def OsGrown : Element → Element → Prop := Grown [] [⟨Element.hasTag (py "type"), TypeGrown⟩] []

def IoapicGrown : Element → Element → Prop := Grown [py "driver"] [] []

def FeaturesGrown (features : Element) : Element → Prop :=
  Grown [] [⟨Element.hasTag (py "ioapic"), IoapicGrown⟩]
    (unlessFound features (py "ioapic") newIoapic) features

def DriverGrown : Element → Element → Prop := Grown [py "intremap", py "iotlb"] [] []

def IommuGrown (iommu : Element) : Element → Prop :=
  Grown [py "model"] [⟨Element.hasTag (py "driver"), DriverGrown⟩]
    (unlessFound iommu (py "driver") newDriver) iommu

/-- The one interface that may be new comes behind an iommu that may be. -/
def DevicesGrown (devices : Element) : Element → Prop :=
  Grown [] [⟨Element.hasTag (py "iommu"), IommuGrown⟩]
    (unlessFound devices (py "iommu") newIommu ++
      if (devices.findall (py "interface")).any isIgb then [] else [newInterface]) devices

/-- The path `os/type` leads through the first os that has a type. -/
def leadsToType (child : Element) : Bool :=
  child.hasTag (py "os") && (child.find (py "type")).isSome

def RootGrown (root : Element) : Element → Prop :=
  Grown []
    [⟨leadsToType, OsGrown⟩, ⟨Element.hasTag (py "features"), FeaturesGrown⟩,
      ⟨Element.hasTag (py "devices"), DevicesGrown⟩]
    (unlessFound root (py "features") newFeatures ++ unlessFound root (py "devices") newDevices)
    root

/-! ### The steps -/

theorem grown_setUnless (key value : PyStr) (e : Element) :
    Grown [key] [] [] e (setUnless key value e).1 := by
  rw [setUnless]
  split
  · exact grown_set e key value
  · exact Grown.refl _ e (by simp)

theorem children_setUnless (key value : PyStr) (e : Element) :
    (setUnless key value e).1.children = e.children := by
  rw [setUnless]
  split <;> rfl

theorem unlessFound_congr {e e' : Element} {tag : PyStr} (new : Element)
    (h : e'.children.findIdx? (Element.hasTag tag) = e.children.findIdx? (Element.hasTag tag)) :
    unlessFound e' tag new = unlessFound e tag new := by
  have hany := congrArg Option.isSome h
  rw [List.findIdx?_isSome, List.findIdx?_isSome] at hany
  rw [unlessFound, unlessFound, Element.find, Element.find, List.isSome_find?, List.isSome_find?]
  simp only [hany]

theorem eq_of_mem_unlessFound {e new child : Element} {tag : PyStr}
    (h : child ∈ unlessFound e tag new) : child = new := by
  rw [unlessFound] at h
  split at h
  · simp at h
  · exact List.mem_singleton.mp h

/-- The first child with the tag is edited, or a new one is. -/
theorem grown_withChild {tag : PyStr} {k : Edit Element} {changes : Element → Element → Prop}
    (hk : ∀ child, changes child (k child).1) (e : Element) :
    Grown [] [⟨Element.hasTag tag, changes⟩] (unlessFound e tag (k (Element.new tag)).1) e
      (withChild tag k e).1 := by
  rw [unlessFound, withChild, Element.atChild]
  cases hfind : e.find tag with
  | some child =>
      refine grown_update fun child' hchild' => ?_
      obtain rfl : child = child' := Option.some.inj (hfind.symm.trans hchild')
      exact hk child
  | none =>
      refine (grown_append e _).idle ?_
      rw [List.findIdx?_eq_none_iff]
      intro child hchild
      exact Bool.eq_false_iff.mpr (List.find?_eq_none.mp hfind child hchild)

theorem withChild_of_some {tag : PyStr} {e child : Element} (k : Edit Element)
    (hfind : e.find tag = some child) :
    (withChild tag k e).1 = e.updateChild tag fun _ => (k child).1 := by
  simp only [withChild, Element.atChild, hfind]

theorem withChild_of_none {tag : PyStr} {e : Element} (k : Edit Element)
    (hfind : e.find tag = none) :
    (withChild tag k e).1 = e.append (k (Element.new tag)).1 := by
  simp only [withChild, Element.atChild, hfind]

/-- Two edits of the same child are one. -/
theorem withChild_withChild {tag : PyStr} {k₁ : Edit Element} (k₂ : Edit Element)
    (hk₁ : KeepsTag k₁) (e : Element) :
    (withChild tag k₂ (withChild tag k₁ e).1).1 = (withChild tag (andThen k₁ k₂) e).1 := by
  have hafter : (withChild tag k₁ e).1.find tag =
      some (k₁ ((e.find tag).getD (Element.new tag))).1 := find_withChild hk₁ e
  rw [withChild_of_some k₂ hafter]
  cases hfind : e.find tag with
  | some child =>
      have htag : ∀ x : Element, x.hasTag tag = true → (k₁ child).1.hasTag tag = true := by
        intro _ _
        rw [Element.hasTag, hk₁]
        exact Element.hasTag_of_find hfind
      rw [withChild_of_some k₁ hfind, withChild_of_some _ hfind]
      simp only [Element.updateChild, updateFirst_updateFirst htag]
      rfl
  | none =>
      have htag : (k₁ (Element.new tag)).1.hasTag tag = true := by
        rw [Element.hasTag, hk₁]
        exact beq_self_eq_true tag
      rw [withChild_of_none k₁ hfind, withChild_of_none _ hfind]
      simp only [Element.updateChild, Element.append, updateFirst_append_of_none hfind htag]
      rfl

/-! ### The mutators -/

def driverSettings : Edit Element :=
  andThen (setUnless (py "intremap") (py "on")) (setUnless (py "iotlb") (py "on"))

def iommuSettings : Edit Element :=
  andThen (setUnless (py "model") (py "intel")) (withChild (py "driver") driverSettings)

/-- What the last two mutators do to the devices. -/
def devicesSettings : Edit Element := andThen (withChild (py "iommu") iommuSettings) addIgb

theorem driverGrown_settings (driver : Element) : DriverGrown driver (driverSettings driver).1 :=
  (grown_setUnless _ _ driver).trans (grown_setUnless _ _ _) (by simp) (by simp)

theorem iommuGrown_settings (iommu : Element) : IommuGrown iommu (iommuSettings iommu).1 := by
  set iommu' := (setUnless (py "model") (py "intel") iommu).1 with hiommu'
  have hchildren : iommu'.children = iommu.children := children_setUnless _ _ _
  have hfound : unlessFound iommu' (py "driver") newDriver =
      unlessFound iommu (py "driver") newDriver := unlessFound_congr _ (by rw [hchildren])
  rw [IommuGrown, ← hfound]
  refine (grown_setUnless (py "model") (py "intel") iommu).trans
    (grown_withChild driverGrown_settings iommu') ?_ (by simp)
  intro slot _
  rw [← hchildren]

theorem grown_addIgb (devices : Element) :
    Grown [] [] (if (devices.findall (py "interface")).any isIgb then [] else [newInterface])
      devices (addIgb devices).1 := by
  rw [addIgb]
  split
  · exact Grown.refl _ devices (by simp)
  · exact grown_append devices newInterface

theorem devicesGrown_settings (devices : Element) :
    DevicesGrown devices (devicesSettings devices).1 := by
  have hiommu : Grown [] [⟨Element.hasTag (py "iommu"), IommuGrown⟩]
      (unlessFound devices (py "iommu") newIommu) devices
      (withChild (py "iommu") iommuSettings devices).1 :=
    grown_withChild iommuGrown_settings devices
  have hinterfaces : (withChild (py "iommu") iommuSettings devices).1.findall (py "interface") =
      devices.findall (py "interface") :=
    findall_withChild_of_ne (fun iommu => (iommuGrown_settings iommu).tag) devices (by decide)
  rw [DevicesGrown, ← hinterfaces]
  exact hiommu.trans (grown_addIgb _) (by simp) (by simp)

theorem featuresGrown_settings (features : Element) :
    FeaturesGrown features
      (withChild (py "ioapic") (setUnless (py "driver") (py "qemu")) features).1 :=
  grown_withChild (grown_setUnless _ _) features

theorem grown_ensureMachineType (root : Element) :
    Grown [] [⟨leadsToType, OsGrown⟩] [] root (ensureMachineType root).1 := by
  rcases ensureMachineType_cases root with ⟨-, heq⟩ | ⟨_, machine, -, -, -, heq⟩
  · rw [heq]
    refine Grown.refl _ root ?_
    simp only [List.mem_singleton, forall_eq]
    intro os
    refine Grown.refl _ os ?_
    simp only [List.mem_singleton, forall_eq]
    intro typeElem
    exact Grown.refl _ typeElem (by simp)
  · rw [heq]
    exact grown_update fun os _ => grown_update fun typeElem _ => grown_set typeElem _ machine

/-- The last two mutators make one edit of the devices. -/
theorem ensureIgbInterface_ensureIommu (root : Element) :
    (ensureIgbInterface (ensureIommu root).1).1 =
      (withChild (py "devices") devicesSettings root).1 := by
  rw [ensureIgbInterface_eq]
  exact withChild_withChild addIgb (withChild_keepsTag _ _) root

theorem not_hasTag_of_leadsToType {child : Element} {tag : PyStr} (h : leadsToType child = true)
    (hne : tag ≠ py "os") : child.hasTag tag = false :=
  Element.hasTag_ne hne (Bool.and_eq_true_iff.mp h).1

theorem rootGrown_mutate (root : Element) : RootGrown root (mutate root).1 := by
  set root₁ := (ensureMachineType root).1 with hroot₁
  set root₂ := (ensureIoapic root₁).1 with hroot₂
  have hmachine : Grown [] [⟨leadsToType, OsGrown⟩] [] root root₁ := grown_ensureMachineType root
  have hioapic : Grown [] [⟨Element.hasTag (py "features"), FeaturesGrown⟩]
      (unlessFound root₁ (py "features") newFeatures) root₁ root₂ :=
    grown_withChild featuresGrown_settings root₁
  have hdevices : Grown [] [⟨Element.hasTag (py "devices"), DevicesGrown⟩]
      (unlessFound root₂ (py "devices") newDevices) root₂ (mutate root).1 := by
    have heq : (mutate root).1 = (withChild (py "devices") devicesSettings root₂).1 :=
      ensureIgbInterface_ensureIommu root₂
    rw [heq]
    exact grown_withChild devicesGrown_settings root₂
  -- Neither of the first two steps disturbs the search of a later one.
  have hfeatures : root₁.children.findIdx? (Element.hasTag (py "features")) =
      root.children.findIdx? (Element.hasTag (py "features")) :=
    hmachine.findIdx?_hasTag (List.forall_mem_singleton.mpr fun _ _ => Grown.tag) (by simp)
  have hfirst := hmachine.trans hioapic (List.forall_mem_singleton.mpr hfeatures)
    (List.forall_mem_singleton.mpr <| List.forall_mem_singleton.mpr fun _ =>
      findIdx?_ne_of_disjoint fun _ hos => not_hasTag_of_leadsToType hos (by decide))
  have hsearch : root₂.children.findIdx? (Element.hasTag (py "devices")) =
      root.children.findIdx? (Element.hasTag (py "devices")) := by
    refine hfirst.findIdx?_hasTag ?_ ?_
    · exact List.forall_mem_cons.mpr ⟨fun _ _ => Grown.tag,
        List.forall_mem_singleton.mpr fun _ _ => Grown.tag⟩
    · intro child hchild
      rw [List.nil_append] at hchild
      rw [eq_of_mem_unlessFound hchild]
      decide
  rw [RootGrown, ← unlessFound_congr newFeatures hfeatures, ← unlessFound_congr newDevices hsearch]
  refine hfirst.trans hdevices (List.forall_mem_singleton.mpr hsearch) ?_
  refine List.forall_mem_cons.mpr ⟨List.forall_mem_singleton.mpr fun _ => ?_,
    List.forall_mem_singleton.mpr <| List.forall_mem_singleton.mpr fun _ => ?_⟩
  · exact findIdx?_ne_of_disjoint fun _ hos => not_hasTag_of_leadsToType hos (by decide)
  · exact findIdx?_ne_of_disjoint fun _ => Element.hasTag_ne (by decide)

/-- The attributes the rewriter sets, at whatever place. -/
def settings : List PyStr :=
  [py "machine", py "driver", py "model", py "intremap", py "iotlb"]

theorem RootGrown.retains {root root' : Element} (h : RootGrown root root') :
    Retains settings root root' := by
  refine Grown.retains h (by simp) ?_
  simp only [List.mem_cons, List.not_mem_nil, or_false, forall_eq_or_imp, forall_eq]
  refine ⟨fun os os' hos => ?_, fun features features' hfeatures => ?_,
    fun devices devices' hdevices => ?_⟩
  · refine Grown.retains hos (by simp) ?_
    simp only [List.mem_singleton, forall_eq]
    exact fun _ _ htype => Grown.retains htype (by simp [settings]) (by simp)
  · refine Grown.retains hfeatures (by simp) ?_
    simp only [List.mem_singleton, forall_eq]
    exact fun _ _ hioapic => Grown.retains hioapic (by simp [settings]) (by simp)
  · refine Grown.retains hdevices (by simp) ?_
    simp only [List.mem_singleton, forall_eq]
    intro iommu iommu' hiommu
    refine Grown.retains hiommu (by simp [settings]) ?_
    simp only [List.mem_singleton, forall_eq]
    exact fun _ _ hdriver => Grown.retains hdriver (by simp [settings]) (by simp)

/-- The rewriter sets its attributes and appends its elements at the places
described, and every element of the tree is still where it was. -/
theorem rewriter_preserves (root : Element) :
    RootGrown root (mutate root).1 ∧ Retains settings root (mutate root).1 :=
  ⟨rootGrown_mutate root, (rootGrown_mutate root).retains⟩

end DraEnv.Dramachine
