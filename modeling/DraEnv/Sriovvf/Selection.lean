import DraEnv.Sriovvf.Address
import DraEnv.Sriovvf.Sysfs

/-!
The choice of the device.

With no address given, `resolvePF` goes through the directory of the PCI
devices by name and takes the first that passes the check. It passes over
the failures of the others, so nothing but the set of those that pass
decides: the one of the least name is taken. An address given is checked
on its own, and the device found without one is the device found by
giving its address.
-/

namespace DraEnv.Sriovvf

open DraEnv.Foundation DraEnv.GoStd Effect

variable {τ φ : Type}

/-- An entry of the directory has that name, is a directory or a symlink named by an
address, and passes the check as the device. -/
def Passes (fs : Sysfs τ φ) (size : IntSize) (root : GoString) (s : State τ φ) (pci : GoString)
    (pf : PfDevice) : Prop :=
  ∃ entry ∈ devices fs root s.tree, entry.name = pci ∧ Candidate entry ∧
    ((validatePFDevice fs.filesystem size (devicesDir root) pci).run s).result = .ok pf

/-- What `resolvePF` returns. -/
def resolved (fs : Sysfs τ φ) (size : IntSize) (root userPCI : GoString) (s : State τ φ) :
    Except ToolError PfDevice :=
  ((resolvePF fs.filesystem size root userPCI).run s).result

variable {fs : Sysfs τ φ} {size : IntSize} {root pci : GoString} {s : State τ φ} {pf : PfDevice}

theorem passes_iff :
    Passes fs size root s pci pf ↔
      ∃ listing, fs.readDir s.tree (devicesDir root) = .ok listing ∧
        ∃ entry ∈ listing.entries, entry.name = pci ∧ Candidate entry ∧
          ValidPF fs size s.tree (devicesDir root) pci pf := by
  simp only [Passes, validatePFDevice_ok]
  cases hlisting : fs.readDir s.tree (devicesDir root) with
  | error err => simp [devices, hlisting]
  | ok listing => simp [devices_eq hlisting]

/-- The loop finds a device where there is one. -/
theorem firstPF_exists {devRoot : GoString} {entries : List DirEntry} {entry : DirEntry}
    (hmem : entry ∈ entries) (hcandidate : Candidate entry)
    (hvalid : ValidPF fs size s.tree devRoot entry.name pf) :
    ∃ found, ((firstPF fs.filesystem size devRoot entries).run s).result = .ok found := by
  induction entries with
  | nil => exact absurd hmem List.not_mem_nil
  | cons first entries ih =>
      simp only [firstPF_cons_ok]
      by_cases hfirst : Candidate first ∧ ∃ found, ValidPF fs size s.tree devRoot first.name found
      · obtain ⟨hcandidate, found, hvalid⟩ := hfirst
        exact ⟨found, Or.inl ⟨hcandidate, hvalid⟩⟩
      · rcases List.mem_cons.mp hmem with rfl | hmem
        · exact absurd ⟨hcandidate, pf, hvalid⟩ hfirst
        · obtain ⟨found, hfound⟩ := ih hmem
          exact ⟨found, Or.inr ⟨fun h pf' hpf' => hfirst ⟨h, pf', hpf'⟩, hfound⟩⟩

theorem resolved_auto_exists (h : Passes fs size root s pci pf) :
    ∃ found, resolved fs size root [] s = .ok found := by
  obtain ⟨listing, hlisting, entry, hentry, rfl, hcandidate, hvalid⟩ := passes_iff.mp h
  have hdir : fs.filesystem.readDir (devicesDir root) s = (.ok listing, s) := by
    rw [← hlisting]
    rfl
  rw [resolved, resolvePF, if_neg (by simp), call_bind hdir]
  exact firstPF_exists (mem_sortEntries.mpr hentry) hcandidate hvalid

/-- The device returned is the one of the least name that passes. -/
theorem resolved_auto_ok :
    resolved fs size root [] s = .ok pf ↔
      Passes fs size root s pf.pciAddr pf ∧
        ∀ pci pf', Passes fs size root s pci pf' → pf.pciAddr ≤ pci := by
  rw [resolved, resolvePF_auto_ok]
  constructor
  · rintro ⟨listing, hlisting, entry, hentry, hcandidate, hvalid, hleast⟩
    rw [hvalid.pciAddr]
    refine ⟨passes_iff.mpr ⟨listing, hlisting, entry, hentry, rfl, hcandidate, hvalid⟩, ?_⟩
    intro pci pf' hpasses
    obtain ⟨_, hlisting', other, hother, rfl, hcandidate', hvalid'⟩ := passes_iff.mp hpasses
    cases hlisting.symm.trans hlisting'
    exact List.not_lt.mp fun hlt => hleast other hother hlt hcandidate' pf' hvalid'
  · rintro ⟨hpasses, hleast⟩
    obtain ⟨listing, hlisting, entry, hentry, hname, hcandidate, hvalid⟩ := passes_iff.mp hpasses
    rw [← hname] at hvalid hleast
    refine ⟨listing, hlisting, entry, hentry, hcandidate, hvalid, ?_⟩
    intro other hother hlt hcandidate' pf' hvalid'
    have hle := hleast other.name pf'
      (passes_iff.mpr ⟨listing, hlisting, other, hother, rfl, hcandidate', hvalid'⟩)
    exact List.not_lt.mpr hle hlt

/-- The device found without an address is the one its address gives. -/
theorem resolved_user_of_valid (haddress : isPCIAddress pf.pciAddr = true)
    (hvalid : ValidPF fs size s.tree (devicesDir root) pf.pciAddr pf) :
    resolved fs size root pf.pciAddr s = .ok pf :=
  (resolvePF_user_ok fs size (plain_of_isPCIAddress haddress).ne_nil).mpr ⟨haddress, hvalid⟩

/-- Without an address the tool takes the device of the least name that passes, whatever
else is in the directory and in whatever order; its address gives the same device. No
device it takes is a VF or has no capacity. -/
theorem pfSelection_agrees (fs : Sysfs τ φ) (size : IntSize) (root : GoString) (s : State τ φ) :
    ((∃ pf, resolved fs size root [] s = .ok pf) ↔ ∃ pci pf, Passes fs size root s pci pf) ∧
      (∀ pf, resolved fs size root [] s = .ok pf →
        Passes fs size root s pf.pciAddr pf ∧
          (∀ pci pf', Passes fs size root s pci pf' → pf.pciAddr ≤ pci) ∧
          resolved fs size root pf.pciAddr s = .ok pf) ∧
      (∀ (τ' φ' : Type) (fs' : Sysfs τ' φ') (s' : State τ' φ'),
        (∀ pci pf, Passes fs' size root s' pci pf ↔ Passes fs size root s pci pf) →
          ∀ pf, resolved fs' size root [] s' = .ok pf ↔ resolved fs size root [] s = .ok pf) ∧
      (∀ userPCI pf, resolved fs size root userPCI s = .ok pf →
        (∃ err, fs.stat s.tree (join [pf.path, lit "physfn"]) = .error err ∧
          err.notExist = true) ∧ 0 < pf.totalVFs) := by
  refine ⟨⟨?_, ?_⟩, ?_, ?_, ?_⟩
  · rintro ⟨pf, hpf⟩
    exact ⟨pf.pciAddr, pf, (resolved_auto_ok.mp hpf).1⟩
  · rintro ⟨pci, pf, hpasses⟩
    exact resolved_auto_exists hpasses
  · intro pf hpf
    obtain ⟨hpasses, hleast⟩ := resolved_auto_ok.mp hpf
    obtain ⟨haddress, hvalid⟩ := resolvePF_valid fs size hpf
    exact ⟨hpasses, hleast, resolved_user_of_valid haddress hvalid⟩
  · intro τ' φ' fs' s' hsame pf
    simp only [resolved_auto_ok, hsame]
  · intro userPCI pf hpf
    obtain ⟨-, hvalid⟩ := resolvePF_valid fs size hpf
    exact ⟨hvalid.physfn, hvalid.capacity⟩

end DraEnv.Sriovvf
