import DraEnv.Foundation.Trace
import DraEnv.Sriovvf.Tool

/-!
What the tool has read.

On an arbitrary file system any call may fail or change anything, and
what was read need not be so any more when it is acted upon. The result
of a function that reads is therefore told by the calls it has made. The
relations here follow the calls of a function in order, with the answers
it got and the states between them: `Selected` for the search for the
device, `ListsVFs` and `ListsNodes` for the two listings.
-/

namespace DraEnv.Sriovvf

open DraEnv.Foundation DraEnv.GoStd Effect

variable {σ α β : Type} (fs : Filesystem σ) (size : IntSize)

/-! ### Single calls -/

/-- The path was a directory when it was looked at. -/
def IsDirAt (path : GoString) (s s' : σ) : Prop :=
  ∃ info, fs.stat path s = (.ok info, s') ∧ info.isDir = true

def NotDirAt (path : GoString) (s s' : σ) : Prop :=
  ∃ r, fs.stat path s = (r, s') ∧ ∀ info, r = .ok info → info.isDir = false

/-- There was nothing at the path. -/
def AbsentAt (path : GoString) (s s' : σ) : Prop :=
  ∃ err, fs.stat path s = (.error err, s') ∧ err.notExist = true

def NotAbsentAt (path : GoString) (s s' : σ) : Prop :=
  ∃ r, fs.stat path s = (r, s') ∧ ∀ err, r = .error err → err.notExist = false

/-- The file held a number. -/
def NumberAt (path : GoString) (s : σ) (value : Int) (s' : σ) : Prop :=
  ∃ data, fs.readFile path s = (.ok data, s') ∧ atoi size (trimSpace data) = some value

def NoNumberAt (path : GoString) (s s' : σ) : Prop :=
  ∃ r, fs.readFile path s = (r, s') ∧ ∀ data, r = .ok data → atoi size (trimSpace data) = none

theorem isDirAt_or (path : GoString) (s : σ) :
    (∃ s', IsDirAt fs path s s') ∨ ∃ s', NotDirAt fs path s s' := by
  rcases hstat : fs.stat path s with ⟨err | info, s'⟩
  · exact Or.inr ⟨s', _, hstat, by simp⟩
  · cases hdir : info.isDir with
    | true => exact Or.inl ⟨s', info, hstat, hdir⟩
    | false => exact Or.inr ⟨s', _, hstat, by simp [hdir]⟩

theorem absentAt_or (path : GoString) (s : σ) :
    (∃ s', AbsentAt fs path s s') ∨ ∃ s', NotAbsentAt fs path s s' := by
  rcases hstat : fs.stat path s with ⟨err | info, s'⟩
  · cases hexist : err.notExist with
    | true => exact Or.inl ⟨s', err, hstat, hexist⟩
    | false => exact Or.inr ⟨s', _, hstat, by simp [hexist]⟩
  · exact Or.inr ⟨s', _, hstat, by simp⟩

theorem numberAt_or (path : GoString) (s : σ) :
    (∃ value s', NumberAt fs size path s value s') ∨ ∃ s', NoNumberAt fs size path s s' := by
  rcases hread : fs.readFile path s with ⟨err | data, s'⟩
  · exact Or.inr ⟨s', _, hread, by simp⟩
  · cases hvalue : atoi size (trimSpace data) with
    | some value => exact Or.inl ⟨value, s', data, hread, hvalue⟩
    | none => exact Or.inr ⟨s', _, hread, by simp [hvalue]⟩

theorem silent_call (op : σ → Except FsError α × σ) : Silent (call op) := fun _ => rfl

section

variable {fs size} {s s' : σ} {log : List (WriteCall σ)}

/-- A call is followed by what is done with its answer. -/
theorem call_bind {op : σ → Except FsError α × σ} {r : Except FsError α} (hop : op s = (r, s'))
    (f : Except FsError α → Tool σ β) : (call op >>= f).run s = (f r).run s' := by
  have hcall : (call op).run s = ⟨.ok r, s', []⟩ := by simp only [call, hop]
  exact bind_ok hcall

theorem call_bind_run_ok {op : σ → Except FsError α × σ} {f : Except FsError α → Tool σ β} {b : β} :
    (call op >>= f).run s = ⟨.ok b, s', log⟩ ↔
      ∃ r s₁, op s = (r, s₁) ∧ (f r).run s₁ = ⟨.ok b, s', log⟩ := by
  constructor
  · intro h
    rcases hop : op s with ⟨r, s₁⟩
    rw [call_bind hop] at h
    exact ⟨r, s₁, rfl, h⟩
  · rintro ⟨r, s₁, hop, hf⟩
    rw [call_bind hop, hf]

theorem ensureDir_run_ok {path : GoString} {u : Unit} :
    (ensureDir fs path).run s = ⟨.ok u, s', log⟩ ↔ IsDirAt fs path s s' ∧ log = [] := by
  rw [ensureDir, call_bind_run_ok]
  constructor
  · rintro ⟨_ | info, s₁, hstat, h⟩
    · cases h
    · dsimp only at h
      split at h
      next hdir =>
        cases h
        exact ⟨⟨info, hstat, hdir⟩, rfl⟩
      · cases h
  · rintro ⟨⟨info, hstat, hdir⟩, rfl⟩
    exact ⟨.ok info, s', hstat, by simp only [hdir, if_true, run_pure]⟩

theorem IsDirAt.run {path : GoString} (h : IsDirAt fs path s s') :
    (ensureDir fs path).run s = ⟨.ok (), s', []⟩ :=
  ensureDir_run_ok.mpr ⟨h, rfl⟩

theorem NotDirAt.run {path : GoString} (h : NotDirAt fs path s s') :
    ∃ err, (ensureDir fs path).run s = ⟨.error err, s', []⟩ := by
  obtain ⟨r, hstat, hdir⟩ := h
  rw [ensureDir, call_bind hstat]
  cases r with
  | error err => exact ⟨_, rfl⟩
  | ok info =>
      exact ⟨.notADirectory path, by simp only [hdir info rfl, Bool.false_eq_true, if_false,
        run_fail]⟩

theorem readIntFromFile_run_ok {path : GoString} {value : Int} :
    (readIntFromFile fs size path).run s = ⟨.ok value, s', log⟩ ↔
      NumberAt fs size path s value s' ∧ log = [] := by
  rw [readIntFromFile, call_bind_run_ok]
  constructor
  · rintro ⟨_ | data, s₁, hread, h⟩
    · cases h
    · dsimp only at h
      split at h
      · cases h
      next hvalue =>
        cases h
        exact ⟨⟨data, hread, hvalue⟩, rfl⟩
  · rintro ⟨⟨data, hread, hvalue⟩, rfl⟩
    exact ⟨.ok data, s', hread, by simp only [hvalue, run_pure]⟩

theorem NumberAt.run {path : GoString} {value : Int} (h : NumberAt fs size path s value s') :
    (readIntFromFile fs size path).run s = ⟨.ok value, s', []⟩ :=
  readIntFromFile_run_ok.mpr ⟨h, rfl⟩

theorem NoNumberAt.run {path : GoString} (h : NoNumberAt fs size path s s') :
    ∃ err, (readIntFromFile fs size path).run s = ⟨.error err, s', []⟩ := by
  obtain ⟨r, hread, hvalue⟩ := h
  rw [readIntFromFile, call_bind hread]
  cases r with
  | error err => exact ⟨_, rfl⟩
  | ok data => exact ⟨.atoi (trimSpace data), by simp only [hvalue data rfl, run_fail]⟩

end

theorem silent_ensureDir (path : GoString) : Silent (ensureDir fs path) := by
  refine (silent_call _).bind fun r => ?_
  cases r with
  | error err => exact silent_fail _
  | ok info =>
      dsimp only
      split
      · exact silent_pure _
      · exact silent_fail _

theorem silent_readIntFromFile (path : GoString) : Silent (readIntFromFile fs size path) := by
  refine (silent_call _).bind fun r => ?_
  cases r with
  | error err => exact silent_fail _
  | ok data =>
      dsimp only
      split
      · exact silent_fail _
      · exact silent_pure _

/-! ### The device -/

/-- What a device has shown when it was taken, and what was noted of it. -/
structure Shown (devRoot pci : GoString) (s : σ) (pf : PfDevice) (s' : σ) : Prop where
  pciAddr : pf.pciAddr = pci
  path : pf.path = join [devRoot, pci]
  capacity : 0 < pf.totalVFs
  calls : ∃ s₁ s₂ s₃ s₄, IsDirAt fs pf.path s s₁ ∧
    AbsentAt fs (join [pf.path, lit "physfn"]) s₁ s₂ ∧
    IsDirAt fs (join [pf.path, lit "net"]) s₂ s₃ ∧
    NumberAt fs size (join [pf.path, lit "sriov_totalvfs"]) s₃ pf.totalVFs s₄ ∧
    NumberAt fs size (join [pf.path, lit "sriov_numvfs"]) s₄ pf.currentVFs s'

/-- A device was not taken: the checks it has passed, and the one it has not. -/
inductive Rejected (devRoot pci : GoString) (s : σ) : σ → Prop
  | dir {s' : σ} (hdir : NotDirAt fs (join [devRoot, pci]) s s') : Rejected devRoot pci s s'
  | physfn {s₁ s' : σ} (hdir : IsDirAt fs (join [devRoot, pci]) s s₁)
      (hphysfn : NotAbsentAt fs (join [join [devRoot, pci], lit "physfn"]) s₁ s') :
      Rejected devRoot pci s s'
  | net {s₁ s₂ s' : σ} (hdir : IsDirAt fs (join [devRoot, pci]) s s₁)
      (hphysfn : AbsentAt fs (join [join [devRoot, pci], lit "physfn"]) s₁ s₂)
      (hnet : NotDirAt fs (join [join [devRoot, pci], lit "net"]) s₂ s') :
      Rejected devRoot pci s s'
  | totalVFs {s₁ s₂ s₃ s' : σ} (hdir : IsDirAt fs (join [devRoot, pci]) s s₁)
      (hphysfn : AbsentAt fs (join [join [devRoot, pci], lit "physfn"]) s₁ s₂)
      (hnet : IsDirAt fs (join [join [devRoot, pci], lit "net"]) s₂ s₃)
      (htotal : NoNumberAt fs size (join [join [devRoot, pci], lit "sriov_totalvfs"]) s₃ s') :
      Rejected devRoot pci s s'
  | capacity {s₁ s₂ s₃ s' : σ} {value : Int} (hdir : IsDirAt fs (join [devRoot, pci]) s s₁)
      (hphysfn : AbsentAt fs (join [join [devRoot, pci], lit "physfn"]) s₁ s₂)
      (hnet : IsDirAt fs (join [join [devRoot, pci], lit "net"]) s₂ s₃)
      (htotal : NumberAt fs size (join [join [devRoot, pci], lit "sriov_totalvfs"]) s₃ value s')
      (hvalue : value ≤ 0) : Rejected devRoot pci s s'
  | numVFs {s₁ s₂ s₃ s₄ s' : σ} {value : Int} (hdir : IsDirAt fs (join [devRoot, pci]) s s₁)
      (hphysfn : AbsentAt fs (join [join [devRoot, pci], lit "physfn"]) s₁ s₂)
      (hnet : IsDirAt fs (join [join [devRoot, pci], lit "net"]) s₂ s₃)
      (htotal : NumberAt fs size (join [join [devRoot, pci], lit "sriov_totalvfs"]) s₃ value s₄)
      (hvalue : 0 < value)
      (hcurrent : NoNumberAt fs size (join [join [devRoot, pci], lit "sriov_numvfs"]) s₄ s') :
      Rejected devRoot pci s s'

theorem shown_or_rejected (devRoot pci : GoString) (s : σ) :
    (∃ pf s', Shown fs size devRoot pci s pf s') ∨ ∃ s', Rejected fs size devRoot pci s s' := by
  obtain ⟨s₁, hdir⟩ | ⟨s₁, hdir⟩ := isDirAt_or fs (join [devRoot, pci]) s
  swap
  · exact Or.inr ⟨s₁, .dir hdir⟩
  obtain ⟨s₂, hphysfn⟩ | ⟨s₂, hphysfn⟩ :=
    absentAt_or fs (join [join [devRoot, pci], lit "physfn"]) s₁
  swap
  · exact Or.inr ⟨s₂, .physfn hdir hphysfn⟩
  obtain ⟨s₃, hnet⟩ | ⟨s₃, hnet⟩ := isDirAt_or fs (join [join [devRoot, pci], lit "net"]) s₂
  swap
  · exact Or.inr ⟨s₃, .net hdir hphysfn hnet⟩
  obtain ⟨totalVFs, s₄, htotal⟩ | ⟨s₄, htotal⟩ :=
    numberAt_or fs size (join [join [devRoot, pci], lit "sriov_totalvfs"]) s₃
  swap
  · exact Or.inr ⟨s₄, .totalVFs hdir hphysfn hnet htotal⟩
  by_cases hvalue : totalVFs ≤ 0
  · exact Or.inr ⟨s₄, .capacity hdir hphysfn hnet htotal hvalue⟩
  rw [not_le] at hvalue
  obtain ⟨currentVFs, s₅, hcurrent⟩ | ⟨s₅, hcurrent⟩ :=
    numberAt_or fs size (join [join [devRoot, pci], lit "sriov_numvfs"]) s₄
  · exact Or.inl ⟨⟨pci, join [devRoot, pci], totalVFs, currentVFs⟩, s₅, rfl, rfl, hvalue, s₁, s₂,
      s₃, s₄, hdir, hphysfn, hnet, htotal, hcurrent⟩
  · exact Or.inr ⟨s₅, .numVFs hdir hphysfn hnet htotal hvalue hcurrent⟩

/-- The devices the search looks at. -/
def Candidate (entry : DirEntry) : Prop :=
  (entry.isDir = true ∨ entry.isSymlink = true) ∧ isPCIAddress entry.name = true

theorem candidate_iff (entry : DirEntry) :
    Candidate entry ↔ ¬ (!entry.isDir && !entry.isSymlink) = true ∧
      ¬ (!isPCIAddress entry.name) = true := by
  rw [Candidate]
  cases entry.isDir <;> cases entry.isSymlink <;> cases isPCIAddress entry.name <;> simp

section

variable {fs size} {devRoot : GoString} {entry : DirEntry} {entries : List DirEntry}

theorem firstPF_of_candidate (h : Candidate entry) :
    firstPF fs size devRoot (entry :: entries) =
      attempt (validatePFDevice fs size devRoot entry.name) >>= fun
        | .ok pf => pure pf
        | .error _ => firstPF fs size devRoot entries := by
  obtain ⟨hkind, haddress⟩ := (candidate_iff entry).mp h
  rw [firstPF]
  exact (if_neg hkind).trans (if_neg haddress)

theorem firstPF_of_not_candidate (h : ¬ Candidate entry) :
    firstPF fs size devRoot (entry :: entries) = firstPF fs size devRoot entries := by
  rw [candidate_iff, not_and_or, not_not, not_not] at h
  rw [firstPF]
  rcases h with hkind | haddress
  · rw [if_pos hkind]
  · rw [if_pos haddress, ite_self]

end

/-- The first of the entries to have shown what is asked for. -/
inductive FirstShown (devRoot : GoString) : List DirEntry → σ → PfDevice → σ → Prop
  | here {entry : DirEntry} {entries : List DirEntry} {s s' : σ} {pf : PfDevice}
      (hcandidate : Candidate entry) (hshown : Shown fs size devRoot entry.name s pf s') :
      FirstShown devRoot (entry :: entries) s pf s'
  | skip {entry : DirEntry} {entries : List DirEntry} {s s' : σ} {pf : PfDevice}
      (hcandidate : ¬ Candidate entry) (hrest : FirstShown devRoot entries s pf s') :
      FirstShown devRoot (entry :: entries) s pf s'
  | reject {entry : DirEntry} {entries : List DirEntry} {s s₁ s' : σ} {pf : PfDevice}
      (hcandidate : Candidate entry) (hrejected : Rejected fs size devRoot entry.name s s₁)
      (hrest : FirstShown devRoot entries s₁ pf s') :
      FirstShown devRoot (entry :: entries) s pf s'

/-- The device was found as the configuration asks: under the address it names or, if
it names none, as the first that is listed. -/
inductive Selected (cfg : Config) (s : σ) (pf : PfDevice) (s' : σ) : Prop
  | named (hnamed : cfg.pciAddr ≠ []) (haddress : isPCIAddress cfg.pciAddr = true)
      (hshown : Shown fs size (devicesDir cfg.sysfsRoot) cfg.pciAddr s pf s')
  | first {listing : Listing} {s₁ : σ} (hnamed : cfg.pciAddr = [])
      (hlisting : fs.readDir (devicesDir cfg.sysfsRoot) s = (.ok listing, s₁))
      (hfirst : FirstShown fs size (devicesDir cfg.sysfsRoot) (sortEntries listing.entries) s₁
        pf s')

theorem silent_validatePFDevice (devRoot pci : GoString) :
    Silent (validatePFDevice fs size devRoot pci) := by
  refine ((silent_ensureDir fs _).mapError _).bind fun _ => ?_
  refine (silent_call _).bind fun r => ?_
  cases r with
  | ok info => exact silent_fail _
  | error err =>
      dsimp only
      split
      · exact silent_fail _
      refine ((silent_ensureDir fs _).mapError _).bind fun _ => ?_
      refine ((silent_readIntFromFile fs size _).mapError _).bind fun totalVFs => ?_
      split
      · exact silent_fail _
      · exact ((silent_readIntFromFile fs size _).mapError _).bind fun _ => silent_pure _

theorem silent_firstPF (devRoot : GoString) (entries : List DirEntry) :
    Silent (firstPF fs size devRoot entries) := by
  induction entries with
  | nil => exact silent_fail _
  | cons entry entries ih =>
      rw [firstPF]
      split
      · exact ih
      split
      · exact ih
      refine (silent_validatePFDevice fs size devRoot entry.name).attempt.bind fun r => ?_
      cases r with
      | ok pf => exact silent_pure _
      | error err => exact ih

theorem silent_resolvePF (sysfsRoot userPCI : GoString) :
    Silent (resolvePF fs size sysfsRoot userPCI) := by
  rw [resolvePF]
  split
  · split
    · exact silent_fail _
    · exact silent_validatePFDevice fs size _ _
  · refine (silent_call _).bind fun r => ?_
    cases r with
    | error err => exact silent_fail _
    | ok listing => exact silent_firstPF fs size _ _

section

variable {fs size} {s s' : σ} {log : List (WriteCall σ)} {pf : PfDevice}

theorem validatePFDevice_run_ok {devRoot pci : GoString} :
    (validatePFDevice fs size devRoot pci).run s = ⟨.ok pf, s', log⟩ ↔
      Shown fs size devRoot pci s pf s' ∧ log = [] := by
  simp only [validatePFDevice, seq_run_ok, mapError_ok, ensureDir_run_ok, call_bind_run_ok]
  constructor
  · rintro ⟨s₁, _, _, ⟨hdir, rfl⟩, ⟨r, s₂, hphysfn, h⟩, rfl⟩
    cases r with
    | ok info => cases h
    | error err =>
        dsimp only at h
        split at h
        · cases h
        next hexist =>
          simp only [bind_run_ok, mapError_ok, ensureDir_run_ok, readIntFromFile_run_ok] at h
          obtain ⟨⟨⟩, s₃, _, _, ⟨hnet, rfl⟩, ⟨totalVFs, s₄, _, _, ⟨htotal, rfl⟩, h, rfl⟩, rfl⟩ := h
          split at h
          · cases h
          next hcapacity =>
            simp only [bind_run_ok, mapError_ok, readIntFromFile_run_ok] at h
            obtain ⟨currentVFs, s₅, _, _, ⟨hcurrent, rfl⟩, h, rfl⟩ := h
            cases h
            exact ⟨⟨rfl, rfl, not_le.mp hcapacity, s₁, s₂, s₃, s₄, hdir,
              ⟨err, hphysfn, by simpa using hexist⟩, hnet, htotal, hcurrent⟩, rfl⟩
  · rintro ⟨⟨hpciAddr, hpath, hcapacity, s₁, s₂, s₃, s₄, hdir, ⟨err, hphysfn, hexist⟩, hnet, htotal,
      hcurrent⟩, rfl⟩
    rw [hpath] at hdir hphysfn hnet htotal hcurrent
    refine ⟨s₁, [], [], ⟨hdir, rfl⟩, ⟨.error err, s₂, hphysfn, ?_⟩, rfl⟩
    simp only [hexist, Bool.not_true, Bool.false_eq_true, if_false, bind_run_ok, mapError_ok,
      ensureDir_run_ok, readIntFromFile_run_ok]
    refine ⟨(), s₃, [], [], ⟨hnet, rfl⟩, ⟨pf.totalVFs, s₄, [], [], ⟨htotal, rfl⟩, ?_, rfl⟩, rfl⟩
    simp only [if_neg (not_le.mpr hcapacity), bind_run_ok, mapError_ok, readIntFromFile_run_ok]
    refine ⟨pf.currentVFs, s', [], [], ⟨hcurrent, rfl⟩, ?_, rfl⟩
    rw [← hpath, ← hpciAddr]
    rfl

/-- The first check that fails is the last that is made. -/
theorem Rejected.run {devRoot pci : GoString} (h : Rejected fs size devRoot pci s s') :
    ∃ err, (validatePFDevice fs size devRoot pci).run s = ⟨.error err, s', []⟩ := by
  rw [validatePFDevice]
  cases h with
  | dir hdir =>
      obtain ⟨err, hrun⟩ := hdir.run
      exact ⟨_, mapError_bind_error hrun⟩
  | physfn hdir hphysfn =>
      obtain ⟨r, hstat, hexist⟩ := hphysfn
      rw [mapError_bind_ok hdir.run, call_bind hstat]
      cases r with
      | ok info => exact ⟨_, rfl⟩
      | error err =>
          exact ⟨.inspectRole pci err, by simp only [hexist err rfl, Bool.not_false, if_true,
            run_fail]⟩
  | net hdir hphysfn hnet =>
      obtain ⟨err, hstat, hexist⟩ := hphysfn
      obtain ⟨err', hrun⟩ := hnet.run
      rw [mapError_bind_ok hdir.run, call_bind hstat]
      simp only [hexist, Bool.not_true, Bool.false_eq_true, if_false]
      exact ⟨_, mapError_bind_error hrun⟩
  | totalVFs hdir hphysfn hnet htotal =>
      obtain ⟨err, hstat, hexist⟩ := hphysfn
      obtain ⟨err', hrun⟩ := htotal.run
      rw [mapError_bind_ok hdir.run, call_bind hstat]
      simp only [hexist, Bool.not_true, Bool.false_eq_true, if_false]
      rw [mapError_bind_ok hnet.run]
      exact ⟨_, mapError_bind_error hrun⟩
  | capacity hdir hphysfn hnet htotal hvalue =>
      obtain ⟨err, hstat, hexist⟩ := hphysfn
      rw [mapError_bind_ok hdir.run, call_bind hstat]
      simp only [hexist, Bool.not_true, Bool.false_eq_true, if_false]
      rw [mapError_bind_ok hnet.run, mapError_bind_ok htotal.run, if_pos hvalue]
      exact ⟨_, rfl⟩
  | numVFs hdir hphysfn hnet htotal hvalue hcurrent =>
      obtain ⟨err, hstat, hexist⟩ := hphysfn
      obtain ⟨err', hrun⟩ := hcurrent.run
      rw [mapError_bind_ok hdir.run, call_bind hstat]
      simp only [hexist, Bool.not_true, Bool.false_eq_true, if_false]
      rw [mapError_bind_ok hnet.run, mapError_bind_ok htotal.run, if_neg (not_le.mpr hvalue)]
      exact ⟨_, mapError_bind_error hrun⟩

theorem firstPF_run_ok {devRoot : GoString} {entries : List DirEntry} :
    (firstPF fs size devRoot entries).run s = ⟨.ok pf, s', log⟩ ↔
      FirstShown fs size devRoot entries s pf s' ∧ log = [] := by
  induction entries generalizing s log with
  | nil =>
      constructor
      · intro h
        cases h
      · rintro ⟨⟨⟩, -⟩
  | cons entry entries ih =>
      by_cases hcandidate : Candidate entry
      · rw [firstPF_of_candidate hcandidate,
          (silent_validatePFDevice fs size devRoot entry.name).attempt_bind]
        obtain ⟨found, s₁, hshown⟩ | ⟨s₁, hrejected⟩ :=
          shown_or_rejected fs size devRoot entry.name s
        · have hrun := validatePFDevice_run_ok.mpr ⟨hshown, rfl⟩
          rw [hrun]
          constructor
          · intro h
            cases h
            exact ⟨.here hcandidate hshown, rfl⟩
          · rintro ⟨⟨-, hshown'⟩ | ⟨hskip, -⟩ | ⟨-, hrejected, -⟩, rfl⟩
            · cases hrun.symm.trans (validatePFDevice_run_ok.mpr ⟨hshown', rfl⟩)
              rfl
            · exact absurd hcandidate hskip
            · obtain ⟨err, hrun'⟩ := hrejected.run
              cases hrun.symm.trans hrun'
        · obtain ⟨err, hrun⟩ := hrejected.run
          rw [hrun]
          refine ih.trans (and_congr_left' ⟨.reject hcandidate hrejected, ?_⟩)
          rintro (⟨-, hshown⟩ | ⟨hskip, -⟩ | ⟨-, hrejected', hrest⟩)
          · cases hrun.symm.trans (validatePFDevice_run_ok.mpr ⟨hshown, rfl⟩)
          · exact absurd hcandidate hskip
          · obtain ⟨err', hrun'⟩ := hrejected'.run
            cases hrun.symm.trans hrun'
            exact hrest
      · rw [firstPF_of_not_candidate hcandidate]
        refine ih.trans (and_congr_left' ⟨.skip hcandidate, ?_⟩)
        rintro (⟨h, -⟩ | ⟨-, hrest⟩ | ⟨h, -, -⟩)
        · exact absurd h hcandidate
        · exact hrest
        · exact absurd h hcandidate

theorem resolvePF_run_ok {cfg : Config} :
    (resolvePF fs size cfg.sysfsRoot cfg.pciAddr).run s = ⟨.ok pf, s', log⟩ ↔
      Selected fs size cfg s pf s' ∧ log = [] := by
  by_cases hnamed : cfg.pciAddr = []
  · rw [resolvePF, if_neg (not_not.mpr hnamed), call_bind_run_ok]
    constructor
    · rintro ⟨_ | listing, s₁, hlisting, h⟩
      · cases h
      · exact ⟨.first hnamed hlisting (firstPF_run_ok.mp h).1, (firstPF_run_ok.mp h).2⟩
    · rintro ⟨⟨hne, -, -⟩ | ⟨-, hlisting, hfirst⟩, rfl⟩
      · exact absurd hnamed hne
      · exact ⟨_, _, hlisting, firstPF_run_ok.mpr ⟨hfirst, rfl⟩⟩
  · rw [resolvePF, if_pos hnamed]
    constructor
    · intro h
      split at h
      · cases h
      next haddress =>
        obtain ⟨hshown, hlog⟩ := validatePFDevice_run_ok.mp h
        exact ⟨.named hnamed (by simpa using haddress) hshown, hlog⟩
    · rintro ⟨⟨-, haddress, hshown⟩ | ⟨hnil, -, -⟩, rfl⟩
      · rw [if_neg (by simp [haddress])]
        exact validatePFDevice_run_ok.mpr ⟨hshown, rfl⟩
      · exact absurd hnil hnamed

end

/-! ### The virtual functions -/

def isVirtfn (entry : DirEntry) : Bool := startsWith entry.name (lit "virtfn")

/-- The `virtfn` entries were resolved, one after the other. -/
inductive Resolves (pfPath : GoString) : List DirEntry → σ → List GoString → σ → Prop
  | nil (s : σ) : Resolves pfPath [] s [] s
  | skip {entry : DirEntry} {entries : List DirEntry} {s s' : σ} {links : List GoString}
      (hentry : isVirtfn entry = false) (hrest : Resolves pfPath entries s links s') :
      Resolves pfPath (entry :: entries) s links s'
  | link {entry : DirEntry} {entries : List DirEntry} {s s₁ s' : σ} {resolved : GoString}
      {links : List GoString} (hentry : isVirtfn entry = true)
      (hlink : fs.evalSymlinks (join [pfPath, entry.name]) s = (.ok resolved, s₁))
      (hrest : Resolves pfPath entries s₁ links s') :
      Resolves pfPath (entry :: entries) s (resolved :: links) s'

/-- The directory of the device was listed, and these are the directories its `virtfn`
entries led to. -/
def ListsVFs (pfPath : GoString) (s : σ) (vfPaths : List GoString) (s' : σ) : Prop :=
  ∃ listing s₁ links, fs.readDir pfPath s = (.ok listing, s₁) ∧
    Resolves fs pfPath listing.entries s₁ links s' ∧ vfPaths = sortStrings links

theorem silent_resolveLinks (pfPath : GoString) (entries : List DirEntry) :
    Silent (resolveLinks fs pfPath entries) := by
  induction entries with
  | nil => exact silent_pure _
  | cons entry entries ih =>
      rw [resolveLinks]
      split
      · exact ih
      refine (silent_call _).bind fun r => ?_
      cases r with
      | error err => exact silent_fail _
      | ok resolved => exact ih.bind fun _ => silent_pure _

theorem silent_listVFPaths (pfPath : GoString) : Silent (listVFPaths fs pfPath) := by
  refine (silent_call _).bind fun r => ?_
  cases r with
  | error err => exact silent_fail _
  | ok listing => exact (silent_resolveLinks fs pfPath _).bind fun _ => silent_pure _

section

variable {fs} {s s' : σ} {log : List (WriteCall σ)} {pfPath : GoString}

theorem resolveLinks_run_ok {entries : List DirEntry} {links : List GoString} :
    (resolveLinks fs pfPath entries).run s = ⟨.ok links, s', log⟩ ↔
      Resolves fs pfPath entries s links s' ∧ log = [] := by
  induction entries generalizing s links log with
  | nil =>
      constructor
      · intro h
        cases h
        exact ⟨.nil _, rfl⟩
      · rintro ⟨⟨⟩, rfl⟩
        rfl
  | cons entry entries ih =>
      rw [resolveLinks, show startsWith entry.name (lit "virtfn") = isVirtfn entry from rfl]
      cases hentry : isVirtfn entry with
      | false =>
          rw [Bool.not_false, if_pos rfl]
          refine ih.trans (and_congr_left' ⟨.skip hentry, ?_⟩)
          rintro (_ | ⟨-, hrest⟩ | ⟨hlink, -, -⟩)
          · exact hrest
          · rw [hentry] at hlink
            cases hlink
      | true =>
          rw [Bool.not_true, if_neg (by decide), call_bind_run_ok]
          constructor
          · rintro ⟨_ | resolved, s₁, hlink, htail⟩
            · cases htail
            · obtain ⟨rest, s₂, log₁, log₂, hrest, hreturn, rfl⟩ := bind_run_ok.mp htail
              cases hreturn
              obtain ⟨hresolves, rfl⟩ := ih.mp hrest
              exact ⟨.link hentry hlink hresolves, rfl⟩
          · rintro ⟨_ | ⟨hskip, -⟩ | ⟨-, hlink, hrest⟩, rfl⟩
            · rw [hentry] at hskip
              cases hskip
            · exact ⟨_, _, hlink, bind_run_ok.mpr ⟨_, s', [], [], ih.mpr ⟨hrest, rfl⟩, rfl, rfl⟩⟩

theorem listVFPaths_run_ok {vfPaths : List GoString} :
    (listVFPaths fs pfPath).run s = ⟨.ok vfPaths, s', log⟩ ↔
      ListsVFs fs pfPath s vfPaths s' ∧ log = [] := by
  rw [listVFPaths, call_bind_run_ok]
  constructor
  · rintro ⟨_ | listing, s₁, hlisting, htail⟩
    · cases htail
    · obtain ⟨links, s₂, log₁, log₂, hlinks, hreturn, rfl⟩ := bind_run_ok.mp htail
      cases hreturn
      obtain ⟨hresolves, rfl⟩ := resolveLinks_run_ok.mp hlinks
      exact ⟨⟨listing, s₁, links, hlisting, hresolves, rfl⟩, rfl⟩
  · rintro ⟨⟨listing, s₁, links, hlisting, hlinks, rfl⟩, rfl⟩
    exact ⟨.ok listing, s₁, hlisting,
      bind_run_ok.mpr ⟨links, s', [], [], resolveLinks_run_ok.mpr ⟨hlinks, rfl⟩, rfl, rfl⟩⟩

end

/-! ### The nodes -/

def nodesDir (sysfsRoot : GoString) : GoString :=
  join [sysfsRoot, lit "devices", lit "system", lit "node"]

/-- The number in the name of a directory `node<n>`. -/
def nodeIndex (entry : DirEntry) : Option Int :=
  if !entry.isDir || !startsWith entry.name (lit "node") then none
  else atoi size (trimFront entry.name (lit "node"))

/-- An entry was looked at: a node counts unless it has an `online` file that is zero
or no number. -/
inductive NodeShown (nodeRoot : GoString) (entry : DirEntry) : σ → Option Int → σ → Prop
  | other {s : σ} (hindex : nodeIndex size entry = none) : NodeShown nodeRoot entry s none s
  | always {s s' : σ} {idx : Int} {err : FsError} (hindex : nodeIndex size entry = some idx)
      (hstat : fs.stat (join [nodeRoot, entry.name, lit "online"]) s = (.error err, s')) :
      NodeShown nodeRoot entry s (some idx) s'
  | online {s s₁ s' : σ} {idx value : Int} {info : FileInfo}
      (hindex : nodeIndex size entry = some idx)
      (hstat : fs.stat (join [nodeRoot, entry.name, lit "online"]) s = (.ok info, s₁))
      (hread : NumberAt fs size (join [nodeRoot, entry.name, lit "online"]) s₁ value s')
      (hvalue : value ≠ 0) : NodeShown nodeRoot entry s (some idx) s'
  | offline {s s₁ s' : σ} {idx : Int} {info : FileInfo}
      (hindex : nodeIndex size entry = some idx)
      (hstat : fs.stat (join [nodeRoot, entry.name, lit "online"]) s = (.ok info, s₁))
      (hread : NumberAt fs size (join [nodeRoot, entry.name, lit "online"]) s₁ 0 s') :
      NodeShown nodeRoot entry s none s'
  | unread {s s₁ s' : σ} {idx : Int} {info : FileInfo}
      (hindex : nodeIndex size entry = some idx)
      (hstat : fs.stat (join [nodeRoot, entry.name, lit "online"]) s = (.ok info, s₁))
      (hread : NoNumberAt fs size (join [nodeRoot, entry.name, lit "online"]) s₁ s') :
      NodeShown nodeRoot entry s none s'

/-- The entries were looked at, one after the other. -/
inductive NodesShown (nodeRoot : GoString) : List DirEntry → σ → List Int → σ → Prop
  | nil (s : σ) : NodesShown nodeRoot [] s [] s
  | cons {entry : DirEntry} {entries : List DirEntry} {s s₁ s' : σ} {node : Option Int}
      {nodes : List Int} (hentry : NodeShown fs size nodeRoot entry s node s₁)
      (hrest : NodesShown nodeRoot entries s₁ nodes s') :
      NodesShown nodeRoot (entry :: entries) s (node.toList ++ nodes) s'

/-- The directory of the nodes was listed, and these are the ones that count, in
order. -/
def ListsNodes (sysfsRoot : GoString) (s : σ) (nodes : List Int) (s' : σ) : Prop :=
  ∃ listing s₁ found, fs.readDir (nodesDir sysfsRoot) s = (.ok listing, s₁) ∧
    NodesShown fs size (nodesDir sysfsRoot) listing.entries s₁ found s' ∧
    nodes = found.mergeSort fun a b => decide (a ≤ b)

theorem silent_onlineNode (nodeRoot : GoString) (entry : DirEntry) :
    Silent (onlineNode fs size nodeRoot entry) := by
  rw [onlineNode]
  split
  · exact silent_pure _
  split
  · exact silent_pure _
  refine (silent_call _).bind fun r => ?_
  cases r with
  | error err => exact silent_pure _
  | ok info =>
      refine (silent_readIntFromFile fs size _).attempt.bind fun r => ?_
      cases r with
      | error err => exact silent_pure _
      | ok online => exact silent_pure _

theorem silent_onlineNodes (nodeRoot : GoString) (entries : List DirEntry) :
    Silent (onlineNodes fs size nodeRoot entries) := by
  induction entries with
  | nil => exact silent_pure _
  | cons entry entries ih =>
      exact (silent_onlineNode fs size nodeRoot entry).bind fun _ =>
        ih.bind fun _ => silent_pure _

theorem silent_listNUMANodes (sysfsRoot : GoString) :
    Silent (listNUMANodes fs size sysfsRoot) := by
  refine (silent_call _).bind fun r => ?_
  cases r with
  | error err => exact silent_fail _
  | ok listing => exact (silent_onlineNodes fs size _ _).bind fun _ => silent_pure _

section

variable {fs size} {s s' : σ} {log : List (WriteCall σ)} {nodeRoot : GoString}

theorem onlineNode_of_none {entry : DirEntry} (h : nodeIndex size entry = none) :
    onlineNode fs size nodeRoot entry = pure none := by
  rw [nodeIndex] at h
  rw [onlineNode]
  split at h
  next hkind => rw [if_pos hkind]
  next hkind => rw [if_neg hkind, h]

theorem onlineNode_of_some {entry : DirEntry} {idx : Int} (h : nodeIndex size entry = some idx) :
    onlineNode fs size nodeRoot entry =
      call (fs.stat (join [nodeRoot, entry.name, lit "online"])) >>= fun
        | .error _ => pure (some idx)
        | .ok _ =>
            attempt (readIntFromFile fs size (join [nodeRoot, entry.name, lit "online"])) >>= fun
              | .error _ => pure none
              | .ok online => pure (if online = 0 then none else some idx) := by
  rw [nodeIndex] at h
  rw [onlineNode]
  split at h
  · cases h
  next hkind =>
    rw [if_neg hkind]
    generalize atoi size (trimFront entry.name (lit "node")) = found at h
    subst h
    rfl

theorem onlineNode_run_ok {entry : DirEntry} {node : Option Int} :
    (onlineNode fs size nodeRoot entry).run s = ⟨.ok node, s', log⟩ ↔
      NodeShown fs size nodeRoot entry s node s' ∧ log = [] := by
  cases hindex : nodeIndex size entry with
  | none =>
      rw [onlineNode_of_none hindex]
      constructor
      · intro h
        cases h
        exact ⟨.other hindex, rfl⟩
      · rintro ⟨h, rfl⟩
        cases h with
        | other => rfl
        | always hsome => cases hindex.symm.trans hsome
        | online hsome => cases hindex.symm.trans hsome
        | offline hsome => cases hindex.symm.trans hsome
        | unread hsome => cases hindex.symm.trans hsome
  | some idx =>
      rw [onlineNode_of_some hindex, call_bind_run_ok]
      constructor
      · rintro ⟨_ | info, s₁, hstat, h⟩
        · cases h
          exact ⟨.always hindex hstat, rfl⟩
        · dsimp only at h
          rw [(silent_readIntFromFile fs size _).attempt_bind] at h
          obtain ⟨value, s₂, hread⟩ | ⟨s₂, hread⟩ :=
            numberAt_or fs size (join [nodeRoot, entry.name, lit "online"]) s₁
          · rw [hread.run] at h
            dsimp only at h
            split at h
            next hzero =>
              cases h
              exact ⟨.offline hindex hstat (hzero ▸ hread), rfl⟩
            next hzero =>
              cases h
              exact ⟨.online hindex hstat hread hzero, rfl⟩
          · obtain ⟨err, hrun⟩ := hread.run
            rw [hrun] at h
            cases h
            exact ⟨.unread hindex hstat hread, rfl⟩
      · rintro ⟨h, rfl⟩
        cases h with
        | other hnone => cases hindex.symm.trans hnone
        | always hsome hstat =>
            cases hindex.symm.trans hsome
            exact ⟨_, _, hstat, rfl⟩
        | online hsome hstat hread hvalue =>
            cases hindex.symm.trans hsome
            refine ⟨_, _, hstat, ?_⟩
            dsimp only
            rw [(silent_readIntFromFile fs size _).attempt_bind,
              hread.run]
            dsimp only
            rw [if_neg hvalue, run_pure]
        | offline _ hstat hread =>
            refine ⟨_, _, hstat, ?_⟩
            dsimp only
            rw [(silent_readIntFromFile fs size _).attempt_bind,
              hread.run]
            rfl
        | unread _ hstat hread =>
            obtain ⟨err, hrun⟩ := hread.run
            refine ⟨_, _, hstat, ?_⟩
            dsimp only
            rw [(silent_readIntFromFile fs size _).attempt_bind, hrun]
            rfl

theorem onlineNodes_run_ok {entries : List DirEntry} {nodes : List Int} :
    (onlineNodes fs size nodeRoot entries).run s = ⟨.ok nodes, s', log⟩ ↔
      NodesShown fs size nodeRoot entries s nodes s' ∧ log = [] := by
  induction entries generalizing s nodes log with
  | nil =>
      constructor
      · intro h
        cases h
        exact ⟨.nil _, rfl⟩
      · rintro ⟨⟨⟩, rfl⟩
        rfl
  | cons entry entries ih =>
      rw [onlineNodes, bind_run_ok]
      constructor
      · rintro ⟨node, s₁, log₁, log₂, hnode, htail, rfl⟩
        obtain ⟨rest, s₂, log₃, log₄, hrest, hreturn, rfl⟩ := bind_run_ok.mp htail
        cases hreturn
        obtain ⟨hshown, rfl⟩ := onlineNode_run_ok.mp hnode
        obtain ⟨hrests, rfl⟩ := ih.mp hrest
        exact ⟨.cons hshown hrests, rfl⟩
      · rintro ⟨_ | ⟨hnode, hrest⟩, rfl⟩
        exact ⟨_, _, [], [], onlineNode_run_ok.mpr ⟨hnode, rfl⟩,
          bind_run_ok.mpr ⟨_, s', [], [], ih.mpr ⟨hrest, rfl⟩, rfl, rfl⟩, rfl⟩

theorem listNUMANodes_run_ok {sysfsRoot : GoString} {nodes : List Int} :
    (listNUMANodes fs size sysfsRoot).run s = ⟨.ok nodes, s', log⟩ ↔
      ListsNodes fs size sysfsRoot s nodes s' ∧ log = [] := by
  rw [listNUMANodes, call_bind_run_ok]
  constructor
  · rintro ⟨_ | listing, s₁, hlisting, htail⟩
    · cases htail
    · obtain ⟨found, s₂, log₁, log₂, hfound, hreturn, rfl⟩ := bind_run_ok.mp htail
      cases hreturn
      obtain ⟨hshown, rfl⟩ := onlineNodes_run_ok.mp hfound
      exact ⟨⟨listing, s₁, found, hlisting, hshown, rfl⟩, rfl⟩
  · rintro ⟨⟨listing, s₁, found, hlisting, hfound, rfl⟩, rfl⟩
    exact ⟨.ok listing, s₁, hlisting,
      bind_run_ok.mpr ⟨found, s', [], [], onlineNodes_run_ok.mpr ⟨hfound, rfl⟩, rfl, rfl⟩⟩

end

end DraEnv.Sriovvf
