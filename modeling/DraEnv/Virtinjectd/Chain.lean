import DraEnv.Virtinjectd.Hook

/-!
What running a hook chain does.

The programs a run started form a pipeline (`runHooks_chained`), and which
programs these are is decided by the hook paths alone
(`runHooks_files`). The directory part of the chain lists exactly the
eligible entries, by increasing name (`listHookDir_eq`). Together these
give the semantics of a chain: it holds exactly when every hook path
leads `os/exec` back to the file it names.
-/

namespace DraEnv.Virtinjectd

open DraEnv.GoStd DraEnv.Foundation

/-- The new XML a started hook contributes: nothing if it failed or its output
is blank. -/
def Exec.effect (host : Host) (e : Exec) : Option GoString :=
  match host.exec e.file e.argv e.stdin with
  | .error _ => none
  | .ok output => if isBlank output then none else some output

def hookArgv (hookPath domainName : GoString) : List GoString :=
  [hookPath, domainName, lit "prepare", lit "begin", lit "-"]

/-! ### One hook -/

theorem runHook_not_found {host : Host} {hookPath : GoString} (domainName x : GoString)
    (h : host.commandPath hookPath = none) :
    (runHook host hookPath domainName x).ran = [] ∧
      (runHook host hookPath domainName x).err.isSome := by
  simp [runHook, h]

/-- A hook that is found is started once, on the current XML, and the XML after
it is its contribution or what it was given. -/
theorem runHook_found {host : Host} {hookPath path : GoString} (domainName x : GoString)
    (h : host.commandPath hookPath = some path) :
    let started : Exec := ⟨host.file path, hookArgv hookPath domainName, x⟩
    let result := runHook host hookPath domainName x
    result.ran = [started] ∧
      (if result.err.isSome then x else result.output) = (started.effect host).getD x := by
  simp only [runHook, h, Exec.effect, hookArgv]
  cases host.exec (host.file path)
      [hookPath, domainName, lit "prepare", lit "begin", lit "-"] x with
  | error err => simp
  | ok output =>
      cases hblank : isBlank output with
      | true => simp [hblank]
      | false => simp [hblank]

theorem Exec.effect_nonblank {host : Host} {e : Exec} {y : GoString}
    (h : e.effect host = some y) : isBlank y = false := by
  simp only [Exec.effect] at h
  cases hexec : host.exec e.file e.argv e.stdin with
  | error err => simp [hexec] at h
  | ok output =>
      simp only [hexec] at h
      split at h
      · simp at h
      · rename_i hblank
        rw [Option.some.injEq] at h
        rw [← h]
        simpa using hblank

/-! ### A list of hooks -/

/-- The started programs form a pipeline from the input to the output. -/
theorem runHooks_chained (host : Host) (domainName : GoString) (hooks : List GoString)
    (x : GoString) :
    Chained Exec.stdin (Exec.effect host) x (runHooks host domainName hooks x).2
      (runHooks host domainName hooks x).1 := by
  induction hooks generalizing x with
  | nil => exact .nil x
  | cons hookPath hooks ih =>
      simp only [runHooks]
      cases hpath : host.commandPath hookPath with
      | none =>
          obtain ⟨hran, herr⟩ := runHook_not_found domainName x hpath
          rw [hran, if_pos herr, List.nil_append]
          exact ih x
      | some path =>
          obtain ⟨hran, hnext⟩ := runHook_found domainName x hpath
          rw [hran, hnext]
          exact .cons rfl (ih _)

/-- Which files were started is decided by the hook paths. -/
theorem runHooks_files (host : Host) (domainName : GoString) (hooks : List GoString)
    (x : GoString) :
    (runHooks host domainName hooks x).2.map Exec.file =
      hooks.filterMap (fun hookPath => (host.commandPath hookPath).map host.file) := by
  induction hooks generalizing x with
  | nil => rfl
  | cons hookPath hooks ih =>
      simp only [runHooks, List.map_append, ih]
      cases hpath : host.commandPath hookPath with
      | none =>
          rw [(runHook_not_found domainName x hpath).1]
          simp [hpath]
      | some path =>
          rw [(runHook_found domainName x hpath).1]
          simp [hpath]

theorem runHooks_append (host : Host) (domainName : GoString) (a b : List GoString)
    (x : GoString) :
    runHooks host domainName (a ++ b) x =
      let first := runHooks host domainName a x
      let second := runHooks host domainName b first.1
      (second.1, first.2 ++ second.2) := by
  induction a generalizing x with
  | nil => rfl
  | cons hookPath a ih =>
      simp only [List.cons_append, runHooks, ih, List.append_assoc]

/-- Non-blank XML never becomes blank. -/
theorem runHooks_nonblank (host : Host) (domainName : GoString) (hooks : List GoString)
    {x : GoString} (hx : isBlank x = false) :
    isBlank (runHooks host domainName hooks x).1 = false := by
  rw [(runHooks_chained host domainName hooks x).result]
  rcases latest_mem x ((runHooks host domainName hooks x).2.map (Exec.effect host)) with heq | hmem
  · rw [heq]
    exact hx
  · obtain ⟨e, -, he⟩ := List.mem_map.mp hmem
    exact e.effect_nonblank he

/-! ### The directory -/

/-- A non-directory whose stat succeeds and shows a regular, executable file. -/
def Eligible (host : Host) (dirPath : GoString) (entry : DirEntry) : Prop :=
  entry.isDir = false ∧ ∃ info, host.stat (join [dirPath, entry.name]) = some info ∧
    info.isRegular = true ∧ info.isExecutable = true

theorem hookEntry_eq_some_iff {host : Host} {dirPath path : GoString} {entry : DirEntry} :
    hookEntry host dirPath entry = some path ↔
      Eligible host dirPath entry ∧ path = join [dirPath, entry.name] := by
  simp only [hookEntry, Eligible]
  cases entry.isDir with
  | true => simp
  | false =>
      cases host.stat (join [dirPath, entry.name]) with
      | none => simp
      | some info =>
          cases hreg : info.isRegular with
          | false => simp [hreg]
          | true =>
              cases hexec : info.isExecutable with
              | false => simp [hreg, hexec]
              | true =>
                  simp only [hreg, hexec, Bool.false_eq_true, Bool.not_true, if_false,
                    Option.some.injEq]
                  exact ⟨fun h => ⟨⟨trivial, info, rfl, hreg, hexec⟩, h.symm⟩, fun h => h.2.symm⟩

/-- The names of the eligible entries, in increasing order. -/
def eligibleNames (host : Host) (dirPath : GoString) (listing : Listing) : List GoString :=
  sortStrings ((listing.entries.filter
    (fun entry => (hookEntry host dirPath entry).isSome)).map DirEntry.name)

theorem eligibleNames_sorted (host : Host) (dirPath : GoString) (listing : Listing) :
    (eligibleNames host dirPath listing).Pairwise (· < ·) := by
  apply sortStrings_strictly_sorted
  exact listing.nodup.sublist (List.filter_sublist.map _)

theorem mem_eligibleNames {host : Host} {dirPath : GoString} {listing : Listing}
    {name : GoString} :
    name ∈ eligibleNames host dirPath listing ↔
      ∃ entry ∈ listing.entries, Eligible host dirPath entry ∧ entry.name = name := by
  rw [eligibleNames, (sortStrings_perm _).mem_iff]
  simp only [List.mem_map, List.mem_filter, Option.isSome_iff_exists, hookEntry_eq_some_iff]
  constructor
  · rintro ⟨entry, ⟨hmem, path, helig, -⟩, hname⟩
    exact ⟨entry, hmem, helig, hname⟩
  · rintro ⟨entry, hmem, helig, hname⟩
    exact ⟨entry, ⟨hmem, _, helig, rfl⟩, hname⟩

theorem filterMap_hookEntry (host : Host) (dirPath : GoString) (entries : List DirEntry)
    (hplain : ∀ entry ∈ entries, Plain entry.name) :
    entries.filterMap (hookEntry host dirPath) =
      ((entries.filter (fun entry => (hookEntry host dirPath entry).isSome)).map
        DirEntry.name).map (joinPrefix dirPath ++ ·) := by
  induction entries with
  | nil => rfl
  | cons entry entries ih =>
      rw [List.filterMap_cons, List.filter_cons, ih (fun e he => hplain e (by simp [he]))]
      cases hentry : hookEntry host dirPath entry with
      | none => simp
      | some path =>
          obtain ⟨-, hpath⟩ := hookEntry_eq_some_iff.mp hentry
          simp [hpath, join_name dirPath (hplain entry (by simp))]

/-- The directory hooks are the eligible entries by increasing name, whatever
order the directory was enumerated in. -/
theorem listHookDir_eq {host : Host} {dirPath : GoString} {listing : Listing}
    (h : host.readDir dirPath = .ok listing) :
    listHookDir host dirPath =
      .ok ((eligibleNames host dirPath listing).map (fun name => join [dirPath, name])) := by
  have hjoin : (eligibleNames host dirPath listing).map (fun name => join [dirPath, name]) =
      (eligibleNames host dirPath listing).map (joinPrefix dirPath ++ ·) := by
    apply List.map_congr_left
    intro name hname
    obtain ⟨entry, hmem, -, rfl⟩ := mem_eligibleNames.mp hname
    exact join_name dirPath (listing.plain entry hmem)
  simp only [listHookDir, h]
  rw [filterMap_hookEntry host dirPath _ listing.plain, sortStrings_map_append, hjoin,
    eligibleNames]

/-! ### The whole chain -/

/-- The entries of the configured directory: none without a directory, an error
if it cannot be listed. -/
def HookChain.dirEntries (host : Host) (hc : HookChain) : Except GoError (List DirEntry) :=
  if hc.hookDirPath = [] then .ok []
  else (host.readDir hc.hookDirPath).map Listing.entries

def HookChain.single (hc : HookChain) : List GoString :=
  if hc.hookPath ≠ [] then [hc.hookPath] else []

/-- The semantics of a chain on one input. If the directory cannot be listed,
an error comes back with the input and nothing has run. Otherwise the single
hook and then the eligible entries, by increasing name, are each started once;
every one of them reads the latest non-blank output before it, and the result is
the latest non-blank output of all. -/
def HookChain.Semantics (host : Host) (hc : HookChain) (xmlInput : GoString) : Prop :=
  let result := hc.run host xmlInput
  (∀ err, hc.dirEntries host = .error err →
    result.err.isSome ∧ result.output = xmlInput ∧ result.ran = []) ∧
  (∀ entries, hc.dirEntries host = .ok entries →
    result.err = none ∧
    (∃ names : List GoString, names.Pairwise (· < ·) ∧
      (∀ name, name ∈ names ↔
        ∃ entry ∈ entries, Eligible host hc.hookDirPath entry ∧ entry.name = name) ∧
      result.ran.map Exec.file =
        (hc.single ++ names.map (fun name => join [hc.hookDirPath, name])).map host.file) ∧
    (∀ i (hi : i < result.ran.length), (result.ran[i]).stdin =
      latest xmlInput ((result.ran.take i).map (Exec.effect host))) ∧
    result.output = latest xmlInput (result.ran.map (Exec.effect host)) ∧
    (isBlank xmlInput = false → isBlank result.output = false)) ∧
  ∀ a b x, (runHooks host hc.hookDomainName (a ++ b) x).1 =
    (runHooks host hc.hookDomainName b (runHooks host hc.hookDomainName a x).1).1

/-- Handing `path` to `os/exec` runs the file `path` names: it has a slash, or
the search in `PATH` leads to the same file. -/
def Host.RunsItself (host : Host) (path : GoString) : Prop :=
  slash ∈ path ∨ ∃ found, host.lookPath path = some found ∧ host.file found = host.file path

/-- The directory cannot be listed, or the single hook and every eligible entry
run themselves. -/
def HookChain.Resolves (host : Host) (hc : HookChain) : Prop :=
  ∀ entries, hc.dirEntries host = .ok entries →
    (∀ path ∈ hc.single, host.RunsItself path) ∧
    ∀ entry ∈ entries, Eligible host hc.hookDirPath entry →
      host.RunsItself (join [hc.hookDirPath, entry.name])

theorem commandPath_file_iff {host : Host} {path : GoString} :
    (host.commandPath path).map host.file = some (host.file path) ↔ host.RunsItself path := by
  by_cases hslash : slash ∈ path
  · simp [Host.commandPath, Host.RunsItself, hslash]
  · simp [Host.commandPath, Host.RunsItself, hslash]

theorem HookChain.hooks_error {host : Host} {hc : HookChain} {err : GoError}
    (h : hc.dirEntries host = .error err) : ∃ e, hc.hooks host = .error e := by
  simp only [HookChain.dirEntries] at h
  split at h
  · simp at h
  · rename_i hdir
    cases hread : host.readDir hc.hookDirPath with
    | ok listing => simp [hread, Except.map] at h
    | error e =>
        refine ⟨.listing hc.hookDirPath (.reading hc.hookDirPath e), ?_⟩
        simp only [HookChain.hooks, ne_eq, hdir, not_false_eq_true, if_true, listHookDir, hread]

theorem HookChain.hooks_ok {host : Host} {hc : HookChain} {entries : List DirEntry}
    (h : hc.dirEntries host = .ok entries) :
    ∃ names : List GoString, names.Pairwise (· < ·) ∧
      (∀ name, name ∈ names ↔
        ∃ entry ∈ entries, Eligible host hc.hookDirPath entry ∧ entry.name = name) ∧
      hc.hooks host = .ok (hc.single ++ names.map (fun name => join [hc.hookDirPath, name])) := by
  simp only [HookChain.dirEntries] at h
  split at h
  · rename_i hdir
    rw [Except.ok.injEq] at h
    subst h
    exact ⟨[], List.Pairwise.nil, by simp, by simp [HookChain.hooks, HookChain.single, hdir]⟩
  · rename_i hdir
    cases hread : host.readDir hc.hookDirPath with
    | error e => simp [hread, Except.map] at h
    | ok listing =>
        simp only [hread, Except.map, Except.ok.injEq] at h
        subst h
        refine ⟨eligibleNames host hc.hookDirPath listing, eligibleNames_sorted _ _ _,
          fun name => mem_eligibleNames, ?_⟩
        simp only [HookChain.hooks, ne_eq, hdir, not_false_eq_true, if_true,
          listHookDir_eq hread, HookChain.single]

theorem HookChain.run_error {host : Host} {hc : HookChain} {e : HookError}
    (h : hc.hooks host = .error e) (x : GoString) :
    hc.run host x = { output := x, err := some e, ran := [] } := by
  simp only [HookChain.run, h]

theorem HookChain.run_ok {host : Host} {hc : HookChain} {hooks : List GoString}
    (h : hc.hooks host = .ok hooks) (x : GoString) :
    hc.run host x =
      { output := (runHooks host hc.hookDomainName hooks x).1
        err := none
        ran := (runHooks host hc.hookDomainName hooks x).2 } := by
  simp only [HookChain.run, h]

/-- A chain has the semantics on every input exactly when its hooks run
themselves. -/
theorem hookChain_semantics_iff (host : Host) (hc : HookChain) (xmlInput : GoString) :
    hc.Semantics host xmlInput ↔ hc.Resolves host := by
  constructor
  · rintro ⟨-, hok, -⟩ entries hentries
    obtain ⟨-, ⟨names, hsorted, hmem, hran⟩, -⟩ := hok entries hentries
    obtain ⟨names', hsorted', hmem', hhooks⟩ := HookChain.hooks_ok hentries
    obtain rfl : names = names' :=
      eq_of_pairwise_lt hsorted hsorted' (fun name => (hmem name).trans (hmem' name).symm)
    rw [HookChain.run_ok hhooks, runHooks_files, List.filterMap_eq_map_iff_forall_eq_some] at hran
    refine ⟨fun path hpath => ?_, fun entry hentry helig => ?_⟩
    · exact commandPath_file_iff.mp (hran path (List.mem_append_left _ hpath))
    · refine commandPath_file_iff.mp (hran _ (List.mem_append_right _ (List.mem_map.mpr
        ⟨entry.name, (hmem _).mpr ⟨entry, hentry, helig, rfl⟩, rfl⟩)))
  · intro hresolves
    refine ⟨fun err herr => ?_, fun entries hentries => ?_, fun a b x => ?_⟩
    · obtain ⟨e, he⟩ := HookChain.hooks_error herr
      simp [HookChain.run_error he]
    · obtain ⟨names, hsorted, hmem, hhooks⟩ := HookChain.hooks_ok hentries
      obtain ⟨hsingle, hdir⟩ := hresolves entries hentries
      have hchained := runHooks_chained host hc.hookDomainName
        (hc.single ++ names.map (fun name => join [hc.hookDirPath, name])) xmlInput
      rw [HookChain.run_ok hhooks]
      refine ⟨rfl, ⟨names, hsorted, hmem, ?_⟩, hchained.inputs, hchained.result,
        runHooks_nonblank host _ _⟩
      rw [runHooks_files, List.filterMap_eq_map_iff_forall_eq_some]
      intro path hpath
      rw [commandPath_file_iff]
      rcases List.mem_append.mp hpath with hpath | hpath
      · exact hsingle path hpath
      · obtain ⟨name, hname, rfl⟩ := List.mem_map.mp hpath
        obtain ⟨entry, hentry, helig, rfl⟩ := (hmem name).mp hname
        exact hdir entry hentry helig
    · rw [runHooks_append]

/-- A machine on which the working directory holds one executable hook and is
not in `PATH`. -/
def dotHost : Host where
  readDir _ := .ok {
    entries := [⟨lit "a.sh", false⟩]
    plain := by
      intro entry hentry
      rw [List.mem_singleton.mp hentry]
      exact ⟨by decide, by decide, by decide, by decide⟩
    nodup := by decide }
  stat _ := some ⟨0x1ED⟩
  lookPath _ := none
  file path := path.length
  exec _ _ stdin := .ok stdin

/-- A chain whose hook directory is given as `.`. -/
def dotChain : HookChain := ⟨[], dot, lit "virtinjectd"⟩

theorem dotChain_ran : (dotChain.run dotHost (lit "<domain/>")).ran = [] := by
  have hfilter : [DirEntry.mk (lit "a.sh") false].filterMap (hookEntry dotHost dot) =
      [lit "a.sh"] := by decide
  have hlist : listHookDir dotHost dot = .ok [lit "a.sh"] := by
    show Except.ok (sortStrings ([DirEntry.mk (lit "a.sh") false].filterMap
      (hookEntry dotHost dot))) = _
    rw [hfilter, sortStrings, List.mergeSort_singleton]
  have hhooks : dotChain.hooks dotHost = .ok [lit "a.sh"] := by
    have hdot : dot ≠ [] := by decide
    simp [HookChain.hooks, dotChain, hlist, hdot]
  rw [HookChain.run_ok hhooks]
  decide

/-- The hook in the directory `.` is listed and never started. -/
theorem hookChain_semantics_dot_fails : ¬ dotChain.Semantics dotHost (lit "<domain/>") := by
  rintro ⟨-, hok, -⟩
  obtain ⟨-, ⟨names, -, hmem, hran⟩, -⟩ := hok [⟨lit "a.sh", false⟩] rfl
  have hlisted : lit "a.sh" ∈ names :=
    (hmem _).mpr ⟨_, List.mem_singleton.mpr rfl, ⟨rfl, ⟨0x1ED⟩, rfl, by decide, by decide⟩, rfl⟩
  rw [dotChain_ran] at hran
  cases names with
  | nil => simp at hlisted
  | cons name names => simp [HookChain.single, dotChain] at hran

end DraEnv.Virtinjectd
