import DraEnv.GoStd.Os
import DraEnv.Virtinjectd.Chain

/-!
Starting the daemon: the flags of `main` and `NewHookChain`.

The hooks are checked once, before the first connection, and the checks
follow the path the flag gives. Running a hook does not: a name without a
slash is looked up in `PATH`. `startUp_resolves_iff` says which flags are
safe from this, whatever the machine looks like when a hook is run.
-/

namespace DraEnv.Virtinjectd

open DraEnv.GoStd

/-- `info.IsDir()` -/
def FileInfo.isDirectory (info : FileInfo) : Bool := info.mode &&& 0x80000000 != 0

inductive ChainError where
  /-- `at least one of hookPath or hookDirPath must be specified` -/
  | unspecified
  /-- `hook script %q: %w` -/
  | hookStat (hookPath : GoString)
  /-- `hook script %q is a directory, not a file` -/
  | hookIsDir (hookPath : GoString)
  /-- `hook script %q is not executable` -/
  | hookNotExecutable (hookPath : GoString)
  /-- `hook directory %q: %w` -/
  | dirStat (hookDirPath : GoString)
  /-- `hook directory %q is not a directory` -/
  | dirNotDir (hookDirPath : GoString)
  deriving DecidableEq, Repr

def checkHook (host : Host) (hookPath : GoString) : Option ChainError :=
  if hookPath = [] then none
  else
    match host.stat hookPath with
    | none => some (.hookStat hookPath)
    | some info =>
        if info.isDirectory then some (.hookIsDir hookPath)
        else if !info.isExecutable then some (.hookNotExecutable hookPath)
        else none

def checkHookDir (host : Host) (hookDirPath : GoString) : Option ChainError :=
  if hookDirPath = [] then none
  else
    match host.stat hookDirPath with
    | none => some (.dirStat hookDirPath)
    | some info => if !info.isDirectory then some (.dirNotDir hookDirPath) else none

def defaultHookDomainName : GoString := lit "virtinjectd"

def newHookChain (host : Host) (hookPath hookDirPath hookDomainName : GoString) :
    Except ChainError HookChain :=
  if hookPath = [] ∧ hookDirPath = [] then .error .unspecified
  else
    match checkHook host hookPath with
    | some err => .error err
    | none =>
        match checkHookDir host hookDirPath with
        | some err => .error err
        | none =>
            .ok ⟨hookPath, hookDirPath,
              if hookDomainName = [] then defaultHookDomainName else hookDomainName⟩

structure Flags where
  listenPath : GoString
  hookPath : GoString
  hookDirPath : GoString
  hookDomainName : GoString

/-- The calls `main` makes for its socket. -/
structure Socket where
  remove : GoString → Option FsError
  listen : GoString → Option GoError

/-- `main` up to `proxy.Run`: the status of an early exit, or the chain the proxy has. -/
def startUp (host : Host) (socket : Socket) (flags : Flags) : Except Nat HookChain :=
  if flags.hookPath = [] ∧ flags.hookDirPath = [] then .error 1
  else
    match newHookChain host flags.hookPath flags.hookDirPath flags.hookDomainName with
    | .error _ => .error 1
    | .ok hooks =>
        -- a stale socket that is not there is no error
        if (socket.remove flags.listenPath).any fun err => !err.notExist then .error 1
        else
          match socket.listen flags.listenPath with
          | some _ => .error 1
          | none => .ok hooks

theorem startUp_ok {host : Host} {socket : Socket} {flags : Flags} {hc : HookChain}
    (h : startUp host socket flags = .ok hc) :
    hc.hookPath = flags.hookPath ∧ hc.hookDirPath = flags.hookDirPath := by
  rw [startUp, newHookChain] at h
  grind

theorem slash_mem_joinPrefix {dir : GoString} :
    slash ∈ joinPrefix dir ↔ isRooted dir = true ∨ cleanStack dir ≠ [] := by
  rw [joinPrefix, List.mem_append, List.mem_flatMap]
  constructor
  · rintro (hrooted | ⟨c, hc, -⟩)
    · split at hrooted
      next h => exact Or.inl h
      next => simp at hrooted
    · exact Or.inr (List.ne_nil_of_mem (List.mem_reverse.mp hc))
  · rintro (hrooted | hstack)
    · simp [hrooted]
    · obtain ⟨c, stack, hcons⟩ := List.exists_cons_of_ne_nil hstack
      exact Or.inr ⟨c, by simp [hcons], by simp⟩

/-- The flags whose hooks are run as they are named, on any machine: a single hook is
given with a slash, and the directory by a path that leads out of the working directory
or into it. -/
def Flags.Explicit (flags : Flags) : Prop :=
  (flags.hookPath = [] ∨ slash ∈ flags.hookPath) ∧
    (flags.hookDirPath = [] ∨ isRooted flags.hookDirPath = true ∨ cleanStack flags.hookDirPath ≠ [])

theorem slash_mem_join {dir name : GoString} (hname : Plain name) :
    slash ∈ join [dir, name] ↔ isRooted dir = true ∨ cleanStack dir ≠ [] := by
  rw [join_name dir hname, List.mem_append, or_iff_left hname.no_slash, slash_mem_joinPrefix]

theorem dotHost_runsItself {path : GoString} : dotHost.RunsItself path ↔ slash ∈ path := by
  simp [Host.RunsItself, dotHost]

theorem dotHost_dirEntries (hc : HookChain) :
    hc.dirEntries dotHost =
      .ok (if hc.hookDirPath = [] then [] else [⟨lit "a.sh", false⟩]) := by
  rw [HookChain.dirEntries]
  split <;> rfl

theorem dotHost_eligible (dirPath : GoString) : Eligible dotHost dirPath ⟨lit "a.sh", false⟩ :=
  ⟨rfl, _, rfl, by decide, by decide⟩

theorem plain_of_dirEntries {later : Host} {hc : HookChain} {entries : List DirEntry}
    (h : hc.dirEntries later = .ok entries) :
    ∀ entry ∈ entries, hc.hookDirPath ≠ [] ∧ Plain entry.name := by
  rw [HookChain.dirEntries] at h
  split at h
  next =>
    obtain rfl := Except.ok.inj h
    simp
  next hdir =>
    cases hread : later.readDir hc.hookDirPath with
    | error err => simp [hread, Except.map] at h
    | ok listing =>
        rw [hread] at h
        obtain rfl := Except.ok.inj h
        exact fun entry hentry => ⟨hdir, listing.plain entry hentry⟩

theorem HookChain.explicit_of_resolves {hc : HookChain}
    (hresolves : ∀ later : Host, hc.Resolves later) :
    (hc.hookPath = [] ∨ slash ∈ hc.hookPath) ∧
      (hc.hookDirPath = [] ∨ isRooted hc.hookDirPath = true ∨ cleanStack hc.hookDirPath ≠ []) := by
  -- the working directory is not in the path of this machine, so a slash is needed
  obtain ⟨hsingle, hentries⟩ := hresolves dotHost _ (dotHost_dirEntries hc)
  constructor
  · by_cases hnone : hc.hookPath = []
    · exact Or.inl hnone
    · refine Or.inr (dotHost_runsItself.mp (hsingle _ ?_))
      rw [HookChain.single, if_pos hnone]
      exact List.mem_singleton.mpr rfl
  · by_cases hnone : hc.hookDirPath = []
    · exact Or.inl hnone
    · have hmem : (⟨lit "a.sh", false⟩ : DirEntry) ∈
          (if hc.hookDirPath = [] then [] else [⟨lit "a.sh", false⟩] : List DirEntry) := by
        rw [if_neg hnone]
        exact List.mem_singleton.mpr rfl
      have hruns := dotHost_runsItself.mp (hentries _ hmem (dotHost_eligible _))
      exact Or.inr ((slash_mem_join (by decide)).mp hruns)

theorem HookChain.resolves_of_explicit {hc : HookChain}
    (hsingle : hc.hookPath = [] ∨ slash ∈ hc.hookPath)
    (hdir : hc.hookDirPath = [] ∨ isRooted hc.hookDirPath = true ∨
      cleanStack hc.hookDirPath ≠ []) (later : Host) : hc.Resolves later := by
  intro entries hentries
  constructor
  · intro path hmem
    rw [HookChain.single] at hmem
    split at hmem
    next hsome =>
      obtain rfl := List.mem_singleton.mp hmem
      exact Or.inl (hsingle.resolve_left hsome)
    next => simp at hmem
  · intro entry hentry _
    obtain ⟨hsome, hplain⟩ := plain_of_dirEntries hentries entry hentry
    exact Or.inl ((slash_mem_join hplain).mpr (hdir.resolve_left hsome))

/-- Once the daemon is up, its hooks are run as they are named on whatever machine they
find, exactly if the flags are explicit. -/
theorem startUp_resolves_iff {host : Host} {socket : Socket} {flags : Flags} {hc : HookChain}
    (h : startUp host socket flags = .ok hc) :
    (∀ later : Host, hc.Resolves later) ↔ flags.Explicit := by
  obtain ⟨hpath, hdirPath⟩ := startUp_ok h
  rw [Flags.Explicit, ← hpath, ← hdirPath]
  exact ⟨HookChain.explicit_of_resolves, fun h => HookChain.resolves_of_explicit h.1 h.2⟩

/-- The flags of one hook given by its full path. -/
def oneHookFlags : Flags := ⟨lit "/tmp/libvirt-proxy.sock", lit "/hook", [], []⟩

theorem startUp_resolves_iff_oneHook :
    oneHookFlags.Explicit ∧ ∀ later : Host, oneHook.Resolves later := by
  have hexplicit : oneHookFlags.Explicit := ⟨Or.inr (by decide), Or.inl rfl⟩
  have hstarted : startUp dotHost ⟨fun _ => none, fun _ => none⟩ oneHookFlags = .ok oneHook := by
    rfl
  exact ⟨hexplicit, (startUp_resolves_iff hstarted).mpr hexplicit⟩

end DraEnv.Virtinjectd
