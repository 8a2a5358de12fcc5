import DraEnv.GoStd.Filepath
import DraEnv.GoStd.Stream
import DraEnv.GoStd.Strings
import DraEnv.Foundation.Pipeline

/-!
The hook chain of `virtinjectd/hook.go`.

A chain is an optional single hook followed by the eligible entries of an
optional directory; each hook is a program that reads the domain XML and
may write a new one. The machine the chain runs on is a parameter: what
directories list, what paths name, and what the programs do with their
input. Every run records the programs it started, so that "exactly once
each, in order" is a statement about data.

One step of the machine is easy to overlook. A command name without a
slash is not a path for `os/exec`: it is looked up in `PATH`. Joining a
name to the directory `.` gives such a name, and so does a single hook
given as a bare file name.
-/

namespace DraEnv.Virtinjectd

open DraEnv.GoStd DraEnv.Foundation

/-- The type bits of `fs.FileMode`. -/
def modeType : UInt32 := 0x8F280000

structure FileInfo where
  mode : UInt32
  deriving DecidableEq, Repr

def FileInfo.isRegular (info : FileInfo) : Bool := info.mode &&& modeType == 0

/-- `Mode()&0111 != 0` -/
def FileInfo.isExecutable (info : FileInfo) : Bool := info.mode &&& 0x49 != 0

structure DirEntry where
  name : GoString
  isDir : Bool
  deriving DecidableEq, Repr

/-- A directory listing: names are single components and no name occurs twice.
The order is whatever the enumeration gave. -/
structure Listing where
  entries : List DirEntry
  plain : ∀ entry ∈ entries, Plain entry.name
  nodup : (entries.map DirEntry.name).Nodup

/-- The machine a hook chain runs on. -/
structure Host where
  /-- `os.ReadDir` -/
  readDir : GoString → Except GoError Listing
  /-- `os.Stat`, which follows symbolic links; `none` is any error. -/
  stat : GoString → Option FileInfo
  /-- `exec.LookPath` on a name without a slash. -/
  lookPath : GoString → Option GoString
  /-- The file a path names, by its inode. -/
  file : GoString → Nat
  /-- Running a file with an argument vector and a standard input: its standard
  output, or the error of a start that failed, a non-zero exit or a timeout. -/
  exec : Nat → List GoString → GoString → Except GoError GoString

/-- A program that was started. -/
structure Exec where
  file : Nat
  argv : List GoString
  stdin : GoString
  deriving DecidableEq, Repr

inductive HookError where
  /-- `hook %q failed: %w` -/
  | failed (hookPath : GoString) (cause : GoError)
  /-- `reading directory %q: %w` -/
  | reading (dirPath : GoString) (cause : GoError)
  /-- `listing hook directory %q: %w` -/
  | listing (dirPath : GoString) (cause : HookError)
  deriving DecidableEq, Repr

structure HookChain where
  hookPath : GoString
  hookDirPath : GoString
  hookDomainName : GoString
  deriving DecidableEq, Repr

/-- A returned string and error, with the programs started on the way. -/
structure HookResult where
  output : GoString
  err : Option HookError
  ran : List Exec
  deriving DecidableEq, Repr

/-- The path `exec.Command` settles on for a command name. -/
def Host.commandPath (host : Host) (name : GoString) : Option GoString :=
  if slash ∈ name then some name else host.lookPath name

def runHook (host : Host) (hookPath domainName xmlInput : GoString) : HookResult :=
  let argv := [hookPath, domainName, lit "prepare", lit "begin", lit "-"]
  match host.commandPath hookPath with
  | none =>
      { output := xmlInput
        err := some (.failed hookPath (.msg "executable file not found in $PATH"))
        ran := [] }
  | some path =>
      let started : Exec := { file := host.file path, argv := argv, stdin := xmlInput }
      match host.exec (host.file path) argv xmlInput with
      | .error err =>
          { output := xmlInput, err := some (.failed hookPath err), ran := [started] }
      | .ok output =>
          if isBlank output then { output := xmlInput, err := none, ran := [started] }
          else { output := output, err := none, ran := [started] }

/-- The checks `listHookDir` makes on one entry: its full path if they pass. -/
def hookEntry (host : Host) (dirPath : GoString) (entry : DirEntry) : Option GoString :=
  if entry.isDir then none
  else
    let fullPath := join [dirPath, entry.name]
    match host.stat fullPath with
    | none => none
    | some info =>
        if !info.isRegular then none
        else if !info.isExecutable then none
        else some fullPath

def listHookDir (host : Host) (dirPath : GoString) : Except HookError (List GoString) :=
  match host.readDir dirPath with
  | .error err => .error (.reading dirPath err)
  | .ok listing => .ok (sortStrings (listing.entries.filterMap (hookEntry host dirPath)))

/-- The list of hooks the first two steps of `Run` build. -/
def HookChain.hooks (host : Host) (hc : HookChain) : Except HookError (List GoString) :=
  let single := if hc.hookPath ≠ [] then [hc.hookPath] else []
  if hc.hookDirPath ≠ [] then
    match listHookDir host hc.hookDirPath with
    | .error err => .error (.listing hc.hookDirPath err)
    | .ok hooksFromDir => .ok (single ++ hooksFromDir)
  else .ok single

/-- The loop of `Run`: a failed hook leaves the current XML as it was. -/
def runHooks (host : Host) (domainName : GoString) :
    List GoString → GoString → GoString × List Exec
  | [], currentXML => (currentXML, [])
  | hookPath :: hooks, currentXML =>
      let result := runHook host hookPath domainName currentXML
      let rest := runHooks host domainName hooks
        (if result.err.isSome then currentXML else result.output)
      (rest.1, result.ran ++ rest.2)

def HookChain.run (host : Host) (hc : HookChain) (xmlInput : GoString) : HookResult :=
  match hc.hooks host with
  | .error err => { output := xmlInput, err := some err, ran := [] }
  | .ok hooks =>
      let (output, ran) := runHooks host hc.hookDomainName hooks xmlInput
      { output, err := none, ran }

/-- A machine on which every file is the filter `f`. -/
def filterHost (f : GoString → GoString) : Host where
  readDir _ := .ok { entries := [], plain := by simp, nodup := by simp }
  stat _ := none
  lookPath _ := none
  file _ := 0
  exec _ _ stdin := .ok (f stdin)

/-- A chain of one hook. -/
def oneHook : HookChain := ⟨lit "/hook", [], lit "virtinjectd"⟩

end DraEnv.Virtinjectd
