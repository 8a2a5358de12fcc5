import DraEnv.Containerd.Effect
import DraEnv.Foundation.Transition

/-!
Setting up a node (`setup/containerd/main.go`, `setup-runtime.sh.tmpl`).

The script patches the configuration file of containerd in place and, if
that went well, restarts containerd. It is run as a job or as an init
container, so a node sees it again and again, and any of its runs may
fail. `SetupOutcome` lists the four ways one run can go, and what holds
over all runs follows from the list: containerd is started only on text
that was written to the end, and as long as no write is cut short the file
holds either the old configuration or the patched one.
-/

namespace DraEnv.Containerd

open DraEnv.GoStd DraEnv.Foundation

variable {σ ε : Type}

/-! ### Files -/

/-- A regular file. -/
structure File where
  mode : UInt32
  data : Bytes

abbrev Files := GoString → Option File

/-- What a run finds on the node besides the files: its streams, and which calls fail. -/
structure Host where
  stdin : Conn
  stdout : Sink
  lstat : GoString → Option GoError
  readFile : GoString → Option GoError
  openFile : GoString → Option GoError
  /-- A write may fail after some bytes. -/
  write : GoString → Option (Nat × GoError)
  /-- The status of a `systemctl restart` that fails. -/
  restart : Option Nat

def errNotExist : GoError := .msg "file does not exist"

/-- `os.Lstat`, of which the mode is used. -/
def Host.osLstat (host : Host) (files : Files) (name : GoString) : Except GoError UInt32 :=
  match host.lstat name with
  | some err => .error err
  | none =>
      match files name with
      | none => .error errNotExist
      | some file => .ok file.mode

def Host.osReadFile (host : Host) (files : Files) (name : GoString) : Except GoError Bytes :=
  match host.readFile name with
  | some err => .error err
  | none =>
      match files name with
      | none => .error errNotExist
      | some file => .ok file.data

/-- `os.WriteFile`: an existing file is emptied on opening and keeps its mode. -/
def Host.osWriteFile (host : Host) (files : Files) (name : GoString) (data : Bytes)
    (perm : UInt32) : Option GoError × Files :=
  match host.openFile name with
  | some err => (some err, files)
  | none =>
      let mode := ((files name).map File.mode).getD perm
      match host.write name with
      | some (n, err) => (some err, Function.update files name (some ⟨mode, data.take n⟩))
      | none => (none, Function.update files name (some ⟨mode, data⟩))

/-! ### The program -/

def configInplace (toml : Toml σ ε) (host : Host) (confPath : GoString) (files : Files) :
    Option (ConfigError ε) × Files :=
  match host.osLstat files confPath with
  | .error err => (some (.stream err), files)
  | .ok mode =>
      match host.osReadFile files confPath with
      | .error err => (some (.stream err), files)
      | .ok inData =>
          match configStream toml ⟨[inData], .eof⟩ Sink.reliable [] with
          | (some err, _) => (some err, files)
          | (none, outData) =>
              let written := host.osWriteFile files confPath outData mode
              (written.1.map .stream, written.2)

def configNameStdio : GoString := lit "-"

/-- `Config`: the error, what standard output was given, and the files. -/
def config (toml : Toml σ ε) (host : Host) (configName : GoString) (files : Files) :
    Option (ConfigError ε) × Bytes × Files :=
  if configName = configNameStdio then
    let streamed := configStream toml host.stdin host.stdout []
    (streamed.1, streamed.2, files)
  else
    let inplace := configInplace toml host configName files
    (inplace.1, [], inplace.2)

def setupScript : Bytes :=
  lit "#!/bin/sh\nset -o errexit\nset -o nounset\nset -x\n" ++
    (lit "if /bin/setup-runtime-containerd /etc/containerd/config.toml; then\n" ++
    (lit "\t/bin/echo \"restarting containerd\"\n" ++
    (lit "\t/usr/bin/nsenter -t 1 -m -u -i -n -p -- /usr/bin/systemctl restart containerd\n" ++
    lit "fi\n")))

/-- The program after its flags are parsed: the exit status, what standard output was
given, and the files. -/
def main (toml : Toml σ ε) (host : Host) (emitScript : Bool) (args : List GoString)
    (files : Files) : Nat × Bytes × Files :=
  if emitScript then (0, (host.stdout.write [] setupScript).2, files)
  else
    match args with
    | [arg] =>
        match config toml host arg files with
        | (some _, out, files) => (127, out, files)
        | (none, out, files) => (0, out, files)
    | _ => (1, [], files)

/-! ### The script -/

def configToml : GoString := lit "/etc/containerd/config.toml"

/-- A node: its files, and the configuration containerd was last restarted with. -/
structure Node where
  files : Files
  loaded : Option Bytes

/-- The setup script. The program is the condition of an `if`, so its failure is not one
of the script. -/
def setupRuntime (toml : Toml σ ε) (host : Host) (node : Node) : Nat × Node :=
  let (code, _, files) := main toml host false [configToml] node.files
  if code = 0 then
    match host.restart with
    | some status => (status, ⟨files, node.loaded⟩)
    | none => (0, ⟨files, (files configToml).map File.data⟩)
  else (0, ⟨files, node.loaded⟩)

/-- The node with other text in the configuration file. -/
def Node.withText (node : Node) (file : File) (text : Bytes) : Node :=
  ⟨Function.update node.files configToml (some ⟨file.mode, text⟩), node.loaded⟩

/-- The text a configuration file is replaced with. -/
def Patches (toml : Toml σ ε) (data text : Bytes) : Prop :=
  ∃ conf, toml.unmarshal data = .ok conf ∧ toml.marshal (process conf) = .ok text

/-- How one run of the script can go. -/
inductive SetupOutcome (toml : Toml σ ε) (host : Host) (node : Node) : Nat × Node → Prop
  /-- A call before the write failed. -/
  | untouched : SetupOutcome toml host node (0, node)
  /-- The write was cut short. -/
  | torn {file : File} {text : Bytes} {n : Nat} {err : GoError}
      (hfile : node.files configToml = some file) (hpatches : Patches toml file.data text)
      (hwrite : host.write configToml = some (n, err)) :
      SetupOutcome toml host node (0, node.withText file (text.take n))
  | notRestarted {file : File} {text : Bytes} {status : Nat}
      (hfile : node.files configToml = some file) (hpatches : Patches toml file.data text)
      (hrestart : host.restart = some status) :
      SetupOutcome toml host node (status, node.withText file text)
  | restarted {file : File} {text : Bytes}
      (hfile : node.files configToml = some file) (hpatches : Patches toml file.data text) :
      SetupOutcome toml host node (0, ⟨(node.withText file text).files, some text⟩)

theorem readAll_buffer (data : Bytes) : (⟨[data], .eof⟩ : Conn).readAll = .ok data := by
  simp [Conn.readAll, Conn.bytes]

theorem Host.osReadFile_ok {host : Host} {files : Files} {name : GoString} {data : Bytes}
    (h : host.osReadFile files name = .ok data) :
    ∃ file, files name = some file ∧ file.data = data := by
  rw [Host.osReadFile] at h
  cases hread : host.readFile name with
  | some err => simp [hread] at h
  | none =>
      cases hfile : files name with
      | none => simp [hread, hfile] at h
      | some file =>
          simp only [hread, hfile] at h
          exact ⟨file, rfl, Except.ok.inj h⟩

theorem patches_of_configStream {toml : Toml σ ε} {inData outData : Bytes}
    (h : configStream toml ⟨[inData], .eof⟩ Sink.reliable [] = (none, outData)) :
    Patches toml inData outData := by
  obtain ⟨data, conf, b, hdata, hconf, hb, hout⟩ := configStream_cases h
  obtain rfl : inData = data := Except.ok.inj ((readAll_buffer inData).symm.trans hdata)
  obtain rfl : outData = b := hout
  exact ⟨conf, hconf, hb⟩

/-- The ways an in-place patch can go: an error that leaves the file alone, a write that
is cut short, and one that goes through. -/
theorem configInplace_cases (toml : Toml σ ε) (host : Host) (confPath : GoString)
    (files : Files) :
    (∃ err, configInplace toml host confPath files = (some err, files)) ∨
      ∃ file text, files confPath = some file ∧ Patches toml file.data text ∧
        ((∃ n err, host.write confPath = some (n, err) ∧
            configInplace toml host confPath files =
              (some (.stream err),
                Function.update files confPath (some ⟨file.mode, text.take n⟩))) ∨
          configInplace toml host confPath files =
            (none, Function.update files confPath (some ⟨file.mode, text⟩))) := by
  rw [configInplace]
  cases host.osLstat files confPath with
  | error err => exact Or.inl ⟨_, rfl⟩
  | ok mode =>
      cases hdata : host.osReadFile files confPath with
      | error err => exact Or.inl ⟨_, rfl⟩
      | ok inData =>
          dsimp only
          rcases hstream : configStream toml ⟨[inData], .eof⟩ Sink.reliable [] with
            ⟨_ | err, outData⟩
          · obtain ⟨file, hfile, rfl⟩ := Host.osReadFile_ok hdata
            dsimp only [Host.osWriteFile]
            cases host.openFile confPath with
            | some err => exact Or.inl ⟨_, rfl⟩
            | none =>
                refine Or.inr ⟨file, outData, hfile, patches_of_configStream hstream, ?_⟩
                rw [hfile]
                rcases host.write confPath with _ | ⟨n, err⟩
                · exact Or.inr rfl
                · exact Or.inl ⟨n, err, rfl, rfl⟩
          · exact Or.inl ⟨_, rfl⟩

theorem configToml_ne_stdio : configToml ≠ configNameStdio := by decide

theorem main_configToml (toml : Toml σ ε) (host : Host) (files : Files) :
    main toml host false [configToml] files =
      (if (configInplace toml host configToml files).1.isSome then 127 else 0, [],
        (configInplace toml host configToml files).2) := by
  rw [main, if_neg (by decide), config, if_neg configToml_ne_stdio]
  rcases configInplace toml host configToml files with ⟨_ | err, files'⟩ <;> rfl

theorem setupOutcome (toml : Toml σ ε) (host : Host) (node : Node) :
    SetupOutcome toml host node (setupRuntime toml host node) := by
  rw [setupRuntime, main_configToml]
  rcases configInplace_cases toml host configToml node.files with
    ⟨err, hfailed⟩ | ⟨file, text, hfile, hpatches, ⟨n, err, hwrite, htorn⟩ | hdone⟩
  · rw [hfailed]
    exact .untouched
  · rw [htorn]
    exact .torn hfile hpatches hwrite
  · rw [hdone]
    dsimp only [Option.isSome]
    rw [if_pos (by rfl)]
    cases hrestart : host.restart with
    | some status => exact .notRestarted hfile hpatches hrestart
    | none =>
        dsimp only
        rw [Function.update_self]
        exact .restarted hfile hpatches

/-! ### Many runs -/

/-- The runs of the script on a node, each on a host of its own. -/
def setups (toml : Toml σ ε) (allowed : Host → Prop) (node₀ : Node) : System Node where
  init node := node = node₀
  step node node' := ∃ host, allowed host ∧ node' = (setupRuntime toml host node).2

/-- What no run changes: the other files, and the mode of the configuration file. -/
structure Untouched (node₀ node : Node) : Prop where
  others : ∀ name, name ≠ configToml → node.files name = node₀.files name
  mode : (node.files configToml).map File.mode = (node₀.files configToml).map File.mode

theorem untouched_refl (node : Node) : Untouched node node := ⟨fun _ _ => rfl, rfl⟩

theorem Untouched.trans {node₀ node₁ node₂ : Node} (h : Untouched node₀ node₁)
    (h' : Untouched node₁ node₂) : Untouched node₀ node₂ :=
  ⟨fun name hname => (h'.others name hname).trans (h.others name hname), h'.mode.trans h.mode⟩

theorem Node.withText_configToml (node : Node) (file : File) (text : Bytes) :
    (node.withText file text).files configToml = some ⟨file.mode, text⟩ := by
  simp only [Node.withText, Function.update_self]

theorem untouched_withText {node : Node} {file : File}
    (hfile : node.files configToml = some file) (text : Bytes) :
    Untouched node (node.withText file text) where
  others _ hname := Function.update_of_ne hname _ _
  mode := by rw [hfile, node.withText_configToml, Option.map_some, Option.map_some]

/-- Containerd runs on what it ran on before, or on the whole patch of a configuration that
was in the file at some point. -/
def RunsOnPatch (toml : Toml σ ε) (node₀ node : Node) : Prop :=
  node.loaded = node₀.loaded ∨ ∃ earlier file text,
    (setups toml (fun _ => True) node₀).Reachable earlier ∧
      earlier.files configToml = some file ∧ Patches toml file.data text ∧ node.loaded = some text

/-- However the runs of the script go, writes that are cut short included, they change
nothing but the text of the configuration file, and containerd is never restarted on text
that the program did not write to the end. -/
theorem setups_whole (toml : Toml σ ε) (node₀ : Node) {node : Node}
    (h : (setups toml (fun _ => True) node₀).Reachable node) :
    Untouched node₀ node ∧ RunsOnPatch toml node₀ node := by
  refine System.Reachable.invariant
    (P := fun node => Untouched node₀ node ∧ RunsOnPatch toml node₀ node) ?_ ?_ h
  · rintro node rfl
    exact ⟨untouched_refl _, Or.inl rfl⟩
  · rintro node node' hreach ⟨huntouched, hloaded⟩ ⟨host, -, rfl⟩
    have houtcome := setupOutcome toml host node
    generalize setupRuntime toml host node = result at houtcome ⊢
    cases houtcome with
    | untouched => exact ⟨huntouched, hloaded⟩
    | torn hfile _ _ => exact ⟨huntouched.trans (untouched_withText hfile _), hloaded⟩
    | notRestarted hfile _ _ => exact ⟨huntouched.trans (untouched_withText hfile _), hloaded⟩
    | restarted hfile hpatches =>
        refine ⟨huntouched.trans ?_, Or.inr ⟨node, _, _, hreach, hfile, hpatches, rfl⟩⟩
        exact ⟨(untouched_withText hfile _).others, (untouched_withText hfile _).mode⟩

/-- A node with the configuration of an empty CRI table. -/
def emptyCriNode : Node :=
  ⟨Function.update (fun _ => none) configToml (some ⟨420, emptyCriToml⟩), none⟩

theorem emptyCriNode_configToml :
    emptyCriNode.files configToml = some ⟨420, emptyCriToml⟩ := by
  simp only [emptyCriNode, Function.update_self]

/-- A host on which writes are cut short after three bytes. -/
def Host.tears : Host :=
  ⟨⟨[], .eof⟩, Sink.reliable, fun _ => none, fun _ => none, fun _ => none,
    fun _ => some (3, .eof), none⟩

theorem setups_whole_tears :
    Untouched emptyCriNode (setupRuntime emptyCriCodec .tears emptyCriNode).2 ∧
      RunsOnPatch emptyCriCodec emptyCriNode (setupRuntime emptyCriCodec .tears emptyCriNode).2 :=
  setups_whole emptyCriCodec emptyCriNode
    ((System.Reachable.of_init rfl).step ⟨.tears, trivial, rfl⟩)

/-! ### Runs without torn writes -/

/-- The text a file is replaced with, which the library reads back. -/
def Settles (toml : Toml σ ε) (data text : Bytes) : Prop :=
  ∃ conf, toml.unmarshal data = .ok conf ∧ toml.marshal (process conf) = .ok text ∧
    Recovers toml conf

theorem Patches.unique {toml : Toml σ ε} {data text text' : Bytes} (h : Patches toml data text)
    (h' : Patches toml data text') : text' = text := by
  obtain ⟨conf, hconf, htext⟩ := h
  obtain ⟨conf', hconf', htext'⟩ := h'
  obtain rfl : conf = conf' := Except.ok.inj (hconf.symm.trans hconf')
  exact Except.ok.inj (htext'.symm.trans htext)

theorem Settles.patches {toml : Toml σ ε} {data text : Bytes} (h : Settles toml data text) :
    Patches toml data text := by
  obtain ⟨conf, hconf, htext, -⟩ := h
  exact ⟨conf, hconf, htext⟩

/-- The patched text is replaced with itself. -/
theorem Settles.again {toml : Toml σ ε} {data text : Bytes} (h : Settles toml data text) :
    Patches toml text text := by
  obtain ⟨conf, -, htext, hrecovers⟩ := h
  refine ⟨_, hrecovers.reread text htext, ?_⟩
  rw [process_reread rereads_generic hrecovers.generic]
  exact htext

/-- The configuration file has the old text or the new one, and containerd runs on the new
one only if the file has it. -/
structure OldOrNew (node₀ : Node) (file : File) (text : Bytes) (node : Node) : Prop where
  files : node.files = node₀.files ∨ node.files = (node₀.withText file text).files
  loaded : node.loaded = node₀.loaded ∨
    node.loaded = some text ∧ node.files = (node₀.withText file text).files

/-- A file that is there with either text is replaced with the new one. -/
theorem OldOrNew.replaced {toml : Toml σ ε} {node₀ node : Node} {file file' : File}
    {text text' : Bytes} (h : OldOrNew node₀ file text node)
    (hsettles : Settles toml file.data text) (hfile₀ : node₀.files configToml = some file)
    (hfile : node.files configToml = some file') (hpatches : Patches toml file'.data text') :
    text' = text ∧ (node.withText file' text').files = (node₀.withText file text).files := by
  rcases h.files with hold | hnew
  · rw [hold, hfile₀] at hfile
    obtain rfl := Option.some.inj hfile
    obtain rfl := hsettles.patches.unique hpatches
    exact ⟨rfl, by rw [Node.withText, Node.withText, hold]⟩
  · rw [hnew, node₀.withText_configToml] at hfile
    obtain rfl := Option.some.inj hfile
    obtain rfl := hsettles.again.unique hpatches
    refine ⟨rfl, ?_⟩
    rw [Node.withText, hnew]
    exact Function.update_idem _ _ _

/-- A host on which no write is cut short. -/
def Host.Intact (host : Host) : Prop := ∀ name, host.write name = none

theorem oldOrNew {toml : Toml σ ε} {node₀ : Node} {file : File} {text : Bytes}
    (hfile₀ : node₀.files configToml = some file) (hsettles : Settles toml file.data text)
    {node : Node} (h : (setups toml Host.Intact node₀).Reachable node) :
    OldOrNew node₀ file text node := by
  refine h.invariant ?_ ?_
  · rintro node rfl
    exact ⟨Or.inl rfl, Or.inl rfl⟩
  · rintro node node' - hnode ⟨host, hintact, rfl⟩
    have houtcome := setupOutcome toml host node
    generalize setupRuntime toml host node = result at houtcome ⊢
    cases houtcome with
    | untouched => exact hnode
    | torn _ _ hwrite =>
        rw [hintact] at hwrite
        cases hwrite
    | notRestarted hfile hpatches _ =>
        obtain ⟨rfl, hfiles⟩ := hnode.replaced hsettles hfile₀ hfile hpatches
        exact ⟨Or.inr hfiles, hnode.loaded.imp id fun hnew => ⟨hnew.1, hfiles⟩⟩
    | restarted hfile hpatches =>
        obtain ⟨rfl, hfiles⟩ := hnode.replaced hsettles hfile₀ hfile hpatches
        exact ⟨Or.inr hfiles, Or.inr ⟨rfl, hfiles⟩⟩

/-- A host on which nothing fails that the script does. -/
structure Host.Works (host : Host) : Prop where
  lstat : host.lstat configToml = none
  readFile : host.readFile configToml = none
  openFile : host.openFile configToml = none
  write : host.write configToml = none
  restart : host.restart = none

theorem setupRuntime_works {toml : Toml σ ε} {host : Host} (hworks : host.Works) {node : Node}
    {file : File} {text : Bytes} (hfile : node.files configToml = some file)
    (hpatches : Patches toml file.data text) :
    setupRuntime toml host node = (0, ⟨(node.withText file text).files, some text⟩) := by
  obtain ⟨conf, hconf, htext⟩ := hpatches
  have hstream := configStream_ok (readAll_buffer file.data) hconf htext
    (congrArg Prod.fst (Sink.write_reliable [] text))
  have hinplace : configInplace toml host configToml node.files =
      (none, (node.withText file text).files) := by
    simp [configInplace, Host.osLstat, Host.osReadFile, Host.osWriteFile, hworks.lstat,
      hworks.readFile, hworks.openFile, hworks.write, hfile, hstream, Node.withText]
  simp [setupRuntime, main_configToml, hinplace, hworks.restart, node.withText_configToml]

/-- As long as no write is cut short, the node has the old configuration or the new one
after any number of runs, and the next run on which nothing fails brings it to the new
one, whatever happened in the runs before. -/
theorem setups_converge {toml : Toml σ ε} {node₀ : Node} {file : File} {text : Bytes}
    (hfile₀ : node₀.files configToml = some file) (hsettles : Settles toml file.data text)
    {node : Node} (h : (setups toml Host.Intact node₀).Reachable node) :
    OldOrNew node₀ file text node ∧ ∀ host : Host, host.Works →
      setupRuntime toml host node = (0, ⟨(node₀.withText file text).files, some text⟩) := by
  have hnode := oldOrNew hfile₀ hsettles h
  refine ⟨hnode, fun host hworks => ?_⟩
  have hnext : ∀ {file' : File}, node.files configToml = some file' →
      Patches toml file'.data text →
      setupRuntime toml host node = (0, ⟨(node₀.withText file text).files, some text⟩) := by
    intro file' hfile hpatches
    rw [setupRuntime_works hworks hfile hpatches, (hnode.replaced hsettles hfile₀ hfile hpatches).2]
  rcases hnode.files with hold | hnew
  · exact hnext (hold ▸ hfile₀) hsettles.patches
  · exact hnext (hnew ▸ node₀.withText_configToml file text) hsettles.again

theorem emptyCri_settles : Settles emptyCriCodec emptyCriToml patchedToml := by
  refine ⟨emptyCri, by simp only [emptyCriCodec, if_true], rfl, emptyCri_generic, fun b hb => ?_⟩
  obtain rfl : patchedToml = b := Except.ok.inj hb
  simp only [emptyCriCodec, if_neg patchedToml_ne_emptyCriToml, if_true]

def Host.noRestart : Host :=
  ⟨⟨[], .eof⟩, Sink.reliable, fun _ => none, fun _ => none, fun _ => none, fun _ => none, some 1⟩

theorem setups_converge_noRestart :
    (setupRuntime emptyCriCodec { Host.noRestart with restart := none }
      (setupRuntime emptyCriCodec .noRestart emptyCriNode).2).2.loaded = some patchedToml := by
  have hstep : (setups emptyCriCodec Host.Intact emptyCriNode).Reachable
      (setupRuntime emptyCriCodec .noRestart emptyCriNode).2 :=
    (System.Reachable.of_init rfl).step ⟨.noRestart, fun _ => rfl, rfl⟩
  rw [(setups_converge emptyCriNode_configToml emptyCri_settles hstep).2 _
    ⟨rfl, rfl, rfl, rfl, rfl⟩]

end DraEnv.Containerd
