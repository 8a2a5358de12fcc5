import DraEnv.Containerd.Node

/-!
The setup script, one call at a time.

A pod can be killed between any two calls of the script and in the middle
of a write, and whatever else runs on the node comes in between. So the
script is taken apart into its calls: what it knows from the calls it has
made is its phase, and the files are those of the node at the time.

On a node it has to itself, nothing is gained by stopping it at a bad moment:
wherever it is stopped, it leaves the node as a run of `setupRuntime`
would on which some call failed, and the runs that come to their end are the
runs of `setupRuntime` (`calls_refine`). So scripts that are killed and started
again, one at a time, lead where whole runs one after the other do
(`scripts_sequential`).
-/

namespace DraEnv.Containerd

open DraEnv.GoStd DraEnv.Foundation

variable {σ ε : Type}

/-! ### Calls -/

inductive Phase where
  /-- Before `os.Lstat` -/
  | starting
  /-- Before `os.ReadFile` -/
  | found (mode : UInt32)
  | read (mode : UInt32) (inData : Bytes)
  /-- Before `os.WriteFile` opens the file -/
  | patched (mode : UInt32) (outData : Bytes)
  /-- In `os.WriteFile`, some bytes of which are written -/
  | writing (outData : Bytes) (n : Nat)
  /-- The program has exited with 0. -/
  | restarting
  | ended (status : Nat)

/-- The phases in which a call of the program can fail. -/
def Phase.Fallible : Phase → Prop
  | .starting | .found _ | .patched _ _ | .writing _ _ => True
  | .read _ _ | .restarting | .ended _ => False

/-- Opening with `O_CREATE` and `O_TRUNC`. -/
def Node.create (node : Node) (perm : UInt32) : Node :=
  ⟨Function.update node.files configToml
    (some ⟨((node.files configToml).map File.mode).getD perm, []⟩), node.loaded⟩

/-- Writing at an offset, which may be behind the end. -/
def writeAt (data : Bytes) (n : Nat) (chunk : Bytes) : Bytes :=
  (data ++ List.replicate (n - data.length) 0).take n ++ chunk ++ data.drop (n + chunk.length)

/-- One call of the script, or what the program does between two calls. -/
inductive Call (toml : Toml σ ε) : Phase × Node → Phase × Node → Prop
  | lstat {node : Node} {file : File} (hfile : node.files configToml = some file) :
      Call toml (.starting, node) (.found file.mode, node)
  | readFile {node : Node} {mode : UInt32} {file : File}
      (hfile : node.files configToml = some file) :
      Call toml (.found mode, node) (.read mode file.data, node)
  | stream {node : Node} {mode : UInt32} {inData outData : Bytes}
      (hstream : configStream toml ⟨[inData], .eof⟩ Sink.reliable [] = (none, outData)) :
      Call toml (.read mode inData, node) (.patched mode outData, node)
  | streamFails {node : Node} {mode : UInt32} {inData outData : Bytes} {err : ConfigError ε}
      (hstream : configStream toml ⟨[inData], .eof⟩ Sink.reliable [] = (some err, outData)) :
      Call toml (.read mode inData, node) (.ended 0, node)
  | openFile {node : Node} {mode : UInt32} {outData : Bytes} :
      Call toml (.patched mode outData, node) (.writing outData 0, node.create mode)
  | write {node : Node} {file : File} {outData chunk : Bytes} {n : Nat}
      (hfile : node.files configToml = some file) (hchunk : chunk <+: outData.drop n) :
      Call toml (.writing outData n, node)
        (.writing outData (n + chunk.length), node.withText file (writeAt file.data n chunk))
  | written {node : Node} {outData : Bytes} :
      Call toml (.writing outData outData.length, node) (.restarting, node)
  /-- The program exits with 127, which the script takes for an answer. -/
  | fails {node : Node} {phase : Phase} (hfallible : phase.Fallible) :
      Call toml (phase, node) (.ended 0, node)
  | restart {node : Node} :
      Call toml (.restarting, node)
        (.ended 0, ⟨node.files, (node.files configToml).map File.data⟩)
  | restartFails {node : Node} {status : Nat} (hstatus : status ≠ 0) :
      Call toml (.restarting, node) (.ended status, node)

/-- The script on a node that nothing else changes. -/
def calls (toml : Toml σ ε) (node₀ : Node) : System (Phase × Node) where
  init s := s = (.starting, node₀)
  step := Call toml

/-! ### Where a run can be stopped -/

/-- A host on which every call works, but for the write and the restart. -/
def hostWith (write : Option (Nat × GoError)) (restart : Option Nat) : Host :=
  ⟨⟨[], .eof⟩, Sink.reliable, fun _ => none, fun _ => none, fun _ => none, fun _ => write, restart⟩

/-- A host without the file. -/
def Host.unfound : Host :=
  ⟨⟨[], .eof⟩, Sink.reliable, fun _ => some errNotExist, fun _ => none, fun _ => none,
    fun _ => none, none⟩

theorem setupRuntime_unfound (toml : Toml σ ε) (node : Node) :
    setupRuntime toml .unfound node = (0, node) := by
  simp [setupRuntime, main_configToml, configInplace, Host.osLstat, Host.unfound]

section

variable {toml : Toml σ ε} {node : Node} {file : File} {text : Bytes}

theorem configStream_patches {data : Bytes} (hpatches : Patches toml data text) :
    configStream toml ⟨[data], .eof⟩ Sink.reliable [] = (none, text) := by
  obtain ⟨conf, hconf, htext⟩ := hpatches
  rw [configStream_ok (readAll_buffer data) hconf htext
    (congrArg Prod.fst (Sink.write_reliable [] text))]
  simp

theorem setupRuntime_torn (hfile : node.files configToml = some file)
    (hpatches : Patches toml file.data text) (n : Nat) (err : GoError) :
    setupRuntime toml (hostWith (some (n, err)) none) node =
      (0, node.withText file (text.take n)) := by
  simp [setupRuntime, main_configToml, configInplace, Host.osLstat, Host.osReadFile,
    Host.osWriteFile, hostWith, hfile, configStream_patches hpatches, Node.withText]

theorem setupRuntime_notRestarted (hfile : node.files configToml = some file)
    (hpatches : Patches toml file.data text) (status : Nat) :
    setupRuntime toml (hostWith none (some status)) node = (status, node.withText file text) := by
  simp [setupRuntime, main_configToml, configInplace, Host.osLstat, Host.osReadFile,
    Host.osWriteFile, hostWith, hfile, configStream_patches hpatches, Node.withText]

theorem setupRuntime_restarted (hfile : node.files configToml = some file)
    (hpatches : Patches toml file.data text) :
    setupRuntime toml (hostWith none none) node =
      (0, ⟨(node.withText file text).files, some text⟩) :=
  setupRuntime_works ⟨rfl, rfl, rfl, rfl, rfl⟩ hfile hpatches

end

/-- A run in the middle, on a node that was as in `before` when it started. -/
inductive Midway (toml : Toml σ ε) (before : Node) : Phase × Node → Prop
  | starting : Midway toml before (.starting, before)
  | found {mode : UInt32} : Midway toml before (.found mode, before)
  | read {mode : UInt32} {file : File} (hfile : before.files configToml = some file) :
      Midway toml before (.read mode file.data, before)
  | patched {mode : UInt32} {file : File} {text : Bytes}
      (hfile : before.files configToml = some file) (hpatches : Patches toml file.data text) :
      Midway toml before (.patched mode text, before)
  | writing {file : File} {text : Bytes} {n : Nat}
      (hfile : before.files configToml = some file) (hpatches : Patches toml file.data text)
      (hn : n ≤ text.length) :
      Midway toml before (.writing text n, before.withText file (text.take n))
  | restarting {file : File} {text : Bytes}
      (hfile : before.files configToml = some file) (hpatches : Patches toml file.data text) :
      Midway toml before (.restarting, before.withText file text)
  | ended {host : Host} {status : Nat} {node : Node} (hrestart : host.restart ≠ some 0)
      (hsetup : setupRuntime toml host before = (status, node)) :
      Midway toml before (.ended status, node)

def Phase.Ended (phase : Phase) : Prop := ∃ status, phase = .ended status

/-- Stopping a run is a failure of one of its calls. -/
theorem Midway.setup {toml : Toml σ ε} {before node : Node} {phase : Phase}
    (h : Midway toml before (phase, node)) :
    ∃ host : Host, host.restart ≠ some 0 ∧ (¬ phase.Ended → ¬ host.Works) ∧
      node = (setupRuntime toml host before).2 := by
  have huntouched : ∃ host : Host, host.restart ≠ some 0 ∧ (¬ phase.Ended → ¬ host.Works) ∧
      before = (setupRuntime toml host before).2 := by
    refine ⟨.unfound, by simp [Host.unfound], fun _ hworks => ?_, by rw [setupRuntime_unfound]⟩
    cases hworks.lstat
  cases h with
  | starting => exact huntouched
  | found => exact huntouched
  | read => exact huntouched
  | patched => exact huntouched
  | @writing _ _ n hfile hpatches _ =>
      refine ⟨hostWith (some (n, .eof)) none, by simp [hostWith], fun _ hworks => ?_,
        by rw [setupRuntime_torn hfile hpatches]⟩
      cases hworks.write
  | restarting hfile hpatches =>
      refine ⟨hostWith none (some 1), by simp [hostWith], fun _ hworks => ?_,
        by rw [setupRuntime_notRestarted hfile hpatches]⟩
      cases hworks.restart
  | ended hrestart hsetup =>
      exact ⟨_, hrestart, fun hmidway => absurd ⟨_, rfl⟩ hmidway, by rw [hsetup]⟩

/-- An error of the program before it opens the file. -/
theorem midway_untouched (toml : Toml σ ε) (before : Node) :
    Midway toml before (.ended 0, before) :=
  .ended (by simp [Host.unfound]) (setupRuntime_unfound toml before)

theorem writeAt_take {text chunk : Bytes} {n : Nat} (hn : n ≤ text.length)
    (hchunk : chunk <+: text.drop n) :
    writeAt (text.take n) n chunk = text.take (n + chunk.length) := by
  have hlength : (text.take n).length = n := List.length_take_of_le hn
  have htake : chunk = (text.drop n).take chunk.length := List.prefix_iff_eq_take.mp hchunk
  rw [writeAt, hlength, Nat.sub_self, List.replicate_zero, List.append_nil, List.take_take,
    Nat.min_self, List.drop_eq_nil_of_le (by omega), List.append_nil, List.take_add, ← htake]

theorem Node.withText_withText (node : Node) (file : File) (text text' : Bytes) :
    (node.withText file text).withText ⟨file.mode, text⟩ text' = node.withText file text' := by
  simp only [Node.withText, Function.update_idem]

theorem Midway.call {toml : Toml σ ε} {before : Node} {s s' : Phase × Node}
    (h : Midway toml before s) (hcall : Call toml s s') : Midway toml before s' := by
  cases hcall with
  | lstat => cases h with | starting => exact .found
  | readFile hfile => cases h with | found => exact .read hfile
  | stream hstream =>
      cases h with
      | read hfile => exact .patched hfile (patches_of_configStream hstream)
  | streamFails => cases h with | read => exact midway_untouched toml before
  | openFile =>
      cases h with
      | patched hfile hpatches =>
          have hcreate := Midway.writing hfile hpatches (Nat.zero_le _)
          rw [List.take_zero, Node.withText] at hcreate
          rw [Node.create, hfile]
          exact hcreate
  | write hfile hchunk =>
      cases h with
      | writing hbefore hpatches hn =>
          rw [Node.withText_configToml] at hfile
          obtain rfl := Option.some.inj hfile
          rw [Node.withText_withText, writeAt_take hn hchunk]
          have hlength := hchunk.length_le
          rw [List.length_drop] at hlength
          exact .writing hbefore hpatches (by omega)
  | written =>
      cases h with
      | writing hfile hpatches _ =>
          rw [List.take_length]
          exact .restarting hfile hpatches
  | fails hfallible =>
      cases h with
      | starting => exact midway_untouched toml before
      | found => exact midway_untouched toml before
      | patched => exact midway_untouched toml before
      | writing hfile hpatches _ =>
          exact .ended (by simp [hostWith]) (setupRuntime_torn hfile hpatches _ .eof)
      | read => exact hfallible.elim
      | restarting => exact hfallible.elim
      | ended => exact hfallible.elim
  | restart =>
      cases h with
      | restarting hfile hpatches =>
          rw [Node.withText_configToml]
          exact .ended (by simp [hostWith]) (setupRuntime_restarted hfile hpatches)
  | restartFails hstatus =>
      cases h with
      | restarting hfile hpatches =>
          exact .ended (by simpa [hostWith] using hstatus)
            (setupRuntime_notRestarted hfile hpatches _)

theorem midway {toml : Toml σ ε} {before : Node} {s : Phase × Node}
    (h : (calls toml before).Reachable s) : Midway toml before s := by
  refine h.invariant ?_ fun _ _ _ hmidway hcall => hmidway.call hcall
  rintro s rfl
  exact .starting

/-! ### Every run of the script is made of its calls -/

section

variable {toml : Toml σ ε} {node : Node} {file : File} {text : Bytes}

/-- As far as the first `n` bytes of the write. -/
theorem reachable_writing (hfile : node.files configToml = some file)
    (hpatches : Patches toml file.data text) (n : Nat) :
    (calls toml node).Reachable
      (.writing text (text.take n).length, node.withText file (text.take n)) := by
  have hstarting : (calls toml node).Reachable (.starting, node) := .of_init rfl
  have hread := (hstarting.step (Call.lstat hfile)).step (Call.readFile hfile)
  have hpatched : (calls toml node).Reachable (.patched file.mode text, node) :=
    hread.step (.stream (configStream_patches hpatches))
  have hopened : (calls toml node).Reachable (.writing text 0, node.withText file []) := by
    have hstep := hpatched.step Call.openFile
    rw [Node.create, hfile] at hstep
    exact hstep
  have hstep := hopened.step
    (Call.write (node.withText_configToml file []) (List.take_prefix n text))
  rw [Node.withText_withText, Nat.zero_add] at hstep
  have hwrite := writeAt_take (Nat.zero_le _) (List.take_prefix n text)
  rw [List.take_zero, Nat.zero_add, List.length_take, ← List.take_eq_take_min] at hwrite
  rwa [hwrite] at hstep

theorem reachable_restarting (hfile : node.files configToml = some file)
    (hpatches : Patches toml file.data text) :
    (calls toml node).Reachable (.restarting, node.withText file text) := by
  have hwritten := reachable_writing hfile hpatches text.length
  rw [List.take_length] at hwritten
  exact hwritten.step Call.written

end

theorem reachable_setupRuntime (toml : Toml σ ε) {host : Host} (hrestart : host.restart ≠ some 0)
    (node : Node) :
    (calls toml node).Reachable
      (.ended (setupRuntime toml host node).1, (setupRuntime toml host node).2) := by
  have houtcome := setupOutcome toml host node
  generalize setupRuntime toml host node = result at houtcome ⊢
  cases houtcome with
  | untouched => exact System.Reachable.step (.of_init rfl) (Call.fails (by trivial))
  | torn hfile hpatches _ =>
      exact (reachable_writing hfile hpatches _).step (Call.fails (by trivial))
  | notRestarted hfile hpatches hstatus =>
      refine (reachable_restarting hfile hpatches).step (Call.restartFails fun hzero => ?_)
      exact hrestart (hzero ▸ hstatus)
  | restarted hfile hpatches =>
      have hstep := (reachable_restarting hfile hpatches).step Call.restart
      rw [Node.withText_configToml] at hstep
      exact hstep

/-- Wherever the script is stopped, the node is left as by a run on which a call failed;
and the runs that end are the runs there are. -/
theorem calls_refine (toml : Toml σ ε) (node₀ : Node) :
    (∀ phase node, (calls toml node₀).Reachable (phase, node) →
      ∃ host : Host, (¬ phase.Ended → ¬ host.Works) ∧ node = (setupRuntime toml host node₀).2) ∧
    ∀ status node, (calls toml node₀).Reachable (.ended status, node) ↔
      ∃ host : Host, host.restart ≠ some 0 ∧ setupRuntime toml host node₀ = (status, node) := by
  refine ⟨fun phase node h => ?_, fun status node => ⟨fun h => ?_, ?_⟩⟩
  · obtain ⟨host, -, hfailed, hnode⟩ := (midway h).setup
    exact ⟨host, hfailed, hnode⟩
  · cases midway h with
    | ended hrestart hsetup => exact ⟨_, hrestart, hsetup⟩
  · rintro ⟨host, hrestart, hsetup⟩
    have hreach := reachable_setupRuntime toml hrestart node₀
    rwa [hsetup] at hreach

/-! ### One script after the other -/

/-- What scripts do to a node that runs one of them at a time. -/
inductive ScriptStep (toml : Toml σ ε) : Option Phase × Node → Option Phase × Node → Prop
  | start {node : Node} : ScriptStep toml (none, node) (some .starting, node)
  | call {phase phase' : Phase} {node node' : Node}
      (hcall : Call toml (phase, node) (phase', node')) :
      ScriptStep toml (some phase, node) (some phase', node')
  /-- The script has ended, or it is killed wherever it is. -/
  | gone {phase : Phase} {node : Node} : ScriptStep toml (some phase, node) (none, node)

def scripts (toml : Toml σ ε) (node₀ : Node) : System (Option Phase × Node) where
  init s := s = (none, node₀)
  step := ScriptStep toml

/-- A script that has the node to itself makes its calls. -/
theorem reachable_calls {toml : Toml σ ε} {node₀ node : Node}
    (h : (scripts toml node₀).Reachable (none, node)) {s : Phase × Node}
    (hcalls : (calls toml node).Reachable s) :
    (scripts toml node₀).Reachable (some s.1, s.2) := by
  refine hcalls.invariant (P := fun s => (scripts toml node₀).Reachable (some s.1, s.2)) ?_ ?_
  · rintro s rfl
    exact h.step .start
  · exact fun s s' _ hs hcall => hs.step (.call hcall)

/-- The node has been through whole runs, after which there is no script or one that is
midway. -/
inductive Sequential (toml : Toml σ ε) (node₀ : Node) : Option Phase × Node → Prop
  | idle {node : Node}
      (hruns : (setups toml (fun host => host.restart ≠ some 0) node₀).Reachable node) :
      Sequential toml node₀ (none, node)
  | midway {before node : Node} {phase : Phase}
      (hruns : (setups toml (fun host => host.restart ≠ some 0) node₀).Reachable before)
      (hmidway : Midway toml before (phase, node)) : Sequential toml node₀ (some phase, node)

/-- A script that is gone has been a run, on a host of its own. -/
theorem Sequential.runs {toml : Toml σ ε} {node₀ node : Node} {script : Option Phase}
    (h : Sequential toml node₀ (script, node)) :
    (setups toml (fun host => host.restart ≠ some 0) node₀).Reachable node := by
  cases h with
  | idle hruns => exact hruns
  | midway hruns hmidway =>
      obtain ⟨host, hrestart, -, hnode⟩ := hmidway.setup
      exact hruns.step ⟨host, hrestart, hnode⟩

theorem Sequential.step {toml : Toml σ ε} {node₀ : Node} {s s' : Option Phase × Node}
    (h : Sequential toml node₀ s) (hstep : ScriptStep toml s s') : Sequential toml node₀ s' := by
  cases hstep with
  | start => exact .midway h.runs .starting
  | call hcall =>
      cases h with
      | midway hruns hmidway => exact .midway hruns (hmidway.call hcall)
  | gone => exact .idle h.runs

/-- However often the script is started, and wherever it is killed, the node gets where
whole runs one after the other can bring it, and nowhere else. -/
theorem scripts_sequential (toml : Toml σ ε) (node₀ node : Node) :
    (∃ script, (scripts toml node₀).Reachable (script, node)) ↔
      (setups toml (fun host => host.restart ≠ some 0) node₀).Reachable node := by
  constructor
  · rintro ⟨script, h⟩
    have hsequential : Sequential toml node₀ (script, node) := by
      refine h.invariant ?_ fun _ _ _ hs hstep => hs.step hstep
      rintro s rfl
      exact .idle (.of_init rfl)
    exact hsequential.runs
  · intro h
    refine ⟨none, h.invariant (P := fun node => (scripts toml node₀).Reachable (none, node)) ?_ ?_⟩
    · rintro node rfl
      exact .of_init rfl
    · rintro node _ - hnode ⟨host, hrestart, rfl⟩
      exact (reachable_calls hnode (reachable_setupRuntime toml hrestart node)).step .gone

end DraEnv.Containerd
