import DraEnv.Containerd.Config
import DraEnv.Foundation.LastWrite

/-!
What the configuration patch changes, and that a second run changes
nothing.

The patch works on a table inside a table, and both levels follow one
pattern: where there is a table under a key, change that table
(`atTable`). What such a change leaves alone is read off the path to a
value (`Frame`), and the descriptions of the two levels compose.

A second run does not start from the tree the first one ended with. It
reads the tree back from its text, and reading turns the string slice
the patch put there into a generic slice. The tree is the same
everywhere else and the patch overwrites the slice again, so the two
runs still end alike (`process_reread`); a second call on the same tree
is the special case in which reading changes nothing.
-/

namespace DraEnv.Containerd

open DraEnv.Foundation DraEnv.GoStd

variable {σ ε : Type}

/-! ### Changing a table inside a table -/

/-- Where there is a table under the key, change it. -/
def atTable (key : GoString) (f : Table σ → Table σ) (node : Table σ) : Table σ :=
  match getMap node key with
  | none => node
  | some sub => node.set key (.table (f sub))

/-- The four settings of the CRI table. -/
def processCri (cri : Table σ) : Table σ := processHugepages (processCDI cri)

theorem process_eq (conf : Table σ) : process conf = atTable pluginsKey processPlugins conf := rfl

theorem processPlugins_eq (plugins : Table σ) :
    processPlugins plugins = atTable criKey processCri (processNRI plugins) := rfl

theorem Table.set_self (node : Table σ) (key : GoString) (value : Value σ) :
    node.set key value key = some value := Function.update_self _ _ _

theorem Table.set_of_ne (node : Table σ) {key key' : GoString} (value : Value σ)
    (h : key' ≠ key) : node.set key value key' = node key' := Function.update_of_ne h _ _

theorem Table.set_eq_self {node : Table σ} {key : GoString} {value : Value σ}
    (h : node key = some value) : node.set key value = node := by
  rw [Table.set, ← h, Function.update_eq_self]

theorem getMap_eq_some {node sub : Table σ} {key : GoString} :
    getMap node key = some sub ↔ node key = some (.table sub) := by
  unfold getMap
  cases node key with
  | none => simp
  | some subNode => cases subNode <;> simp

theorem atTable_of_some {node sub : Table σ} {key : GoString} (f : Table σ → Table σ)
    (h : node key = some (.table sub)) : atTable key f node = node.set key (.table (f sub)) := by
  rw [atTable, getMap_eq_some.mpr h]

theorem atTable_of_none {node : Table σ} {key : GoString} (f : Table σ → Table σ)
    (h : getMap node key = none) : atTable key f node = node := by
  rw [atTable, h]

theorem atTable_of_ne (f : Table σ → Table σ) (node : Table σ) {key key' : GoString}
    (h : key' ≠ key) : atTable key f node key' = node key' := by
  cases hget : getMap node key with
  | none => rw [atTable_of_none f hget]
  | some sub =>
      rw [atTable_of_some f (getMap_eq_some.mp hget)]
      exact node.set_of_ne _ h

/-! ### Paths -/

/-- The value at a path of keys. -/
def Value.get : List GoString → Value σ → Option (Value σ)
  | [], value => some value
  | key :: path, .table entries => (entries key).bind (Value.get path)
  | _ :: _, _ => none

def lookup (conf : Table σ) (path : List GoString) : Option (Value σ) := (Value.table conf).get path

/-- What is at the end of a path: a value, or a table, whose entries are at the
ends of longer paths. -/
def Value.node : Value σ → Option (Value σ)
  | .table _ => none
  | value => some value

/-- Outside `touched` every path is there or not as before and leads to what it led
to. -/
def Frame (touched : List GoString → Prop) (t t' : Table σ) : Prop :=
  ∀ path, ¬ touched path → (lookup t' path).map Value.node = (lookup t path).map Value.node

theorem Frame.mono {touched touched' : List GoString → Prop} {t t' : Table σ}
    (h : Frame touched t t') (hsub : ∀ path, touched path → touched' path) : Frame touched' t t' :=
  fun path hpath => h path fun ht => hpath (hsub path ht)

theorem Frame.trans {touched₁ touched₂ : List GoString → Prop} {t t₁ t₂ : Table σ}
    (h₁ : Frame touched₁ t t₁) (h₂ : Frame touched₂ t₁ t₂) :
    Frame (fun path => touched₁ path ∨ touched₂ path) t t₂ := by
  intro path hpath
  rw [not_or] at hpath
  exact (h₂ path hpath.2).trans (h₁ path hpath.1)

theorem frame_set (node : Table σ) (key : GoString) (value : Value σ) :
    Frame (fun path => [key] <+: path) node (node.set key value) := by
  intro path hpath
  cases path with
  | nil => rfl
  | cons key' path =>
      have hne : key' ≠ key := by
        rintro rfl
        exact hpath ⟨path, rfl⟩
      simp only [lookup, Value.get, node.set_of_ne value hne]

/-- A change inside a table is seen below its key only. -/
theorem frame_atTable {touched : List GoString → Prop} {f : Table σ → Table σ}
    (hf : ∀ sub, Frame touched sub (f sub)) (key : GoString) (node : Table σ) :
    Frame (fun path => ∃ rest, path = key :: rest ∧ touched rest) node (atTable key f node) := by
  intro path hpath
  cases hget : getMap node key with
  | none => rw [atTable_of_none f hget]
  | some sub =>
      have hkey := getMap_eq_some.mp hget
      rw [atTable_of_some f hkey]
      cases path with
      | nil => rfl
      | cons key' path =>
          by_cases hne : key' = key
          · subst hne
            simp only [lookup, Value.get, node.set_self, hkey, Option.bind_some]
            exact hf sub path fun htouched => hpath ⟨path, rfl, htouched⟩
          · simp only [lookup, Value.get, node.set_of_ne _ hne]

/-! ### The keys of the patch -/

def nriPath : List GoString := [pluginsKey, nriKey]

def criPath : List GoString := [pluginsKey, criKey]

/-- What is set in the CRI table. -/
def criSettings : List (GoString × Value σ) :=
  [(lit "enable_cdi", .bool true),
    (lit "cdi_spec_dirs", .strings [lit "/etc/cdi", lit "/var/run/cdi"]),
    (lit "tolerate_missing_hugetlb_controller", .bool false),
    (lit "disable_hugetlb_controller", .bool false)]

def criKeys : List GoString :=
  [lit "enable_cdi", lit "cdi_spec_dirs", lit "tolerate_missing_hugetlb_controller",
    lit "disable_hugetlb_controller"]

/-- At or below the NRI table or one of the four settings. -/
def Touched (path : List GoString) : Prop :=
  nriPath <+: path ∨ ∃ key ∈ criKeys, criPath ++ [key] <+: path

/-- The settings are a log of writes, in which each key occurs once. -/
theorem processCri_apply (cri : Table σ) (key : GoString) :
    processCri cri key = (contents criSettings key).or (cri key) :=
  foldl_put criSettings cri key

theorem processCri_of_setting (cri : Table σ) {setting : GoString × Value σ}
    (h : setting ∈ criSettings) : processCri cri setting.1 = some setting.2 := by
  rw [processCri_apply]
  simp only [criSettings, List.mem_cons, List.not_mem_nil, or_false] at h
  rcases h with rfl | rfl | rfl | rfl <;> rfl

theorem processCri_of_other (cri : Table σ) {key : GoString} (h : key ∉ criKeys) :
    processCri cri key = cri key := by
  have hnone : contents (criSettings : List (GoString × Value σ)) key = none := by
    rw [contents_eq_none, keys, List.mem_toFinset]
    exact h
  rw [processCri_apply, hnone, Option.none_or]

theorem frame_processCri (cri : Table σ) :
    Frame (fun path => ∃ key ∈ criKeys, [key] <+: path) cri (processCri cri) := by
  intro path hpath
  cases path with
  | nil => rfl
  | cons key path =>
      have hother : key ∉ criKeys := fun hkey => hpath ⟨key, hkey, path, rfl⟩
      simp only [lookup, Value.get, processCri_of_other cri hother]

theorem frame_process (conf : Table σ) : Frame Touched conf (process conf) := by
  have hplugins : ∀ plugins : Table σ, Frame
      (fun path => [nriKey] <+: path ∨
        ∃ rest, path = criKey :: rest ∧ ∃ key ∈ criKeys, [key] <+: rest)
      plugins (processPlugins plugins) :=
    fun plugins => (frame_set plugins nriKey _).trans (frame_atTable frame_processCri criKey _)
  refine (frame_atTable hplugins pluginsKey conf).mono ?_
  rintro path ⟨rest, rfl, hnri | ⟨rest, rfl, key, hkey, hpath⟩⟩
  · exact Or.inl (List.cons_prefix_cons.mpr ⟨rfl, hnri⟩)
  · exact Or.inr ⟨key, hkey, List.cons_prefix_cons.mpr ⟨rfl, List.cons_prefix_cons.mpr
      ⟨rfl, hpath⟩⟩⟩

/-- No path leads on through what is not a table. -/
theorem lookup_of_none {node : Table σ} {key : GoString} (h : getMap node key = none)
    (key' : GoString) (path : List GoString) : lookup node (key :: key' :: path) = none := by
  rw [lookup, Value.get]
  unfold getMap at h
  cases hkey : node key with
  | none => rfl
  | some value =>
      rw [hkey] at h
      cases value with
      | table sub => simp at h
      | _ => rfl

theorem lookup_of_some {node sub : Table σ} {key : GoString} (h : node key = some (.table sub))
    (path : List GoString) : lookup node (key :: path) = lookup sub path := by
  rw [lookup, Value.get, h, Option.bind_some, lookup]

theorem lookup_atTable {node sub : Table σ} {key : GoString} (f : Table σ → Table σ)
    (h : getMap node key = some sub) (path : List GoString) :
    lookup (atTable key f node) (key :: path) = lookup (f sub) path := by
  rw [atTable_of_some f (getMap_eq_some.mp h)]
  exact lookup_of_some (node.set_self key _) path

theorem lookup_singleton (node : Table σ) (key : GoString) : lookup node [key] = node key := by
  rw [lookup, Value.get]
  cases node key with
  | none => rfl
  | some value => rfl

/-- The NRI table is set exactly where the plugins are a table. -/
theorem lookup_nriPath (conf : Table σ) :
    lookup (process conf) nriPath = some (.table nriTable) ↔
      (getMap conf pluginsKey).isSome := by
  rw [process_eq, nriPath]
  cases hplugins : getMap conf pluginsKey with
  | none =>
      rw [atTable_of_none _ hplugins, lookup_of_none hplugins]
      simp
  | some plugins =>
      refine iff_of_true ?_ rfl
      rw [lookup_atTable _ hplugins, lookup_singleton, processPlugins_eq,
        atTable_of_ne _ _ (by decide)]
      exact plugins.set_self nriKey _

/-- The four settings are made exactly where the CRI entry of the plugins is a
table as well. -/
theorem lookup_criPath (conf : Table σ) {setting : GoString × Value σ}
    (h : setting ∈ criSettings) :
    lookup (process conf) (criPath ++ [setting.1]) = some setting.2 ↔
      ∃ plugins, getMap conf pluginsKey = some plugins ∧ (getMap plugins criKey).isSome := by
  rw [process_eq, criPath, List.cons_append, List.cons_append, List.nil_append]
  cases hplugins : getMap conf pluginsKey with
  | none =>
      rw [atTable_of_none _ hplugins, lookup_of_none hplugins]
      simp
  | some plugins =>
      have hsame : getMap (processNRI plugins) criKey = getMap plugins criKey := by
        rw [getMap, getMap, processNRI, plugins.set_of_ne _ (by decide)]
      rw [lookup_atTable _ hplugins, processPlugins_eq]
      simp only [Option.some.injEq, exists_eq_left']
      cases hcri : getMap plugins criKey with
      | none =>
          rw [hcri] at hsame
          rw [atTable_of_none _ hsame, lookup_of_none hsame]
          simp
      | some cri =>
          rw [hcri] at hsame
          refine iff_of_true ?_ rfl
          rw [lookup_atTable _ hsame, lookup_singleton]
          exact processCri_of_setting cri h

/-! ### Reading back -/

/-- A table read back entry by entry. -/
def mapEntries (γ : Value σ → Value σ) (t : Table σ) : Table σ := fun key => (t key).map γ

/-- A reading that goes through tables and leaves strings and truth values alone. -/
structure Rereads (γ : Value σ → Value σ) : Prop where
  table : ∀ t, γ (.table t) = .table (mapEntries γ t)
  str : ∀ s, γ (.str s) = .str s
  bool : ∀ b, γ (.bool b) = .bool b

theorem mapEntries_id (t : Table σ) : mapEntries id t = t := by
  funext key
  rw [mapEntries, Option.map_id_fun, id_eq]

theorem rereads_id : Rereads (id : Value σ → Value σ) where
  table t := by rw [mapEntries_id, id_eq]
  str _ := rfl
  bool _ := rfl

mutual

/-- What a value is read back as: string slices come back as generic ones. -/
def Value.generic : Value σ → Value σ
  | .table entries => .table fun key => genericEntry (entries key)
  | .array items => .array (genericItems items)
  | .strings items => .array (items.map .str)
  | .str s => .str s
  | .bool b => .bool b
  | .scalar x => .scalar x

def genericEntry : Option (Value σ) → Option (Value σ)
  | none => none
  | some value => some value.generic

def genericItems : List (Value σ) → List (Value σ)
  | [] => []
  | value :: items => value.generic :: genericItems items

end

theorem rereads_generic : Rereads (Value.generic : Value σ → Value σ) where
  table t := by
    rw [Value.generic]
    congr 1
    funext key
    rw [mapEntries]
    cases t key with
    | none => rw [genericEntry, Option.map_none]
    | some value => rw [genericEntry, Option.map_some]
  str s := by rw [Value.generic]
  bool b := by rw [Value.generic]

section Reread

variable {γ : Value σ → Value σ}

theorem mapEntries_set (γ : Value σ → Value σ) (node : Table σ) (key : GoString)
    (value : Value σ) :
    mapEntries γ (node.set key value) = (mapEntries γ node).set key (γ value) := by
  funext key'
  by_cases h : key' = key
  · subst h
    rw [mapEntries, Table.set_self, Table.set_self, Option.map_some]
  · rw [mapEntries, Table.set_of_ne _ _ h, Table.set_of_ne _ _ h, mapEntries]

theorem mapEntries_mapLiteral {entries : List (GoString × Value σ)}
    (h : ∀ entry ∈ entries, γ entry.2 = entry.2) :
    mapEntries γ (mapLiteral entries) = mapLiteral entries := by
  funext key
  rw [mapEntries, mapLiteral]
  cases hfind : entries.find? (·.1 == key) with
  | none => rfl
  | some entry =>
      rw [Option.map_some, Option.map_some, h entry (List.mem_of_find?_eq_some hfind)]

theorem mapEntries_nriTable (hγ : Rereads γ) : mapEntries γ (nriTable : Table σ) = nriTable :=
  mapEntries_mapLiteral (by simp [hγ.str, hγ.bool])

/-- A change of an inner table that survives the reading of the inner table
survives the reading of the outer one. -/
theorem atTable_reread (hγ : Rereads γ) {f : Table σ → Table σ} {node : Table σ} (key : GoString)
    (hf : ∀ sub, mapEntries γ sub = sub → f (mapEntries γ (f sub)) = f sub)
    (hnode : mapEntries γ node = node) :
    atTable key f (mapEntries γ (atTable key f node)) = atTable key f node := by
  cases hget : getMap node key with
  | none => rw [atTable_of_none f hget, hnode, atTable_of_none f hget]
  | some sub =>
      have hkey := getMap_eq_some.mp hget
      have hsub : mapEntries γ sub = sub := by
        have hentry := congrFun hnode key
        rw [mapEntries, hkey, Option.map_some, hγ.table, Option.some.injEq] at hentry
        exact Value.table.inj hentry
      rw [atTable_of_some f hkey, mapEntries_set, hnode, hγ.table,
        atTable_of_some f (node.set_self key _), hf sub hsub]
      exact Function.update_idem _ _ _

theorem processCri_reread {cri : Table σ} (hcri : mapEntries γ cri = cri) :
    processCri (mapEntries γ (processCri cri)) = processCri cri := by
  funext key
  rw [processCri_apply, processCri_apply, mapEntries, processCri_apply]
  cases contents (criSettings : List (GoString × Value σ)) key with
  | some value => rfl
  | none =>
      rw [Option.none_or, Option.none_or]
      exact congrFun hcri key

theorem processPlugins_reread (hγ : Rereads γ) {plugins : Table σ}
    (hplugins : mapEntries γ plugins = plugins) :
    processPlugins (mapEntries γ (processPlugins plugins)) = processPlugins plugins := by
  have hnri : mapEntries γ (processNRI plugins) = processNRI plugins := by
    rw [processNRI, mapEntries_set, hplugins, hγ.table, mapEntries_nriTable hγ]
  -- The NRI table is there already, so setting it again does nothing.
  have hagain : processNRI (mapEntries γ (processPlugins plugins)) =
      mapEntries γ (processPlugins plugins) := by
    refine Table.set_eq_self ?_
    rw [mapEntries, processPlugins_eq, atTable_of_ne _ _ (by decide), processNRI, Table.set_self,
      Option.map_some, hγ.table, mapEntries_nriTable hγ]
  rw [processPlugins_eq (mapEntries γ _), hagain, processPlugins_eq]
  exact atTable_reread hγ criKey (fun _ => processCri_reread) hnri

/-- The patch, applied to its own result as it is read back, gives that result. -/
theorem process_reread (hγ : Rereads γ) {conf : Table σ} (hconf : mapEntries γ conf = conf) :
    process (mapEntries γ (process conf)) = process conf :=
  atTable_reread hγ pluginsKey (fun _ => processPlugins_reread hγ) hconf

end Reread

theorem process_process (conf : Table σ) : process (process conf) = process conf := by
  have h := process_reread rereads_id (mapEntries_id conf)
  rwa [mapEntries_id] at h

/-! ### The stream -/

/-- What is assumed of the library on one configuration: reading yields generic
slices, and what is written for the patched tree is read as that tree. -/
structure Recovers (toml : Toml σ ε) (conf : Table σ) : Prop where
  generic : mapEntries Value.generic conf = conf
  reread : ∀ b, toml.marshal (process conf) = .ok b →
    toml.unmarshal b = .ok (mapEntries Value.generic (process conf))

/-- A run that returns nil has written the text of the patched tree. -/
theorem configStream_cases {toml : Toml σ ε} {src : Conn} {dst : Sink} {before after : Bytes}
    (h : configStream toml src dst before = (none, after)) :
    ∃ data conf b, src.readAll = .ok data ∧ toml.unmarshal data = .ok conf ∧
      toml.marshal (process conf) = .ok b ∧ after = before ++ b := by
  unfold configStream at h
  cases hdata : src.readAll with
  | error err => simp [hdata] at h
  | ok data =>
      cases hconf : toml.unmarshal data with
      | error err => simp [hdata, hconf] at h
      | ok conf =>
          cases hb : toml.marshal (process conf) with
          | error err => simp [hdata, hconf, hb] at h
          | ok b =>
              refine ⟨data, conf, b, rfl, hconf, hb, ?_⟩
              cases hfault : dst.fault before b with
              | some fault => simp [hdata, hconf, hb, Sink.write, hfault] at h
              | none => simpa [hdata, hconf, hb, Sink.write, hfault, eq_comm] using h

theorem configStream_ok {toml : Toml σ ε} {src : Conn} {dst : Sink} {before data b : Bytes}
    {conf : Table σ} (hdata : src.readAll = .ok data) (hconf : toml.unmarshal data = .ok conf)
    (hb : toml.marshal (process conf) = .ok b) (hwrite : (dst.write before b).1 = .ok ()) :
    configStream toml src dst before = (none, before ++ b) := by
  unfold configStream
  cases hfault : dst.fault before b with
  | some fault => simp [Sink.write, hfault] at hwrite
  | none => simp [hdata, hconf, hb, Sink.write, hfault]

/-- The patch on any configuration: what it touches, what it sets, and that neither
a second call nor a second run on its own output changes anything. -/
theorem patch_exact (conf : Table σ) :
    (∀ path, ¬ Touched path →
      (lookup (process conf) path).map Value.node = (lookup conf path).map Value.node) ∧
    (lookup (process conf) nriPath = some (.table nriTable) ↔ (getMap conf pluginsKey).isSome) ∧
    (∀ setting ∈ criSettings,
      lookup (process conf) (criPath ++ [setting.1]) = some setting.2 ↔
        ∃ plugins, getMap conf pluginsKey = some plugins ∧ (getMap plugins criKey).isSome) ∧
    process (process conf) = process conf ∧
    ∀ (toml : Toml σ ε) (src : Conn) (data : Bytes), Recovers toml conf →
      src.readAll = .ok data → toml.unmarshal data = .ok conf →
      ∀ (dst : Sink) (before after : Bytes), configStream toml src dst before = (none, after) →
        ∃ out, after = before ++ out ∧
          ∀ (src' : Conn) (dst' : Sink) (before' : Bytes), src'.readAll = .ok out →
            (dst'.write before' out).1 = .ok () →
            configStream toml src' dst' before' = (none, before' ++ out) := by
  refine ⟨frame_process conf, lookup_nriPath conf, fun setting h => lookup_criPath conf h,
    process_process conf, ?_⟩
  intro toml src data hrecovers hdata hconf dst before after hrun
  obtain ⟨data', conf', out, hdata', hconf', hout, hafter⟩ := configStream_cases hrun
  obtain rfl : data = data' := Except.ok.inj (hdata.symm.trans hdata')
  obtain rfl : conf = conf' := Except.ok.inj (hconf.symm.trans hconf')
  refine ⟨out, hafter, fun src' dst' before' hdata' hwrite => ?_⟩
  refine configStream_ok hdata' (hrecovers.reread out hout) ?_ hwrite
  rw [process_reread rereads_generic hrecovers.generic]
  exact hout

/-- A configuration that has nothing but an empty CRI table. -/
def emptyCri : Table Empty :=
  mapLiteral [(pluginsKey, .table (mapLiteral [(criKey, .table (mapLiteral []))]))]

def emptyCriToml : Bytes := lit "[plugins.'io.containerd.grpc.v1.cri']\n"

@[irreducible] def patchedToml : Bytes :=
  lit "[plugins]\n[plugins.'io.containerd.grpc.v1.cri']\n" ++
    (lit "cdi_spec_dirs = ['/etc/cdi', '/var/run/cdi']\ndisable_hugetlb_controller = false\n" ++
    (lit "enable_cdi = true\ntolerate_missing_hugetlb_controller = false\n\n" ++
    (lit "[plugins.'io.containerd.nri.v1.nri']\ndisable = false\ndisable_connections = false\n" ++
    (lit "plugin_config_path = '/etc/nri/conf.d'\nplugin_path = '/opt/nri/plugins'\n" ++
    (lit "plugin_registration_timeout = '5s'\nplugin_request_timeout = '5s'\n" ++
    lit "socket_path = '/var/run/nri/nri.sock'\n")))))

/-- The library on the two documents. -/
def emptyCriCodec : Toml Empty Unit where
  unmarshal data :=
    if data = emptyCriToml then .ok emptyCri
    else if data = patchedToml then .ok (mapEntries Value.generic (process emptyCri))
    else .error ()
  marshal _ := .ok patchedToml

theorem patchedToml_ne_emptyCriToml : patchedToml ≠ emptyCriToml := by decide +kernel

theorem emptyCri_generic : mapEntries Value.generic emptyCri = emptyCri := by
  have hcri : mapEntries Value.generic (mapLiteral [] : Table Empty) = mapLiteral [] := rfl
  have hplugins : mapEntries Value.generic
      (mapLiteral [(criKey, .table (mapLiteral []))] : Table Empty) =
        mapLiteral [(criKey, .table (mapLiteral []))] :=
    mapEntries_mapLiteral (by simp [rereads_generic.table, hcri])
  exact mapEntries_mapLiteral (by simp [rereads_generic.table, hplugins])

theorem patch_exact_emptyCri :
    configStream emptyCriCodec ⟨[emptyCriToml], .eof⟩ Sink.reliable [] = (none, patchedToml) ∧
      configStream emptyCriCodec ⟨[patchedToml], .eof⟩ Sink.reliable [] = (none, patchedToml) := by
  have hread : ∀ data, (⟨[data], .eof⟩ : Conn).readAll = .ok data := by
    intro data
    simp [Conn.readAll, Conn.bytes]
  have hwrite : ∀ data, (Sink.reliable.write [] data).1 = .ok () := fun _ => rfl
  have hmarshal : ∀ conf, emptyCriCodec.marshal conf = .ok patchedToml := fun _ => rfl
  have hconf : emptyCriCodec.unmarshal emptyCriToml = .ok emptyCri := by
    simp only [emptyCriCodec, if_true]
  have hrecovers : Recovers emptyCriCodec emptyCri := by
    refine ⟨emptyCri_generic, fun b hb => ?_⟩
    obtain rfl : patchedToml = b := Except.ok.inj hb
    simp only [emptyCriCodec, if_neg patchedToml_ne_emptyCriToml, if_true]
  have hfirst := configStream_ok (hread emptyCriToml) hconf (hmarshal _) (hwrite patchedToml)
  obtain ⟨-, -, -, -, hstream⟩ := patch_exact emptyCri
  obtain ⟨out, hout, hagain⟩ := hstream emptyCriCodec _ _ hrecovers (hread _) hconf _ _ _ hfirst
  rw [List.nil_append] at hfirst hout
  subst hout
  have hsecond := hagain _ Sink.reliable [] (hread _) (hwrite patchedToml)
  rw [List.nil_append] at hsecond
  exact ⟨hfirst, hsecond⟩

end DraEnv.Containerd
