import DraEnv.GoStd.Stream

/-!
The containerd configuration patch of `setup/pkg/containerd`.

A configuration is read as a tree of Go maps, patched in place and
written again. A map is modelled as the function from its keys to the
values it holds, and a change made through a reference to an inner map
as a new inner map put back under its key. The TOML library is a pair of
functions.
-/

namespace DraEnv.Containerd

open DraEnv.GoStd

/-- The values under an `any`: what `go-toml` decodes into, and the `[]string` the
patch itself puts there. Numbers and times are left to `σ`. -/
inductive Value (σ : Type) where
  /-- `map[string]any` -/
  | table (entries : GoString → Option (Value σ))
  /-- `[]any` -/
  | array (items : List (Value σ))
  /-- `[]string` -/
  | strings (items : List GoString)
  | str (s : GoString)
  | bool (b : Bool)
  | scalar (x : σ)

abbrev Table (σ : Type) := GoString → Option (Value σ)

variable {σ ε : Type}

/-- `node[key] = value` -/
def Table.set (node : Table σ) (key : GoString) (value : Value σ) : Table σ :=
  Function.update node key (some value)

/-- A map literal; its keys are distinct. -/
def mapLiteral (entries : List (GoString × Value σ)) : Table σ :=
  fun key => (entries.find? (·.1 == key)).map Prod.snd

def getMap (node : Table σ) (key : GoString) : Option (Table σ) :=
  match node key with
  | none => none
  | some subNode =>
      match subNode with
      | .table subMap => some subMap
      | _ => none

def pluginsKey : GoString := lit "plugins"

def nriKey : GoString := lit "io.containerd.nri.v1.nri"

def criKey : GoString := lit "io.containerd.grpc.v1.cri"

def nriTable : Table σ :=
  mapLiteral
    [(lit "disable", .bool false),
      (lit "disable_connections", .bool false),
      (lit "plugin_config_path", .str (lit "/etc/nri/conf.d")),
      (lit "plugin_path", .str (lit "/opt/nri/plugins")),
      (lit "plugin_registration_timeout", .str (lit "5s")),
      (lit "plugin_request_timeout", .str (lit "5s")),
      (lit "socket_path", .str (lit "/var/run/nri/nri.sock"))]

def processNRI (plugins : Table σ) : Table σ := plugins.set nriKey (.table nriTable)

def processCDI (cri : Table σ) : Table σ :=
  (cri.set (lit "enable_cdi") (.bool true)).set (lit "cdi_spec_dirs")
    (.strings [lit "/etc/cdi", lit "/var/run/cdi"])

def processHugepages (cri : Table σ) : Table σ :=
  (cri.set (lit "tolerate_missing_hugetlb_controller") (.bool false)).set
    (lit "disable_hugetlb_controller") (.bool false)

/-- The part of `process` that works on the plugins. -/
def processPlugins (plugins : Table σ) : Table σ :=
  let plugins := processNRI plugins
  match getMap plugins criKey with
  | none => plugins
  | some cri => plugins.set criKey (.table (processHugepages (processCDI cri)))

def process (conf : Table σ) : Table σ :=
  match getMap conf pluginsKey with
  | none => conf
  | some plugins => conf.set pluginsKey (.table (processPlugins plugins))

/-! ### The stream -/

/-- `toml.Unmarshal` into a `map[string]any`, and `toml.Marshal`. -/
structure Toml (σ ε : Type) where
  unmarshal : Bytes → Except ε (Table σ)
  marshal : Table σ → Except ε Bytes

inductive ConfigError (ε : Type) where
  | stream (err : GoError)
  | toml (err : ε)

/-- The error `ConfigStream` returns, and what `dst` has been given in all. -/
def configStream (toml : Toml σ ε) (src : Conn) (dst : Sink) (delivered : Bytes) :
    Option (ConfigError ε) × Bytes :=
  match src.readAll with
  | .error err => (some (.stream err), delivered)
  | .ok data =>
      match toml.unmarshal data with
      | .error err => (some (.toml err), delivered)
      | .ok conf =>
          match toml.marshal (process conf) with
          | .error err => (some (.toml err), delivered)
          | .ok b =>
              match dst.write delivered b with
              | (.error err, delivered) => (some (.stream err), delivered)
              | (.ok (), delivered) => (none, delivered)

end DraEnv.Containerd
