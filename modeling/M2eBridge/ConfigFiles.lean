import M2eBridge.Json
import M2eBridge.Lib.Layers

/-!
# The configuration files

`GlobalConfig::load`, and `save_http_gate`, which writes the one file that the HTTP
listener saves itself to. A disk says which file a path names, so that two paths may
name one file, and what reading a file comes to; a relative path is relative to the
working directory. A document stands for its text: parsing the text that `dump`
gives returns the document.
-/

namespace M2eBridge

/-! ## Paths -/

namespace Path

def isRelative (p : String) : Bool := p.toList.head? ≠ some '/'

/-- `parent_path()`. -/
def parentPath (p : String) : String :=
  let dir := (p.toList.reverse.dropWhile (· ≠ '/')).dropWhile (· = '/')
  if dir = [] then if isRelative p then "" else "/" else String.ofList dir.reverse

/-- `dir / p` for a relative `p`. -/
def join (dir p : String) : String :=
  if dir = "" then p else if dir.toList.getLast? = some '/' then dir ++ p else dir ++ "/" ++ p

end Path

/-! ## The disk -/

structure Disk (φ : Type) where
  /-- The file that a path names, whether it exists or not. -/
  file : String → φ
  /-- The document that the text of a file parses to, or the exception for a file
  that can not be opened or parsed. -/
  content : φ → Except Exn Json
  /-- `directory_iterator` over the regular files. -/
  regularFiles : String → Except Exn (List String)

/-- What becomes of a document that is to be written: the file can not be opened,
all of it is written, or the file is cut short and no longer parses. -/
inductive Written where
  | refused
  | whole
  | cutShort (e : Exn)
  deriving DecidableEq, Repr

namespace Disk

variable {φ : Type} [DecidableEq φ]

omit [DecidableEq φ] in
/-- `std::ifstream` and `json::parse`. -/
def read (d : Disk φ) (path : String) : Except Exn Json := d.content (d.file path)

def put (d : Disk φ) (file : φ) (content : Except Exn Json) : Disk φ :=
  { d with content := fun other => if other = file then content else d.content other }

/-- `std::ofstream`. -/
def write (d : Disk φ) (path : String) (j : Json) : Written → Disk φ
  | .refused => d
  | .whole => d.put (d.file path) (.ok j)
  | .cutShort e => d.put (d.file path) (.error e)

theorem read_write_same {d : Disk φ} {path other : String} (same : d.file other = d.file path) (j : Json) :
    (d.write path j .whole).read other = .ok j := if_pos same

theorem read_write_other {d : Disk φ} {path other : String} (different : d.file other ≠ d.file path) (j : Json)
    (written : Written) : (d.write path j written).read other = d.read other := by
  cases written with
  | refused => rfl
  | whole => exact if_neg different
  | cutShort e => exact if_neg different

/-- Every path that can be read on the first disk can be read on the second. -/
structure Readable (d e : Disk φ) : Prop where
  reads : ∀ path j, d.read path = .ok j → ∃ k, e.read path = .ok k
  lists : e.regularFiles = d.regularFiles

/-- A document written whole can be read. -/
theorem readable_write (d : Disk φ) (path : String) (j : Json) : d.Readable (d.write path j .whole) where
  reads := by
    intro other k read
    by_cases same : d.file other = d.file path
    · exact ⟨j, read_write_same same j⟩
    · exact ⟨k, (read_write_other same j .whole).trans read⟩
  lists := rfl

end Disk

/-! ## `GlobalConfig` -/

/-- The members, the pipelines as the documents of their files. -/
structure GlobalConfig where
  config : Json
  configPath : String
  pipelines : List (String × Json)
  httpListener : Json
  sharedObjects : Json
  authbundlesDbPath : String
  convertersDbPath : String
  deriving DecidableEq

namespace GlobalConfig

variable {φ : Type}

/-- A path of the main configuration, relative to the directory that it is in. -/
def resolve (configPath path : String) : String :=
  if Path.isRelative path then Path.join (Path.parentPath configPath) path else path

/-- `_get_config_path`. -/
def getConfigPath (configPath : String) (config : Json) (key : String) : Except Exn String := do
  let path ← (← config.at' key).getString
  .ok (resolve configPath path)

/-- `PipelineConfigs::load_config`. -/
def loadPipelines (disk : Disk φ) (pipelines : List (String × Json)) (path : String) :
    Except Exn (List (String × Json)) := do
  let j ← disk.read path
  .ok (Lib.assign path j pipelines)

/-- The pipelines directory, if the main configuration names one. -/
def loadDirectory (disk : Disk φ) (configPath : String) (config : Json) (pipelines : List (String × Json)) :
    Except Exn (List (String × Json)) :=
  if config.contains "pipelines_dir_path" then do
    let dir ← getConfigPath configPath config "pipelines_dir_path"
    let files ← disk.regularFiles dir
    files.foldlM (loadPipelines disk) pipelines
  else .ok pipelines

def load (disk : Disk φ) (configPath : String) : Except Exn GlobalConfig := do
  let config ← disk.read configPath
  let pipelinesPath ← getConfigPath configPath config "pipelines_path"
  let pipelines ← loadPipelines disk [] pipelinesPath
  let pipelines ← loadDirectory disk configPath config pipelines
  let sharedObjects ← disk.read (← getConfigPath configPath config "shared_objects_path")
  let httpListener ← disk.read (← getConfigPath configPath config "http_listener_path")
  let authbundlesDbPath ← getConfigPath configPath config "authbundles_db_path"
  let convertersDbPath ← getConfigPath configPath config "converters_db_path"
  .ok { config, configPath, pipelines, httpListener, sharedObjects, authbundlesDbPath, convertersDbPath }

/-- What a load reads, and from where. -/
structure Loads (disk : Disk φ) (configPath : String) (g : GlobalConfig) : Prop where
  config : disk.read configPath = .ok g.config
  path : g.configPath = configPath
  pipelines : ∃ path one, getConfigPath configPath g.config "pipelines_path" = .ok path ∧
    loadPipelines disk [] path = .ok one ∧ loadDirectory disk configPath g.config one = .ok g.pipelines
  sharedObjects : ∃ path, getConfigPath configPath g.config "shared_objects_path" = .ok path ∧
    disk.read path = .ok g.sharedObjects
  httpListener : ∃ path, getConfigPath configPath g.config "http_listener_path" = .ok path ∧
    disk.read path = .ok g.httpListener
  authbundles : getConfigPath configPath g.config "authbundles_db_path" = .ok g.authbundlesDbPath
  converters : getConfigPath configPath g.config "converters_db_path" = .ok g.convertersDbPath

theorem load_iff {disk : Disk φ} {configPath : String} {g : GlobalConfig} :
    load disk configPath = .ok g ↔ Loads disk configPath g := by
  simp only [load, bind_eq_ok, Except.ok.injEq]
  constructor
  · rintro ⟨config, read, path, named, one, first, pipelines, directory, sharedPath, sharedNamed, shared,
      sharedRead, listenerPath, listenerNamed, listener, listenerRead, authbundles, authbundlesNamed, converters,
      convertersNamed, rfl⟩
    exact {
      config := read
      path := rfl
      pipelines := ⟨path, one, named, first, directory⟩
      sharedObjects := ⟨sharedPath, sharedNamed, sharedRead⟩
      httpListener := ⟨listenerPath, listenerNamed, listenerRead⟩
      authbundles := authbundlesNamed
      converters := convertersNamed }
  · intro loads
    obtain ⟨path, one, named, first, directory⟩ := loads.pipelines
    obtain ⟨sharedPath, sharedNamed, sharedRead⟩ := loads.sharedObjects
    obtain ⟨listenerPath, listenerNamed, listenerRead⟩ := loads.httpListener
    exact ⟨g.config, loads.config, path, named, one, first, g.pipelines, directory, sharedPath, sharedNamed,
      g.sharedObjects, sharedRead, listenerPath, listenerNamed, g.httpListener, listenerRead, g.authbundlesDbPath,
      loads.authbundles, g.convertersDbPath, loads.converters, by rw [← loads.path]⟩

theorem loadPipelines_readable {disk disk' : Disk φ} (readable : disk.Readable disk') {path : String}
    {pipelines loaded : List (String × Json)} (load : loadPipelines disk pipelines path = .ok loaded)
    (others : List (String × Json)) : ∃ again, loadPipelines disk' others path = .ok again := by
  obtain ⟨j, read, -⟩ := bind_eq_ok.mp load
  obtain ⟨k, reread⟩ := readable.reads path j read
  exact ⟨_, bind_eq_ok.mpr ⟨k, reread, rfl⟩⟩

theorem loadFiles_readable {disk disk' : Disk φ} (readable : disk.Readable disk') (files : List String) :
    ∀ {pipelines loaded : List (String × Json)}, files.foldlM (loadPipelines disk) pipelines = .ok loaded →
      ∀ others, ∃ again, files.foldlM (loadPipelines disk') others = .ok again := by
  induction files with
  | nil => exact fun _ others => ⟨others, rfl⟩
  | cons path rest ih =>
    intro pipelines loaded load others
    rw [List.foldlM_cons] at load
    obtain ⟨one, first, later⟩ := bind_eq_ok.mp load
    obtain ⟨again, second⟩ := loadPipelines_readable readable first others
    obtain ⟨all, done⟩ := ih later again
    exact ⟨all, by rw [List.foldlM_cons]; exact bind_eq_ok.mpr ⟨again, second, done⟩⟩

theorem loadDirectory_readable {disk disk' : Disk φ} (readable : disk.Readable disk') {configPath : String}
    {config : Json} {pipelines loaded : List (String × Json)}
    (load : loadDirectory disk configPath config pipelines = .ok loaded) (others : List (String × Json)) :
    ∃ again, loadDirectory disk' configPath config others = .ok again := by
  unfold loadDirectory at load ⊢
  split
  · next named =>
    rw [if_pos named] at load
    obtain ⟨dir, path, rest⟩ := bind_eq_ok.mp load
    obtain ⟨files, listed, loads⟩ := bind_eq_ok.mp rest
    obtain ⟨again, done⟩ := loadFiles_readable readable files loads others
    exact ⟨again, bind_eq_ok.mpr ⟨dir, path, bind_eq_ok.mpr ⟨files, readable.lists ▸ listed, done⟩⟩⟩
  · exact ⟨others, rfl⟩

/-- A load that succeeded succeeds again after a write that left every file readable
and the main configuration as it was. -/
theorem Loads.again {disk disk' : Disk φ} {configPath : String} {g : GlobalConfig} (loads : Loads disk configPath g)
    (readable : disk.Readable disk') (main : disk'.read configPath = disk.read configPath) {listener : String}
    (named : getConfigPath configPath g.config "http_listener_path" = .ok listener) :
    ∃ g', Loads disk' configPath g' ∧ g'.config = g.config ∧ disk'.read listener = .ok g'.httpListener := by
  obtain ⟨path, one, pipelinesNamed, first, directory⟩ := loads.pipelines
  obtain ⟨one', first'⟩ := loadPipelines_readable readable first []
  obtain ⟨pipelines, directory'⟩ := loadDirectory_readable readable directory one'
  obtain ⟨sharedPath, sharedNamed, sharedRead⟩ := loads.sharedObjects
  obtain ⟨shared, sharedRead'⟩ := readable.reads _ _ sharedRead
  obtain ⟨listenerPath, listenerNamed, listenerRead⟩ := loads.httpListener
  obtain ⟨doc, listenerRead'⟩ := readable.reads _ _ listenerRead
  obtain rfl := Except.ok.inj (listenerNamed.symm.trans named)
  exact ⟨{ g with pipelines, sharedObjects := shared, httpListener := doc }, {
    config := main.trans loads.config
    path := loads.path
    pipelines := ⟨path, one', pipelinesNamed, first', directory'⟩
    sharedObjects := ⟨sharedPath, sharedNamed, sharedRead'⟩
    httpListener := ⟨listenerPath, named, listenerRead'⟩
    authbundles := loads.authbundles
    converters := loads.converters }, rfl, listenerRead'⟩

/-- The path that `save_http_gate` opens, relative to the working directory. -/
def httpGatePath (g : GlobalConfig) : Except Exn String := do
  (← g.config.at' "http_gate_path").getString

/-- `save_http_gate`, with the disk that it leaves. -/
def saveHttpGate [DecidableEq φ] (g : GlobalConfig) (disk : Disk φ) (config : Json) (written : Written) :
    Except Exn Bool × Disk φ :=
  match g.httpGatePath with
  | .ok path => (.ok (written ≠ .refused), disk.write path config written)
  | .error e => (.error e, disk)

end GlobalConfig

end M2eBridge
