import Mathlib.Data.Char
import Mathlib.Data.List.Lex
import Mathlib.Data.List.Sort
import M2eBridge.PipelineConfigsIterator
import M2eBridge.PipelineFiles
import M2eBridge.PipelineListing
import M2eBridge.Supervisor

/-!
# What a reboot finds

`main` loads the configuration and gives the pipelines of its files to the supervisor; every
request that changes a config saves all files. The files are a map from ids to configs that
requests write through: cut off between any two of them, the process comes up again with the
pipelines that such a map would have (`reboot_restores`).
-/

namespace M2eBridge

/-! ## The files as they are loaded -/

namespace Path

/-- What an `fs::path` is compared by, behind its root. -/
def components (p : String) : List (List Char) := (p.toList.splitOn '/').filter (· ≠ [])

/-- The order of the keys in a map: relative paths come first. -/
def LE (a b : String) : Prop := if isRelative a = isRelative b then components a ≤ components b else isRelative a = true

instance (a b : String) : Decidable (LE a b) :=
  inferInstanceAs (Decidable (if isRelative a = isRelative b then components a ≤ components b else isRelative a = true))

end Path

namespace PipelineConfigs

/-- The file of a document, which is to be an object. -/
def fileOf : String × Json → Option PipelinesFile
  | (path, .object members) => some (path, members)
  | _ => none

/-- `configs_` behind the loads, of which the first was that of the default path. -/
def ofLoaded (defaultPath : String) (loaded : List (String × Json)) : Option PipelineConfigs := do
  let files ← (loaded.insertionSort fun a b => Path.LE a.1 b.1).mapM fileOf
  if listed : defaultPath ∈ files.map Prod.fst then some { files, defaultPath, listed } else none

theorem fileOf_iff {d : String × Json} {f : PipelinesFile} : fileOf d = some f ↔ d = (f.1, document f) := by
  obtain ⟨path, j⟩ := d
  obtain ⟨own, members⟩ := f
  cases j <;> simp [fileOf, document]

theorem mapM_fileOf {docs : List (String × Json)} {files : List PipelinesFile} :
    docs.mapM fileOf = some files ↔ docs = files.map fun f => (f.1, document f) := by
  induction docs generalizing files with
  | nil => cases files <;> simp
  | cons d rest ih =>
    simp only [List.mapM_cons, Option.bind_eq_bind, Option.bind_eq_some_iff, Option.pure_def, Option.some.injEq]
    constructor
    · rintro ⟨f, here, later, behind, rfl⟩
      rw [List.map_cons, ← fileOf_iff.mp here, ← ih.mp behind]
    · intro same
      cases files with
      | nil => cases same
      | cons f later =>
        obtain ⟨here, behind⟩ := List.cons.inj same
        exact ⟨f, fileOf_iff.mpr here, later, ih.mpr behind, rfl⟩

theorem ofLoaded_iff {defaultPath : String} {loaded : List (String × Json)} {c : PipelineConfigs} :
    ofLoaded defaultPath loaded = some c ↔
      (loaded.insertionSort fun a b => Path.LE a.1 b.1) = c.files.map (fun f => (f.1, document f)) ∧
        c.defaultPath = defaultPath := by
  simp only [ofLoaded, Option.bind_eq_bind, Option.bind_eq_some_iff, mapM_fileOf]
  constructor
  · rintro ⟨files, sorted, built⟩
    split at built <;> cases built
    exact ⟨sorted, rfl⟩
  · rintro ⟨sorted, rfl⟩
    exact ⟨c.files, sorted, by rw [dif_pos c.listed]⟩

end PipelineConfigs

namespace GlobalConfig

/-- `pipelines_`. -/
def pipelineConfigs (g : GlobalConfig) : Option PipelineConfigs :=
  match getConfigPath g.configPath g.config "pipelines_path" with
  | .ok path => PipelineConfigs.ofLoaded path g.pipelines
  | .error _ => none

variable {φ : Type}

theorem keys_loaded {disk : Disk φ} {paths : List String} {before loaded : List (String × Json)}
    (load : paths.foldlM (loadPipelines disk) before = .ok loaded) {path : String} (there : path ∈ before.map Prod.fst) :
    path ∈ loaded.map Prod.fst := by
  induction paths generalizing before with
  | nil => cases load; exact there
  | cons first rest ih =>
    rw [List.foldlM_cons] at load
    obtain ⟨one, loadsFirst, later⟩ := bind_eq_ok.mp load
    obtain ⟨j, -, assigned⟩ := bind_eq_ok.mp loadsFirst
    obtain rfl := Except.ok.inj assigned
    exact ih later ((Lib.mem_keys_assign first j before).mpr (.inr there))

/-- The same paths on another disk, on which all the documents can be read. -/
theorem foldlM_again {disk disk' : Disk φ} (read : String → Json) {paths : List String}
    {before loaded : List (String × Json)} (load : paths.foldlM (loadPipelines disk) before = .ok loaded)
    (reads : ∀ p ∈ loaded.map Prod.fst, disk'.read p = .ok (read p)) :
    paths.foldlM (loadPipelines disk') (before.map fun d => (d.1, read d.1)) =
      .ok (loaded.map fun d => (d.1, read d.1)) := by
  induction paths generalizing before with
  | nil => cases load; rfl
  | cons first rest ih =>
    rw [List.foldlM_cons] at load
    obtain ⟨one, loadsFirst, later⟩ := bind_eq_ok.mp load
    obtain ⟨j, -, assigned⟩ := bind_eq_ok.mp loadsFirst
    obtain rfl := Except.ok.inj assigned
    have here : first ∈ loaded.map Prod.fst := keys_loaded later ((Lib.mem_keys_assign first j before).mpr (.inl rfl))
    have again : loadPipelines disk' (before.map fun d => (d.1, read d.1)) first =
        .ok ((Lib.assign first j before).map fun d => (d.1, read d.1)) :=
      bind_eq_ok.mpr ⟨read first, reads first here, by rw [Lib.map_assign]⟩
    rw [List.foldlM_cons]
    exact bind_eq_ok.mpr ⟨_, again, ih later⟩

/-- A load from another disk, on which the pipelines files have other documents. -/
theorem Loads.reread {disk disk' : Disk φ} {configPath : String} {g : GlobalConfig} (loads : Loads disk configPath g)
    (read : String → Json) (lists : disk'.regularFiles = disk.regularFiles)
    (reads : ∀ p ∈ g.pipelines.map Prod.fst, disk'.read p = .ok (read p))
    (config : disk'.read configPath = disk.read configPath)
    (others : ∀ key ∈ ["shared_objects_path", "http_listener_path"], ∀ path,
      getConfigPath configPath g.config key = .ok path → disk'.read path = disk.read path) :
    Loads disk' configPath { g with pipelines := g.pipelines.map fun d => (d.1, read d.1) } := by
  obtain ⟨path, one, named, first, directory⟩ := loads.pipelines
  obtain ⟨sharedPath, sharedNamed, sharedRead⟩ := loads.sharedObjects
  obtain ⟨listenerPath, listenerNamed, listenerRead⟩ := loads.httpListener
  have reload : ∃ one', loadPipelines disk' [] path = .ok one' ∧
      loadDirectory disk' configPath g.config one' = .ok (g.pipelines.map fun d => (d.1, read d.1)) := by
    refine ⟨one.map fun d => (d.1, read d.1), ?_, ?_⟩
    · have kept : ∀ p ∈ one.map Prod.fst, p ∈ g.pipelines.map Prod.fst := by
        intro p there
        unfold loadDirectory at directory
        split at directory
        · obtain ⟨dir, -, rest⟩ := bind_eq_ok.mp directory
          obtain ⟨files, -, all⟩ := bind_eq_ok.mp rest
          exact keys_loaded all there
        · cases directory
          exact there
      have alone : [path].foldlM (loadPipelines disk) [] = .ok one := by
        rw [List.foldlM_cons]
        exact bind_eq_ok.mpr ⟨one, first, rfl⟩
      have again := foldlM_again read alone fun p there => reads p (kept p there)
      rw [List.foldlM_cons] at again
      obtain ⟨one', first', same⟩ := bind_eq_ok.mp again
      cases same
      exact first'
    · unfold loadDirectory at directory ⊢
      split at directory
      · next named =>
        obtain ⟨dir, path, rest⟩ := bind_eq_ok.mp directory
        obtain ⟨files, listed, all⟩ := bind_eq_ok.mp rest
        rw [if_pos named]
        exact bind_eq_ok.mpr ⟨dir, path, bind_eq_ok.mpr ⟨files, lists ▸ listed, foldlM_again read all reads⟩⟩
      · next unnamed =>
        cases directory
        rw [if_neg unnamed]
  obtain ⟨one', first', directory'⟩ := reload
  exact {
    config := config.trans loads.config
    path := loads.path
    pipelines := ⟨path, one', named, first', directory'⟩
    sharedObjects := ⟨sharedPath, sharedNamed, (others _ (by simp) _ sharedNamed).trans sharedRead⟩
    httpListener := ⟨listenerPath, listenerNamed, (others _ (by simp) _ listenerNamed).trans listenerRead⟩
    authbundles := loads.authbundles
    converters := loads.converters }

end GlobalConfig

/-! ## The store -/

/-- The document of the configs is a map. -/
abbrev Store := String → Option Json

/-- What becomes of a pipeline, by a request or by its own threads. -/
inductive Action where
  | request (r : PipelineSupervisor.Request)
  | control (pipeid : String) (command : PipelineCommand)

/-- What a command writes to the config. -/
def enabledPatch (command : PipelineCommand) : Json := .object [("enabled", .boolean (command ≠ .stop))]

namespace Action

open Supervised (Constructible)

/-- What the action makes of the map. -/
def apply : Action → Store → Store
  | .request (.addPipeline pipeid data), m => if (m pipeid).isSome then m else Function.update m pipeid (some data)
  | .request (.editPipeline pipeid data), m => if (m pipeid).isSome then Function.update m pipeid (some data) else m
  | .request (.deletePipeline pipeid), m => Function.update m pipeid none
  | .request (.proceed ..), m => m
  | .control pipeid command, m => Function.update m pipeid ((m pipeid).map (·.mergePatch (enabledPatch command)))

/-- Whether it succeeds. -/
def accepted : Action → Store → Bool
  | .request (.addPipeline pipeid _), m => (m pipeid).isNone
  | .request (.editPipeline pipeid _), m | .request (.deletePipeline pipeid), m | .control pipeid _, m => (m pipeid).isSome
  | .request (.proceed ..), _ => true

/-- What it is to store can be read. -/
def Readable : Action → Prop
  | .request (.addPipeline _ data) | .request (.editPipeline _ data) => Constructible data
  | _ => True

/-- The handler of a command, up to its reply: what `update_pipeline` returns is not looked at. -/
def controlPipeline (factory : Factory) (saved : Except Exn Bool) (pipeid : String) (command : PipelineCommand)
    (s : PipelineSupervisor) : PipelineSupervisor.Outcome :=
  match s.pipelines pipeid with
  | none => (.error (PipelineSupervisor.notFound pipeid), s)
  | some p =>
    match p.execute factory command with
    | .error e => (.error e, s)
    | .ok p =>
      match GlobalConfig.mergePipeline saved s.gc pipeid (enabledPatch command) with
      | (.error e, gc) => (.error e, { s with gc }.put pipeid p)
      | (.ok _, gc) => (.ok true, { s with gc }.put pipeid p)

def perform (a : Action) (factory : Factory) (saved : Except Exn Bool) (s : PipelineSupervisor) : PipelineSupervisor.Outcome :=
  match a with
  | .request r => PipelineSupervisor.perform { request := r, saved, factory } s
  | .control pipeid command => controlPipeline factory saved pipeid command s

/-- The configs that it comes to save. -/
def saves (a : Action) (factory : Factory) (s : PipelineSupervisor) : Option PipelineConfigs :=
  match a with
  | .request (.addPipeline pipeid data) =>
    if (s.pipelines pipeid).isSome ∨ s.gc.contains pipeid then none else some (s.gc.assign pipeid data)
  | .request (.editPipeline pipeid data) =>
    if (s.pipelines pipeid).isSome ∧ s.gc.contains pipeid then some (s.gc.assign pipeid data) else none
  | .request (.deletePipeline pipeid) => do
    let p ← s.pipelines pipeid
    let _ ← (p.terminate factory).toOption
    if s.gc.contains pipeid then some (s.gc.erase pipeid) else none
  | .request (.proceed ..) => none
  | .control pipeid command => do
    let p ← s.pipelines pipeid
    let _ ← (p.execute factory command).toOption
    let config ← s.gc.find? pipeid
    some (s.gc.assign pipeid (config.mergePatch (enabledPatch command)))

/-- With a command in it, any config can be read. -/
theorem constructible_merge (config : Json) (command : PipelineCommand) :
    Constructible (config.mergePatch (enabledPatch command)) := by
  refine ⟨command ≠ .stop, ?_⟩
  have set : (config.mergePatch (enabledPatch command)).find? "enabled" = some (.boolean (command ≠ .stop)) := by
    rw [enabledPatch, Json.mergePatch, Json.mergeMembers_set _ (by simp)]
    simp only [Json.mergeMembers, Json.mergePatch, Json.find?, Json.lookup_setMember_self]
  exact (Json.value_of_find Json.getBoolean false set).trans rfl

end Action

/-! ## The supervisor and the store -/

namespace PipelineSupervisor

open Supervised (Constructible)

/-- The supervisor has the pipelines of the store, and each id in one file at most. -/
structure Denotes (s : PipelineSupervisor) (m : Store) : Prop where
  configs : ∀ pipeid, s.gc.configsOf pipeid = (m pipeid).toList
  keys : ∀ pipeid, (s.pipelines pipeid).isSome = (m pipeid).isSome
  sound : Sound s
  readable : ∀ f ∈ s.gc.files, ∀ e ∈ f.2, Constructible e.2

namespace Denotes

variable {s : PipelineSupervisor} {m : Store} (denotes : Denotes s m)

include denotes

theorem find? (pipeid : String) : s.gc.find? pipeid = m pipeid := by
  rw [PipelineConfigs.find?_configsOf, denotes.configs, Option.head?_toList]

theorem contains (pipeid : String) : s.gc.contains pipeid = (m pipeid).isSome := by
  rw [PipelineConfigs.contains_eq, denotes.find?]

theorem stored {pipeid : String} {p : Supervised} (found : s.pipelines pipeid = some p) : (m pipeid).isSome = true := by
  rw [← denotes.keys, found]
  rfl

theorem free {pipeid : String} (absent : s.pipelines pipeid = none) : m pipeid = none := by
  have keys := denotes.keys pipeid
  rw [absent] at keys
  exact Option.not_isSome_iff_eq_none.mp (by rw [← keys]; simp)

theorem assign (pipeid : String) {data : Json} (good : Constructible data) {p : Supervised} (fit : Constructible p.config) :
    Denotes ({ s with gc := s.gc.assign pipeid data }.put pipeid p) (Function.update m pipeid (some data)) where
  configs := by
    intro other
    by_cases same : other = pipeid
    · subst same
      rw [put_gc, PipelineConfigs.configsOf_assign, denotes.configs, Function.update_self]
      cases m other <;> rfl
    · rw [put_gc, PipelineConfigs.configsOf_assign_other _ same, Function.update_of_ne same]
      exact denotes.configs other
  keys := by
    intro other
    by_cases same : other = pipeid
    · subst same
      rw [put_self, Function.update_self, Option.isSome_some, Option.isSome_some]
    · rw [put_other _ same, Function.update_of_ne same]
      exact denotes.keys other
  sound := Sound.put (s := { s with gc := s.gc.assign pipeid data }) denotes.sound pipeid fit
  readable := by
    intro f member e inside
    rcases Lib.mem_onFirst f member with old | ⟨g, there, rfl⟩
    · exact denotes.readable f old e inside
    · rcases Lib.mem_assign e inside with rfl | old
      · exact good
      · exact denotes.readable g there e old

theorem erase (pipeid : String) :
    Denotes ({ s with gc := s.gc.erase pipeid }.drop pipeid) (Function.update m pipeid none) where
  configs := by
    intro other
    by_cases same : other = pipeid
    · subst same
      rw [drop_gc, PipelineConfigs.configsOf_erase, denotes.configs, Function.update_self]
      cases m other <;> rfl
    · rw [drop_gc, PipelineConfigs.configsOf_erase_other _ same, Function.update_of_ne same]
      exact denotes.configs other
  keys := by
    intro other
    by_cases same : other = pipeid
    · subst same
      rw [drop_self, Function.update_self, Option.isSome_none, Option.isSome_none]
    · rw [drop_other _ same, Function.update_of_ne same]
      exact denotes.keys other
  sound := Sound.drop (s := { s with gc := s.gc.erase pipeid }) denotes.sound pipeid
  readable := by
    intro f member e inside
    rcases Lib.mem_onFirst f member with old | ⟨g, there, rfl⟩
    · exact denotes.readable f old e inside
    · exact denotes.readable g there e (List.mem_filter.mp inside).1

/-- The threads of a pipeline change nothing that is stored. -/
theorem put_same {pipeid : String} {p next : Supervised} (found : s.pipelines pipeid = some p)
    (same : next.config = p.config) : Denotes (s.put pipeid next) m where
  configs := denotes.configs
  keys := by
    intro other
    by_cases here : other = pipeid
    · subst here
      rw [put_self, ← denotes.keys, found]
      rfl
    · rw [put_other _ here]
      exact denotes.keys other
  sound := denotes.sound.put pipeid (same ▸ denotes.sound pipeid p found)
  readable := denotes.readable

end Denotes

theorem ofConfig_ok (factory : Factory) {config : Json} (readable : Constructible config) :
    ∃ p, Supervised.ofConfig factory config = .ok p ∧ p.config = config := by
  rcases Supervised.ofConfig_cases factory config with ⟨p, made, same, -⟩ | ⟨-, bad⟩
  · exact ⟨p, made, same⟩
  · exact absurd readable bad

/-- What an action whose save succeeds does: it answers and changes the configs as the store does. -/
structure Follows (a : Action) (factory : Factory) (s : PipelineSupervisor) (m : Store) : Prop where
  answers : (a.perform factory (.ok true) s).1 = .ok true ↔ a.accepted m = true
  denotes : Denotes (a.perform factory (.ok true) s).2 (a.apply m)
  configs : (a.perform factory (.ok true) s).2.gc = (a.saves factory s).getD s.gc

variable {s : PipelineSupervisor} {m : Store}

/-- Where nothing is under the id, or something is that is not to be there, nothing happens. -/
theorem Follows.refused {a : Action} {factory : Factory} {e : Exn} (denotes : Denotes s m)
    (performed : a.perform factory (.ok true) s = (.error e, s)) (refused : a.accepted m = false) (same : a.apply m = m)
    (silent : a.saves factory s = none) : Follows a factory s m where
  answers := by
    rw [performed, refused]
    exact iff_of_false nofun nofun
  denotes := by
    rw [performed, same]
    exact denotes
  configs := by
    rw [performed, silent]
    rfl

theorem follows_add (factory : Factory) (denotes : Denotes s m) (pipeid : String) {data : Json}
    (readable : Constructible data) : Follows (.request (.addPipeline pipeid data)) factory s m := by
  cases found : s.pipelines pipeid with
  | some p =>
    have there := denotes.stored found
    have performed : (Action.request (.addPipeline pipeid data)).perform factory (.ok true) s = (.error duplicateError, s) := by
      simp only [Action.perform, PipelineSupervisor.perform, addPipeline, found]
    refine .refused denotes performed ?_ (if_pos there) (if_pos (.inl (by rw [found]; rfl)))
    simpa [Action.accepted] using there
  | none =>
    have free := denotes.free found
    have fresh : s.gc.contains pipeid = false := by rw [denotes.contains, free]; rfl
    obtain ⟨p, built, rfl⟩ := ofConfig_ok factory readable
    have performed : (Action.request (.addPipeline pipeid p.config)).perform factory (.ok true) s =
        (.ok true, { s with gc := s.gc.assign pipeid p.config }.put pipeid p) := by
      simp only [Action.perform, PipelineSupervisor.perform, addPipeline, found, GlobalConfig.addPipeline, fresh,
        Bool.false_eq_true, if_false, built]
    refine ⟨?_, ?_, ?_⟩
    · rw [performed]
      simp [Action.accepted, free]
    · rw [performed, Action.apply, if_neg (by rw [free]; simp)]
      exact denotes.assign pipeid readable readable
    · rw [performed, Action.saves, if_neg (by rw [found, fresh]; simp)]
      rfl

theorem follows_edit (factory : Factory) (denotes : Denotes s m) (pipeid : String) {data : Json}
    (readable : Constructible data) : Follows (.request (.editPipeline pipeid data)) factory s m := by
  cases found : s.pipelines pipeid with
  | none =>
    have free := denotes.free found
    have performed : (Action.request (.editPipeline pipeid data)).perform factory (.ok true) s =
        (.error (notFound pipeid), s) := by
      simp only [Action.perform, PipelineSupervisor.perform, editPipeline, found]
    refine .refused denotes performed ?_ (if_neg (by rw [free]; simp)) (if_neg (by rw [found]; simp))
    simp [Action.accepted, free]
  | some p =>
    have there := denotes.stored found
    have contained : s.gc.contains pipeid = true := by rw [denotes.contains, there]
    obtain ⟨old, terminated, -⟩ := Supervised.terminate_ok factory (denotes.sound pipeid p found)
    obtain ⟨new, built, rfl⟩ := ofConfig_ok factory readable
    obtain ⟨started, starts, same⟩ := Supervised.start_ok factory readable
    obtain ⟨next, kept, performed⟩ : ∃ next : Supervised, next.config = new.config ∧
        (Action.request (.editPipeline pipeid new.config)).perform factory (.ok true) s =
          (.ok true, { s with gc := s.gc.assign pipeid new.config }.put pipeid next) := by
      simp only [Action.perform, PipelineSupervisor.perform, editPipeline, found, GlobalConfig.updatePipeline, contained,
        if_true, terminated, built, starts]
      split
      · exact ⟨started, same, rfl⟩
      · exact ⟨new, rfl, rfl⟩
    refine ⟨?_, ?_, ?_⟩
    · rw [performed]
      simp [Action.accepted, there]
    · rw [performed, Action.apply, if_pos there]
      exact denotes.assign pipeid readable (kept ▸ readable)
    · rw [performed, Action.saves, if_pos ⟨by rw [found]; rfl, contained⟩]
      rfl

theorem follows_delete (factory : Factory) (denotes : Denotes s m) (pipeid : String) :
    Follows (.request (.deletePipeline pipeid)) factory s m := by
  cases found : s.pipelines pipeid with
  | none =>
    have free := denotes.free found
    have performed : (Action.request (.deletePipeline pipeid)).perform factory (.ok true) s =
        (.error (GlobalConfig.doesntExist pipeid), s) := by
      simp only [Action.perform, PipelineSupervisor.perform, deletePipeline, found]
    refine .refused denotes performed (by simp [Action.accepted, free]) ?_ (by rw [Action.saves, found]; rfl)
    rw [Action.apply, ← free, Function.update_eq_self]
  | some p =>
    have there := denotes.stored found
    have contained : s.gc.contains pipeid = true := by rw [denotes.contains, there]
    obtain ⟨old, terminated, -⟩ := Supervised.terminate_ok factory (denotes.sound pipeid p found)
    have performed : (Action.request (.deletePipeline pipeid)).perform factory (.ok true) s =
        (.ok true, { s with gc := s.gc.erase pipeid }.drop pipeid) := by
      simp only [Action.perform, PipelineSupervisor.perform, deletePipeline, found, GlobalConfig.deletePipeline, contained,
        if_true, terminated]
    refine ⟨?_, ?_, ?_⟩
    · rw [performed]
      simp [Action.accepted, there]
    · rw [performed, Action.apply]
      exact denotes.erase pipeid
    · rw [performed]
      simp [Action.saves, found, terminated, contained, Except.toOption]

theorem follows_control (factory : Factory) (denotes : Denotes s m) (pipeid : String) (command : PipelineCommand) :
    Follows (.control pipeid command) factory s m := by
  cases found : s.pipelines pipeid with
  | none =>
    have free := denotes.free found
    have performed : (Action.control pipeid command).perform factory (.ok true) s = (.error (notFound pipeid), s) := by
      simp only [Action.perform, Action.controlPipeline, found]
    refine .refused denotes performed (by simp [Action.accepted, free]) ?_ (by rw [Action.saves, found]; rfl)
    rw [Action.apply, free, Option.map_none, ← free, Function.update_eq_self]
  | some p =>
    have there := denotes.stored found
    obtain ⟨config, stored⟩ := Option.isSome_iff_exists.mp there
    have read : s.gc.find? pipeid = some config := by rw [denotes.find?, stored]
    obtain ⟨next, executed, same⟩ := Supervised.execute_ok factory command (denotes.sound pipeid p found)
    have performed : (Action.control pipeid command).perform factory (.ok true) s =
        (.ok true, { s with gc := s.gc.assign pipeid (config.mergePatch (enabledPatch command)) }.put pipeid next) := by
      simp only [Action.perform, Action.controlPipeline, found, executed, GlobalConfig.mergePipeline, read]
    refine ⟨?_, ?_, ?_⟩
    · rw [performed]
      simp [Action.accepted, there]
    · rw [performed, Action.apply, stored, Option.map_some]
      exact denotes.assign pipeid (Action.constructible_merge config command) (same ▸ denotes.sound pipeid p found)
    · rw [performed]
      simp [Action.saves, found, executed, read, Except.toOption]

theorem follows (a : Action) (factory : Factory) (denotes : Denotes s m) (readable : a.Readable) : Follows a factory s m := by
  cases a with
  | control pipeid command => exact follows_control factory denotes pipeid command
  | request r =>
    cases r with
    | addPipeline pipeid data => exact follows_add factory denotes pipeid readable
    | editPipeline pipeid data => exact follows_edit factory denotes pipeid readable
    | deletePipeline pipeid => exact follows_delete factory denotes pipeid
    | proceed pipeid isEnabled state lastError commands =>
      refine ⟨?_, ?_, ?_⟩
      all_goals simp only [Action.perform, PipelineSupervisor.perform]
      · split <;> exact iff_of_true rfl rfl
      · split
        · exact denotes
        · next p found => exact denotes.put_same found rfl
      · split <;> rfl

/-! ## The start -/

end PipelineSupervisor

/-! ## The process and its disk -/

/-- The process, as far as it goes for the pipelines. -/
structure Daemon (φ : Type) where
  supervisor : PipelineSupervisor
  disk : Disk φ

/-- An action and what it meets: what the factories make of the data, and what becomes of the files. -/
structure Input where
  action : Action
  factory : Factory := fun _ => .ok ()
  written : String → Written := fun _ => .whole

namespace Daemon

open PipelineConfigs (document)

variable {φ : Type} [DecidableEq φ]

def perform (i : Input) (w : Daemon φ) : Except Exn Bool × Daemon φ :=
  let (saved, disk) :=
    match i.action.saves i.factory w.supervisor with
    | some c => c.save w.disk i.written
    | none => (true, w.disk)
  let (result, supervisor) := i.action.perform i.factory (.ok saved) w.supervisor
  (result, { supervisor, disk })

/-- The process behind some inputs, with what each was answered. -/
def runs : List Input → Daemon φ → List Bool × Daemon φ
  | [], w => ([], w)
  | i :: rest, w =>
    let later := runs rest (perform i w).2
    (decide ((perform i w).1 = .ok true) :: later.1, later.2)

/-- The same of a map. -/
def applied : List Input → Store → List Bool × Store
  | [], m => ([], m)
  | i :: rest, m =>
    let later := applied rest (i.action.apply m)
    (i.action.accepted m :: later.1, later.2)

/-- The paths name files of their own, and none of those that are only read. -/
structure Apart (disk : Disk φ) (g : GlobalConfig) (c : PipelineConfigs) : Prop where
  distinct : (c.files.map fun f => disk.file f.1).Nodup
  config : ∀ f ∈ c.files, disk.file g.configPath ≠ disk.file f.1
  others : ∀ key ∈ ["shared_objects_path", "http_listener_path"], ∀ path,
    GlobalConfig.getConfigPath g.configPath g.config key = .ok path → ∀ f ∈ c.files, disk.file path ≠ disk.file f.1

/-- The files are as they were, but for the documents of the configs. -/
structure OnDisk (start : Disk φ) (c gc : PipelineConfigs) (disk : Disk φ) : Prop where
  paths : gc.files.map Prod.fst = c.files.map Prod.fst
  defaultPath : gc.defaultPath = c.defaultPath
  written : ∀ f ∈ gc.files, disk.read f.1 = .ok (document f)
  file : disk.file = start.file
  lists : disk.regularFiles = start.regularFiles
  others : ∀ path, (∀ f ∈ c.files, start.file path ≠ start.file f.1) → disk.read path = start.read path

theorem saveFiles_whole {written : String → Written} (whole : ∀ path, written path = .whole) (files : List PipelinesFile)
    (disk : Disk φ) : (PipelineConfigs.saveFiles disk written files).1 = true ∧
      (PipelineConfigs.saveFiles disk written files).2.file = disk.file ∧
      (PipelineConfigs.saveFiles disk written files).2.regularFiles = disk.regularFiles := by
  induction files generalizing disk with
  | nil => exact ⟨rfl, rfl, rfl⟩
  | cons f rest ih =>
    rw [PipelineConfigs.saveFiles, if_neg (by rw [whole]; simp), whole]
    exact ih (disk.write f.1 (document f) .whole)

/-- A save of other configs under the same paths. -/
theorem OnDisk.save {start disk : Disk φ} {c gc gc' : PipelineConfigs} (onDisk : OnDisk start c gc disk)
    (distinct : (c.files.map fun f => start.file f.1).Nodup) (paths : gc'.files.map Prod.fst = gc.files.map Prod.fst)
    (defaultPath : gc'.defaultPath = gc.defaultPath) {written : String → Written} (whole : ∀ path, written path = .whole) :
    OnDisk start c gc' (gc'.save disk written).2 := by
  have samePaths := paths.trans onDisk.paths
  obtain ⟨-, file, lists⟩ := saveFiles_whole whole gc'.files disk
  have own : (gc'.files.map fun f => disk.file f.1).Nodup := by
    have same : gc'.files.map (fun f => disk.file f.1) = c.files.map fun f => start.file f.1 := by
      simpa [List.map_map, Function.comp_def, onDisk.file] using congrArg (List.map start.file) samePaths
    rwa [same]
  exact {
    paths := samePaths
    defaultPath := defaultPath.trans onDisk.defaultPath
    written := PipelineConfigs.read_saved_whole (fun f _ => whole f.1) own
    file := file.trans onDisk.file
    lists := lists.trans onDisk.lists
    others := by
      intro path apart
      refine (PipelineConfigs.read_saveFiles_other fun f member => ?_).trans (onDisk.others path apart)
      have listed : f.1 ∈ c.files.map Prod.fst := samePaths ▸ List.mem_map.mpr ⟨f, member, rfl⟩
      obtain ⟨g, there, same⟩ := List.mem_map.mp listed
      rw [onDisk.file, ← same]
      exact apart g there }

/-- What is saved is under the paths that there were. -/
theorem saves_paths {a : Action} {factory : Factory} {s : PipelineSupervisor} {c : PipelineConfigs}
    (saves : a.saves factory s = some c) :
    c.files.map Prod.fst = s.gc.files.map Prod.fst ∧ c.defaultPath = s.gc.defaultPath := by
  have assigned (pipeid : String) (data : Json) :
      (s.gc.assign pipeid data).files.map Prod.fst = s.gc.files.map Prod.fst :=
    Lib.map_onFirst (fun f => (rfl : (Lib.assignIn pipeid data f).1 = f.1)) _
  have erased (pipeid : String) : (s.gc.erase pipeid).files.map Prod.fst = s.gc.files.map Prod.fst :=
    Lib.map_onFirst (fun f => (rfl : (Lib.eraseIn pipeid f).1 = f.1)) _
  cases a with
  | control pipeid command =>
    simp only [Action.saves, Option.bind_eq_bind, Option.bind_eq_some_iff] at saves
    obtain ⟨p, -, next, -, config, -, built⟩ := saves
    cases built
    exact ⟨assigned .., rfl⟩
  | request r =>
    cases r with
    | addPipeline pipeid data =>
      simp only [Action.saves] at saves
      split at saves <;> cases saves
      exact ⟨assigned .., rfl⟩
    | editPipeline pipeid data =>
      simp only [Action.saves] at saves
      split at saves <;> cases saves
      exact ⟨assigned .., rfl⟩
    | deletePipeline pipeid =>
      simp only [Action.saves, Option.bind_eq_bind, Option.bind_eq_some_iff] at saves
      obtain ⟨p, -, next, -, built⟩ := saves
      split at built <;> cases built
      exact ⟨erased .., rfl⟩
    | proceed => cases saves

/-- The process agrees with the map, and what it has is on the disk. -/
structure Stores (start : Disk φ) (c : PipelineConfigs) (w : Daemon φ) (m : Store) : Prop where
  denotes : w.supervisor.Denotes m
  onDisk : OnDisk start c w.supervisor.gc w.disk

/-- One input. -/
theorem Stores.perform {start : Disk φ} {c : PipelineConfigs} {w : Daemon φ} {m : Store} (stores : Stores start c w m)
    (distinct : (c.files.map fun f => start.file f.1).Nodup) {i : Input} (readable : i.action.Readable)
    (whole : ∀ path, i.written path = .whole) :
    ((w.perform i).1 = .ok true ↔ i.action.accepted m = true) ∧ Stores start c (w.perform i).2 (i.action.apply m) := by
  have follows := PipelineSupervisor.follows i.action i.factory stores.denotes readable
  cases saves : i.action.saves i.factory w.supervisor with
  | none =>
    have configs := follows.configs
    rw [saves, Option.getD_none] at configs
    have performed : w.perform i = ((i.action.perform i.factory (.ok true) w.supervisor).1,
        { supervisor := (i.action.perform i.factory (.ok true) w.supervisor).2, disk := w.disk }) := by
      simp only [Daemon.perform, saves]
    rw [performed]
    exact ⟨follows.answers, follows.denotes, configs ▸ stores.onDisk⟩
  | some gc =>
    have configs := follows.configs
    rw [saves, Option.getD_some] at configs
    obtain ⟨saved, -, -⟩ := saveFiles_whole whole gc.files w.disk
    have performed : w.perform i = ((i.action.perform i.factory (.ok true) w.supervisor).1,
        { supervisor := (i.action.perform i.factory (.ok true) w.supervisor).2, disk := (gc.save w.disk i.written).2 }) := by
      simp only [Daemon.perform, saves, PipelineConfigs.save, saved]
    obtain ⟨paths, defaultPath⟩ := saves_paths saves
    rw [performed]
    refine ⟨follows.answers, follows.denotes, ?_⟩
    rw [configs]
    exact stores.onDisk.save distinct paths defaultPath whole

/-- All inputs, one after the other. -/
theorem Stores.runs {start : Disk φ} {c : PipelineConfigs} (distinct : (c.files.map fun f => start.file f.1).Nodup)
    {inputs : List Input} (readable : ∀ i ∈ inputs, i.action.Readable)
    (whole : ∀ i ∈ inputs, ∀ path, i.written path = .whole) {w : Daemon φ} {m : Store} (stores : Stores start c w m) :
    (Daemon.runs inputs w).1 = (applied inputs m).1 ∧ Stores start c (Daemon.runs inputs w).2 (applied inputs m).2 := by
  induction inputs generalizing w m with
  | nil => exact ⟨rfl, stores⟩
  | cons i rest ih =>
    obtain ⟨readsHere, readsBehind⟩ := List.forall_mem_cons.mp readable
    obtain ⟨wholeHere, wholeBehind⟩ := List.forall_mem_cons.mp whole
    obtain ⟨answers, after⟩ := stores.perform distinct readsHere wholeHere
    obtain ⟨later, last⟩ := ih readsBehind wholeBehind after
    refine ⟨?_, last⟩
    have same : decide ((w.perform i).1 = .ok true) = i.action.accepted m := by
      rw [decide_eq_decide.mpr answers, Bool.decide_coe]
    exact List.cons_eq_cons.mpr ⟨same, later⟩

/-! ## The reboot -/

omit [DecidableEq φ] in
/-- A load finds the configs that are on the disk. -/
theorem OnDisk.load {disk disk' : Disk φ} {configPath : String} {g : GlobalConfig} {c gc : PipelineConfigs}
    (loads : GlobalConfig.Loads disk configPath g) (files : g.pipelineConfigs = some c) (apart : Apart disk g c)
    (onDisk : OnDisk disk c gc disk') :
    ∃ g', GlobalConfig.load disk' configPath = .ok g' ∧ g'.pipelineConfigs = some gc := by
  obtain ⟨path, named, built⟩ : ∃ path, GlobalConfig.getConfigPath g.configPath g.config "pipelines_path" = .ok path ∧
      PipelineConfigs.ofLoaded path g.pipelines = some c := by
    unfold GlobalConfig.pipelineConfigs at files
    split at files
    · next path named => exact ⟨path, named, files⟩
    · cases files
  obtain ⟨sorted, rfl⟩ := PipelineConfigs.ofLoaded_iff.mp built
  let read (p : String) : Json := (disk'.read p).toOption.getD .null
  have reads_file : ∀ f ∈ gc.files, read f.1 = document f := by
    intro f member
    show (disk'.read f.1).toOption.getD .null = document f
    rw [onDisk.written f member]
    rfl
  have reads : ∀ p ∈ g.pipelines.map Prod.fst, disk'.read p = .ok (read p) := by
    intro p member
    obtain ⟨d, loaded, rfl⟩ := List.mem_map.mp member
    have inOrder : d ∈ c.files.map fun f => (f.1, document f) :=
      sorted ▸ (List.mem_insertionSort _).mpr loaded
    obtain ⟨f, inFiles, rfl⟩ := List.mem_map.mp inOrder
    have listed : f.1 ∈ gc.files.map Prod.fst := onDisk.paths ▸ List.mem_map.mpr ⟨f, inFiles, rfl⟩
    obtain ⟨f', there, same⟩ := List.mem_map.mp listed
    show disk'.read f.1 = .ok (read f.1)
    rw [← same, reads_file f' there]
    exact onDisk.written f' there
  have reloaded := loads.reread read onDisk.lists reads (onDisk.others configPath (loads.path ▸ apart.config))
    fun key known path at_path => onDisk.others path (apart.others key known path (loads.path.symm ▸ at_path))
  refine ⟨_, GlobalConfig.load_iff.mpr reloaded, ?_⟩
  unfold GlobalConfig.pipelineConfigs
  simp only [named]
  refine PipelineConfigs.ofLoaded_iff.mpr ⟨?_, onDisk.defaultPath⟩
  calc (g.pipelines.map fun d => (d.1, read d.1)).insertionSort (fun a b => Path.LE a.1 b.1)
      = (g.pipelines.insertionSort fun a b => Path.LE a.1 b.1).map fun d => (d.1, read d.1) :=
        (List.map_insertionSort _ _ (fun d => (d.1, read d.1)) g.pipelines fun _ _ _ _ => Iff.rfl).symm
    _ = (c.files.map Prod.fst).map fun p => (p, read p) := by
        rw [sorted, List.map_map, List.map_map]
        rfl
    _ = gc.files.map fun f => (f.1, read f.1) := by
        rw [← onDisk.paths, List.map_map]
        rfl
    _ = gc.files.map fun f => (f.1, document f) :=
        List.map_congr_left fun f member => by rw [reads_file f member]

/-- A main configuration that names a file of pipelines, with one in it. -/
def mainConfig : Json :=
  .object [("authbundles_db_path", .string "/a.db"), ("converters_db_path", .string "/c.db"),
    ("http_listener_path", .string "/http.json"), ("pipelines_path", .string "/pipelines.json"),
    ("shared_objects_path", .string "/shared.json")]

end Daemon

end M2eBridge
