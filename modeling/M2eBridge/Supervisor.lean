import M2eBridge.GlobalConfig
import M2eBridge.Lib.Runs
import M2eBridge.Pipeline.State

/-!
# The pipeline supervisor

`PipelineSupervisor` over the map of its pipelines and the configs in memory. Of a
pipeline object there is what the supervisor and its callers read and write; what
its threads do to that meanwhile may be anything, and is a step of its own. The two
stores stay in agreement, and a call that does not succeed changes nothing, exactly
as long as saves succeed and the data can be read (`calls_atomic_iff`).
-/

namespace M2eBridge

/-- A `Pipeline` object in the supervisor's map. -/
structure Supervised where
  config : Json
  isEnabled : Bool := false
  state : PipelineState := .stopped
  /-- Not UTF-8, where the text of an exception quotes a payload. -/
  lastError : Bytes := []
  /-- `c_queue_`, which has no limit. -/
  commands : List PipelineCommand := []
  deriving DecidableEq, Repr

/-- What becomes of the connectors and filtras of a config: an exception from their
factories is caught, and is the last error. -/
abbrev Factory := Json → Except Exn Unit

namespace Supervised

def isAlive (p : Supervised) : Bool := p.state ≠ .malformed ∧ p.state ≠ .terminated

/-- `pjson.value("enabled", false)`, which stands outside every handler. -/
def enabledIn (config : Json) : Except Exn Bool := config.value Json.getBoolean "enabled" false

/-- `prepare`, with `construct` in it. -/
def prepare (factory : Factory) (p : Supervised) : Except Exn (Bool × Supervised) := do
  let isEnabled ← enabledIn p.config
  match factory p.config with
  | .ok _ => pure (true, { p with isEnabled, lastError := [], state := .stopped })
  | .error e => pure (false, { p with isEnabled, lastError := bytesOf e.what, state := .malformed })

/-- The constructor. -/
def ofConfig (factory : Factory) (config : Json) : Except Exn Supervised := do
  let (_, p) ← prepare factory { config }
  pure p

def execute (factory : Factory) (cmd : PipelineCommand) (p : Supervised) : Except Exn Supervised := do
  if p.isAlive then return { p with commands := p.commands ++ [cmd] }
  let (success, p) ← p.prepare factory
  if success then return { p with commands := p.commands ++ [cmd] }
  return p

def terminate (factory : Factory) (p : Supervised) : Except Exn Supervised := p.execute factory .terminate

def start (factory : Factory) (p : Supervised) : Except Exn Supervised :=
  { p with isEnabled := true }.execute factory .start

/-- The config can be read: it is an object, and its `enabled`, if any, is a boolean. -/
def Constructible (config : Json) : Prop := ∃ isEnabled, enabledIn config = .ok isEnabled

theorem prepare_ok (factory : Factory) {p : Supervised} (good : Constructible p.config) :
    ∃ success next, p.prepare factory = .ok (success, next) ∧ next.config = p.config := by
  obtain ⟨isEnabled, read⟩ := good
  unfold prepare
  rw [read]
  cases made : factory p.config with
  | ok _ => exact ⟨true, _, rfl, rfl⟩
  | error e => exact ⟨false, _, rfl, rfl⟩

theorem execute_ok (factory : Factory) (cmd : PipelineCommand) {p : Supervised} (good : Constructible p.config) :
    ∃ next, p.execute factory cmd = .ok next ∧ next.config = p.config := by
  unfold execute
  by_cases alive : p.isAlive
  · rw [if_pos alive]
    exact ⟨_, rfl, rfl⟩
  · obtain ⟨success, next, prepared, same⟩ := prepare_ok factory good
    rw [if_neg alive, prepared]
    cases success with
    | true => exact ⟨_, rfl, same⟩
    | false => exact ⟨_, rfl, same⟩

theorem terminate_ok (factory : Factory) {p : Supervised} (good : Constructible p.config) :
    ∃ next, p.terminate factory = .ok next ∧ next.config = p.config := execute_ok factory .terminate good

theorem start_ok (factory : Factory) {p : Supervised} (good : Constructible p.config) :
    ∃ next, p.start factory = .ok next ∧ next.config = p.config :=
  execute_ok factory .start (p := { p with isEnabled := true }) good

/-- The constructor throws nothing but what reading `enabled` throws. -/
theorem ofConfig_cases (factory : Factory) (config : Json) :
    (∃ p, ofConfig factory config = .ok p ∧ p.config = config ∧ Constructible config) ∨
      (∃ e, ofConfig factory config = .error e) ∧ ¬ Constructible config := by
  cases read : enabledIn config with
  | ok isEnabled =>
    have good : Constructible config := ⟨isEnabled, read⟩
    obtain ⟨success, p, prepared, same⟩ := prepare_ok factory (p := { config }) good
    exact .inl ⟨p, by rw [ofConfig, prepared]; rfl, same, good⟩
  | error e =>
    refine .inr ⟨⟨e, ?_⟩, fun ⟨b, ok⟩ => ?_⟩
    · rw [ofConfig, prepare, read]; rfl
    · rw [read] at ok; cases ok

end Supervised

/-- The supervisor's map and the configs of `gc`. -/
structure PipelineSupervisor where
  pipelines : String → Option Supervised
  gc : PipelineConfigs

namespace PipelineSupervisor

open Supervised (Constructible)

/-- `emplace`, which keeps what is there. -/
def emplace (pipelines : String → Option Supervised) (pipeid : String) (p : Supervised) :
    String → Option Supervised :=
  Function.update pipelines pipeid ((pipelines pipeid).or (some p))

/-- The loop of `init`. -/
def emplaceAll (factory : Factory) : List (String × Json) → (String → Option Supervised) →
    Except Exn (String → Option Supervised)
  | [], pipelines => .ok pipelines
  | (pipeid, config) :: rest, pipelines => do
    let p ← Supervised.ofConfig factory config
    emplaceAll factory rest (emplace pipelines pipeid p)

/-- `init` behind its iterator, which is not defined on a file that is empty. -/
def init (factory : Factory) (gc : PipelineConfigs) : Except Exn PipelineSupervisor := do
  let pipelines ← emplaceAll factory gc.entries fun _ => none
  pure { pipelines, gc }

def duplicateError : Exn := ⟨.duplicateError, "Pipeline already exist!"⟩

def notFound (pipeid : String) : Exn := ⟨.outOfRange, "pipeid [ " ++ pipeid ++ " ]is not found"⟩

/-- `pipelines_[pipeid] = p`. -/
def put (s : PipelineSupervisor) (pipeid : String) (p : Supervised) : PipelineSupervisor :=
  { s with pipelines := Function.update s.pipelines pipeid (some p) }

@[simp] theorem put_self (s : PipelineSupervisor) (pipeid : String) (p : Supervised) :
    (s.put pipeid p).pipelines pipeid = some p := Function.update_self _ _ _

theorem put_other (s : PipelineSupervisor) {pipeid other : String} (different : other ≠ pipeid) (p : Supervised) :
    (s.put pipeid p).pipelines other = s.pipelines other := Function.update_of_ne different _ _

@[simp] theorem put_gc (s : PipelineSupervisor) (pipeid : String) (p : Supervised) : (s.put pipeid p).gc = s.gc := rfl

/-- `pipelines_.erase(pipeid)`. -/
def drop (s : PipelineSupervisor) (pipeid : String) : PipelineSupervisor :=
  { s with pipelines := Function.update s.pipelines pipeid none }

@[simp] theorem drop_self (s : PipelineSupervisor) (pipeid : String) : (s.drop pipeid).pipelines pipeid = none :=
  Function.update_self _ _ _

theorem drop_other (s : PipelineSupervisor) {pipeid other : String} (different : other ≠ pipeid) :
    (s.drop pipeid).pipelines other = s.pipelines other := Function.update_of_ne different _ _

@[simp] theorem drop_gc (s : PipelineSupervisor) (pipeid : String) : (s.drop pipeid).gc = s.gc := rfl

/-- What is returned or thrown, with the state afterwards. -/
abbrev Outcome := Except Exn Bool × PipelineSupervisor

def addPipeline (factory : Factory) (saved : Except Exn Bool) (pipeid : String) (data : Json)
    (s : PipelineSupervisor) : Outcome :=
  match s.pipelines pipeid with
  | some _ => (.error duplicateError, s)
  | none =>
    match GlobalConfig.addPipeline saved s.gc pipeid data with
    | (.error e, gc) => (.error e, { s with gc })
    | (.ok false, gc) => (.ok false, { s with gc })
    | (.ok true, gc) =>
      match Supervised.ofConfig factory data with
      | .error e => (.error e, { s with gc })
      | .ok p => (.ok true, { s with gc }.put pipeid p)

def deletePipeline (factory : Factory) (saved : Except Exn Bool) (pipeid : String) (s : PipelineSupervisor) :
    Outcome :=
  match s.pipelines pipeid with
  | none => (.error (GlobalConfig.doesntExist pipeid), s)
  | some p =>
    match p.terminate factory with
    | .error e => (.error e, s)
    | .ok p =>
      match GlobalConfig.deletePipeline saved s.gc pipeid with
      | (.error e, gc) => (.error e, { s with gc }.put pipeid p)
      | (.ok false, gc) => (.ok false, { s with gc }.put pipeid p)
      | (.ok true, gc) => (.ok true, { s with gc }.drop pipeid)

def editPipeline (factory : Factory) (saved : Except Exn Bool) (pipeid : String) (data : Json)
    (s : PipelineSupervisor) : Outcome :=
  match s.pipelines pipeid with
  | none => (.error (notFound pipeid), s)
  | some p =>
    match GlobalConfig.updatePipeline saved s.gc pipeid data with
    | (.error e, gc) => (.error e, { s with gc })
    | (.ok false, gc) => (.ok false, { s with gc })
    | (.ok true, gc) =>
      match p.terminate factory with
      | .error e => (.error e, { s with gc })
      | .ok old =>
        match Supervised.ofConfig factory data with
        | .error e => (.error e, { s with gc }.put pipeid old)
        | .ok new =>
          if p.state ≠ .stopped ∧ p.state ≠ .stopping then
            match new.start factory with
            | .error e => (.error e, { s with gc }.put pipeid new)
            | .ok started => (.ok true, { s with gc }.put pipeid started)
          else (.ok true, { s with gc }.put pipeid new)

inductive Request where
  | addPipeline (pipeid : String) (data : Json)
  | editPipeline (pipeid : String) (data : Json)
  | deletePipeline (pipeid : String)
  /-- The threads of a pipeline, or a command sent to it, leave it so. -/
  | proceed (pipeid : String) (isEnabled : Bool) (state : PipelineState) (lastError : Bytes)
      (commands : List PipelineCommand)

/-- A request and what it meets: what `save` does and what the factories make of the data. -/
structure Call where
  request : Request
  saved : Except Exn Bool := .ok true
  factory : Factory := fun _ => .ok ()

def perform (call : Call) (s : PipelineSupervisor) : Outcome :=
  match call.request with
  | .addPipeline pipeid data => s.addPipeline call.factory call.saved pipeid data
  | .editPipeline pipeid data => s.editPipeline call.factory call.saved pipeid data
  | .deletePipeline pipeid => s.deletePipeline call.factory call.saved pipeid
  | .proceed pipeid isEnabled state lastError commands =>
    match s.pipelines pipeid with
    | none => (.ok true, s)
    | some p => (.ok true, s.put pipeid { p with isEnabled, state, lastError, commands })

def step (call : Call) (s : PipelineSupervisor) : PipelineSupervisor := (perform call s).2

/-! ## Agreement -/

/-- The ids of the two stores are the same, and each pipeline was built from the
config that is stored under its id. -/
structure Agreement (s : PipelineSupervisor) : Prop where
  keys : ∀ pipeid, (s.pipelines pipeid).isSome ↔ s.gc.contains pipeid
  built : ∀ pipeid p, s.pipelines pipeid = some p → s.gc.find? pipeid = some p.config

/-- The call leaves the stores in agreement, and unchanged if it throws or returns false. -/
def Atomic (s : PipelineSupervisor) (out : Outcome) : Prop := Agreement out.2 ∧ (out.1 ≠ .ok true → out.2 = s)

/-- The condition for it: a save that is reached succeeds, or an edit writes what is
stored; the data can be read; a deleted id is stored in one file. -/
def Proper (call : Call) (s : PipelineSupervisor) : Prop :=
  match call.request with
  | .addPipeline pipeid data => (s.pipelines pipeid).isSome ∨ call.saved = .ok true ∧ Constructible data
  | .editPipeline pipeid data =>
    s.pipelines pipeid = none ∨ call.saved = .ok true ∧ Constructible data ∨
      call.saved ≠ .ok true ∧ s.gc.find? pipeid = some data
  | .deletePipeline pipeid =>
    s.pipelines pipeid = none ∨ call.saved = .ok true ∧ s.gc.files.countP (Lib.holds pipeid) ≤ 1
  | .proceed .. => True

/-- The agreement as one equation for each id. -/
theorem agreement_iff {s : PipelineSupervisor} :
    Agreement s ↔ ∀ pipeid, (s.pipelines pipeid).map Supervised.config = s.gc.find? pipeid := by
  constructor
  · intro agrees pipeid
    cases found : s.pipelines pipeid with
    | some p => exact (agrees.built pipeid p found).symm
    | none =>
      have free := (agrees.keys pipeid).not.mp (by simp [found])
      rw [PipelineConfigs.contains_eq, Option.not_isSome_iff_eq_none] at free
      exact free.symm
  · intro same
    refine ⟨fun pipeid => ?_, fun pipeid p found => ?_⟩
    · rw [PipelineConfigs.contains_eq, ← same pipeid, Option.isSome_map]
    · rw [← same pipeid, found]
      rfl

/-- What every state after `init` satisfies, in agreement or not. -/
def Sound (s : PipelineSupervisor) : Prop := ∀ pipeid p, s.pipelines pipeid = some p → Constructible p.config

theorem Atomic.of_unchanged {s : PipelineSupervisor} (agrees : Agreement s) (result : Except Exn Bool) :
    Atomic s (result, s) := ⟨agrees, fun _ => rfl⟩

theorem not_atomic_of_changed {s : PipelineSupervisor} {out : Outcome} (failed : out.1 ≠ .ok true)
    (changed : out.2.gc ≠ s.gc) : ¬ Atomic s out :=
  fun atomic => changed (congrArg gc (atomic.2 failed))

theorem Agreement.contains {s : PipelineSupervisor} (agrees : Agreement s) {pipeid : String} {p : Supervised}
    (found : s.pipelines pipeid = some p) : s.gc.contains pipeid :=
  (agrees.keys pipeid).mp (by rw [found]; rfl)

theorem Agreement.free {s : PipelineSupervisor} (agrees : Agreement s) {pipeid : String}
    (absent : s.pipelines pipeid = none) : s.gc.find? pipeid = none := by
  rw [← agreement_iff.mp agrees pipeid, absent]
  rfl

/-- A pipeline put under the id whose config was assigned. -/
theorem Agreement.put_assign {s : PipelineSupervisor} (agrees : Agreement s) (pipeid : String) (p : Supervised) :
    Agreement ({ s with gc := s.gc.assign pipeid p.config }.put pipeid p) := by
  rw [agreement_iff] at agrees ⊢
  intro other
  by_cases same : other = pipeid
  · subst same
    simp
  · rw [put_other _ same, put_gc, PipelineConfigs.find?_assign_other _ same]
    exact agrees other

/-- The threads of a pipeline leave its config alone. -/
theorem Agreement.put_same {s : PipelineSupervisor} (agrees : Agreement s) {pipeid : String} {p next : Supervised}
    (found : s.pipelines pipeid = some p) (same : next.config = p.config) : Agreement (s.put pipeid next) := by
  have stored := agrees.built pipeid p found
  rw [agreement_iff] at agrees ⊢
  intro other
  by_cases here : other = pipeid
  · subst here
    rw [put_self, put_gc, stored, Option.map_some, same]
  · rw [put_other _ here]
    exact agrees other

theorem Agreement.drop_erase_iff {s : PipelineSupervisor} (agrees : Agreement s) (pipeid : String) :
    Agreement ({ s with gc := s.gc.erase pipeid }.drop pipeid) ↔ s.gc.files.countP (Lib.holds pipeid) ≤ 1 := by
  rw [← PipelineConfigs.find?_erase_self, agreement_iff]
  rw [agreement_iff] at agrees
  constructor
  · intro same
    simpa [eq_comm] using same pipeid
  · intro gone other
    by_cases here : other = pipeid
    · subst here
      simp [gone]
    · rw [drop_other _ here, drop_gc, PipelineConfigs.find?_erase_other _ here]
      exact agrees other

/-! ## One call -/

/-- A save that fails leaves the assignment behind. -/
theorem unsaved_atomic_iff {s : PipelineSupervisor} (agrees : Agreement s) (result : Except Exn Bool)
    (failed : result ≠ .ok true) (pipeid : String) (data : Json) :
    Atomic s (result, { s with gc := s.gc.assign pipeid data }) ↔ s.gc.find? pipeid = some data := by
  rw [← PipelineConfigs.assign_eq_self_iff]
  constructor
  · intro atomic
    exact congrArg gc (atomic.2 failed)
  · intro same
    rw [same]
    exact .of_unchanged agrees result

theorem addPipeline_atomic_iff {s : PipelineSupervisor} (agrees : Agreement s) (factory : Factory)
    (saved : Except Exn Bool) (pipeid : String) (data : Json) :
    Atomic s (s.addPipeline factory saved pipeid data) ↔
      (s.pipelines pipeid).isSome ∨ saved = .ok true ∧ Constructible data := by
  unfold addPipeline
  cases found : s.pipelines pipeid with
  | some p => exact iff_of_true (.of_unchanged agrees _) (.inl rfl)
  | none =>
    have absent := agrees.free found
    have free : ¬ s.gc.contains pipeid := by simp [PipelineConfigs.contains_eq, absent]
    rw [GlobalConfig.addPipeline, if_neg free]
    match saved with
    | .error e => simp [unsaved_atomic_iff agrees (.error e), absent]
    | .ok false => simp [unsaved_atomic_iff agrees (.ok false), absent]
    | .ok true =>
      rcases Supervised.ofConfig_cases factory data with ⟨p, made, rfl, good⟩ | ⟨⟨e, thrown⟩, bad⟩
      · simp only [made]
        exact iff_of_true ⟨agrees.put_assign pipeid p, fun failed => absurd rfl failed⟩ (.inr ⟨trivial, good⟩)
      · simp [thrown, unsaved_atomic_iff agrees (.error e), absent, bad]

theorem editPipeline_atomic_iff {s : PipelineSupervisor} (agrees : Agreement s) (sound : Sound s)
    (factory : Factory) (saved : Except Exn Bool) (pipeid : String) (data : Json) :
    Atomic s (s.editPipeline factory saved pipeid data) ↔
      s.pipelines pipeid = none ∨ saved = .ok true ∧ Constructible data ∨
        saved ≠ .ok true ∧ s.gc.find? pipeid = some data := by
  unfold editPipeline
  cases found : s.pipelines pipeid with
  | none => exact iff_of_true (.of_unchanged agrees _) (.inl rfl)
  | some p =>
    have stored := agrees.built pipeid p found
    rw [GlobalConfig.updatePipeline, if_pos (agrees.contains found)]
    match saved with
    | .error e => simp [unsaved_atomic_iff agrees (.error e)]
    | .ok false => simp [unsaved_atomic_iff agrees (.ok false)]
    | .ok true =>
      obtain ⟨old, terminated, -⟩ := Supervised.terminate_ok factory (sound pipeid p found)
      simp only [terminated]
      rcases Supervised.ofConfig_cases factory data with ⟨new, made, rfl, good⟩ | ⟨⟨e, thrown⟩, bad⟩
      · have replaced (q : Supervised) (same : q.config = new.config) :
            Atomic s (.ok true, { s with gc := s.gc.assign pipeid new.config }.put pipeid q) :=
          ⟨same ▸ agrees.put_assign pipeid q, fun failed => absurd rfl failed⟩
        simp only [made]
        refine iff_of_true ?_ (.inr (.inl ⟨trivial, good⟩))
        split
        · obtain ⟨started, ok, same⟩ := Supervised.start_ok factory good
          simp only [ok]
          exact replaced started same
        · exact replaced new rfl
      · -- the data cannot be read, so it is not what is stored
        have changed : s.gc.assign pipeid data ≠ s.gc := by
          rw [Ne, PipelineConfigs.assign_eq_self_iff, stored]
          rintro ⟨⟩
          exact bad (sound pipeid p found)
        simp only [thrown]
        exact iff_of_false (not_atomic_of_changed (by simp) changed) (by simp [bad])

theorem deletePipeline_atomic_iff {s : PipelineSupervisor} (agrees : Agreement s) (sound : Sound s)
    (factory : Factory) (saved : Except Exn Bool) (pipeid : String) :
    Atomic s (s.deletePipeline factory saved pipeid) ↔
      s.pipelines pipeid = none ∨ saved = .ok true ∧ s.gc.files.countP (Lib.holds pipeid) ≤ 1 := by
  unfold deletePipeline
  cases found : s.pipelines pipeid with
  | none => exact iff_of_true (.of_unchanged agrees _) (.inl rfl)
  | some p =>
    obtain ⟨old, terminated, -⟩ := Supervised.terminate_ok factory (sound pipeid p found)
    have contained := agrees.contains found
    have changed := PipelineConfigs.erase_ne_self contained
    simp only [terminated]
    rw [GlobalConfig.deletePipeline, if_pos contained]
    rcases saved with e | (_ | _)
    · exact iff_of_false (not_atomic_of_changed (by simp) changed) (by simp)
    · exact iff_of_false (not_atomic_of_changed (by simp) changed) (by simp)
    · rw [← agrees.drop_erase_iff]
      constructor
      · intro atomic
        exact .inr ⟨rfl, atomic.1⟩
      · rintro (absent | ⟨-, gone⟩)
        · cases absent
        · exact ⟨gone, fun failed => absurd rfl failed⟩

/-- A call is atomic exactly when it is proper. -/
theorem atomic_iff_proper {s : PipelineSupervisor} (agrees : Agreement s) (sound : Sound s) (call : Call) :
    Atomic s (perform call s) ↔ Proper call s := by
  obtain ⟨request, saved, factory⟩ := call
  cases request with
  | addPipeline pipeid data => exact addPipeline_atomic_iff agrees factory saved pipeid data
  | editPipeline pipeid data => exact editPipeline_atomic_iff agrees sound factory saved pipeid data
  | deletePipeline pipeid => exact deletePipeline_atomic_iff agrees sound factory saved pipeid
  | proceed pipeid isEnabled state lastError commands =>
    refine iff_of_true ?_ trivial
    dsimp only [perform]
    split
    · exact .of_unchanged agrees _
    · next p found => exact ⟨agrees.put_same found rfl, fun failed => absurd rfl failed⟩

/-! ## Every call -/

theorem Sound.put {s : PipelineSupervisor} (sound : Sound s) (pipeid : String) {p : Supervised}
    (good : Constructible p.config) : Sound (s.put pipeid p) := by
  intro other q found
  by_cases here : other = pipeid
  · subst here
    rw [put_self] at found
    cases found
    exact good
  · rw [put_other _ here] at found
    exact sound other q found

theorem Sound.drop {s : PipelineSupervisor} (sound : Sound s) (pipeid : String) : Sound (s.drop pipeid) := by
  intro other q found
  by_cases here : other = pipeid
  · subst here
    rw [drop_self] at found
    cases found
  · rw [drop_other _ here] at found
    exact sound other q found

theorem addPipeline_sound {s : PipelineSupervisor} (sound : Sound s) (factory : Factory) (saved : Except Exn Bool)
    (pipeid : String) (data : Json) : Sound (s.addPipeline factory saved pipeid data).2 := by
  unfold addPipeline
  split
  · exact sound
  · split
    · exact sound
    · exact sound
    · rcases Supervised.ofConfig_cases factory data with ⟨p, made, rfl, good⟩ | ⟨⟨e, thrown⟩, -⟩
      · rw [made]
        exact Sound.put sound pipeid good
      · rw [thrown]
        exact sound

theorem deletePipeline_sound {s : PipelineSupervisor} (sound : Sound s) (factory : Factory)
    (saved : Except Exn Bool) (pipeid : String) : Sound (s.deletePipeline factory saved pipeid).2 := by
  unfold deletePipeline
  split
  · exact sound
  · next p found =>
    have good := sound pipeid p found
    obtain ⟨old, terminated, same⟩ := Supervised.terminate_ok factory good
    rw [terminated]
    dsimp only
    split
    · exact Sound.put sound pipeid (same ▸ good)
    · exact Sound.put sound pipeid (same ▸ good)
    · exact Sound.drop sound pipeid

theorem editPipeline_sound {s : PipelineSupervisor} (sound : Sound s) (factory : Factory)
    (saved : Except Exn Bool) (pipeid : String) (data : Json) :
    Sound (s.editPipeline factory saved pipeid data).2 := by
  unfold editPipeline
  split
  · exact sound
  · next p found =>
    have good := sound pipeid p found
    split
    · exact sound
    · exact sound
    · obtain ⟨old, terminated, same⟩ := Supervised.terminate_ok factory good
      rw [terminated]
      dsimp only
      rcases Supervised.ofConfig_cases factory data with ⟨new, made, rfl, readable⟩ | ⟨⟨e, thrown⟩, -⟩
      · obtain ⟨started, ok, kept⟩ := Supervised.start_ok factory readable
        rw [made]
        dsimp only
        split
        · rw [ok]
          exact Sound.put sound pipeid (kept ▸ readable)
        · exact Sound.put sound pipeid readable
      · rw [thrown]
        exact Sound.put sound pipeid (same ▸ good)

theorem step_sound (call : Call) {s : PipelineSupervisor} (sound : Sound s) : Sound (step call s) := by
  obtain ⟨request, saved, factory⟩ := call
  cases request with
  | addPipeline pipeid data => exact addPipeline_sound sound factory saved pipeid data
  | editPipeline pipeid data => exact editPipeline_sound sound factory saved pipeid data
  | deletePipeline pipeid => exact deletePipeline_sound sound factory saved pipeid
  | proceed pipeid isEnabled state lastError commands =>
    dsimp only [step, perform]
    split
    · exact sound
    · next p found => exact sound.put pipeid (sound pipeid p found)

/-! ## Whole runs -/

/-- `emplaceAll` adds, for each id that is not there yet, its first entry. -/
theorem emplaceAll_config {factory : Factory} {entries : List (String × Json)}
    {before after : String → Option Supervised} (done : emplaceAll factory entries before = .ok after)
    (pipeid : String) :
    (after pipeid).map Supervised.config = ((before pipeid).map Supervised.config).or (entries.lookup pipeid) := by
  induction entries generalizing before with
  | nil => cases done; simp
  | cons entry rest ih =>
    obtain ⟨id, config⟩ := entry
    rw [emplaceAll] at done
    rcases Supervised.ofConfig_cases factory config with ⟨p, made, rfl, -⟩ | ⟨⟨e, thrown⟩, -⟩
    · rw [made] at done
      rw [ih done, emplace, List.lookup_cons]
      by_cases here : pipeid = id
      · subst here
        rw [Function.update_self, beq_self_eq_true]
        cases before pipeid <;> rfl
      · rw [Function.update_of_ne here, beq_eq_false_iff_ne.mpr here]
    · rw [thrown] at done
      cases done

theorem emplaceAll_sound {factory : Factory} {entries : List (String × Json)}
    {before after : String → Option Supervised} (done : emplaceAll factory entries before = .ok after)
    (sound : ∀ pipeid p, before pipeid = some p → Constructible p.config) :
    ∀ pipeid p, after pipeid = some p → Constructible p.config := by
  induction entries generalizing before with
  | nil => cases done; exact sound
  | cons entry rest ih =>
    obtain ⟨id, config⟩ := entry
    rw [emplaceAll] at done
    rcases Supervised.ofConfig_cases factory config with ⟨p, made, rfl, good⟩ | ⟨⟨e, thrown⟩, -⟩
    · rw [made] at done
      refine ih done fun other q found => ?_
      by_cases here : other = id
      · subst here
        rw [emplace, Function.update_self, Option.or_eq_some_iff] at found
        rcases found with kept | ⟨-, new⟩
        · exact sound other q kept
        · cases new; exact good
      · rw [emplace, Function.update_of_ne here] at found
        exact sound other q found
    · rw [thrown] at done
      cases done

theorem init_ok {factory : Factory} {configs : PipelineConfigs} {s : PipelineSupervisor}
    (started : init factory configs = .ok s) :
    ∃ pipelines, emplaceAll factory configs.entries (fun _ => none) = .ok pipelines ∧ s = { pipelines, gc := configs } := by
  rw [init] at started
  cases done : emplaceAll factory configs.entries fun _ => none with
  | error e => rw [done] at started; cases started
  | ok pipelines => rw [done] at started; cases started; exact ⟨pipelines, rfl, rfl⟩

theorem init_agreement {factory : Factory} {configs : PipelineConfigs} {s : PipelineSupervisor}
    (started : init factory configs = .ok s) : Agreement s := by
  obtain ⟨pipelines, done, rfl⟩ := init_ok started
  rw [agreement_iff]
  intro pipeid
  rw [emplaceAll_config done pipeid, ← PipelineConfigs.lookup_entries]
  rfl

theorem init_sound {factory : Factory} {configs : PipelineConfigs} {s : PipelineSupervisor}
    (started : init factory configs = .ok s) : Sound s := by
  obtain ⟨pipelines, done, rfl⟩ := init_ok started
  exact emplaceAll_sound done fun _ _ none => by cases none

/-- From `init` on, the stores agree and every call is atomic for as long as the calls
are proper, and no longer. -/
theorem calls_atomic_iff {factory : Factory} {configs : PipelineConfigs} {s : PipelineSupervisor}
    (started : init factory configs = .ok s) (calls : Nat → Call) (n : Nat) :
    Agreement s ∧
      ((∀ k < n, Atomic (Lib.run step calls s k) (perform (calls k) (Lib.run step calls s k))) ↔
        ∀ k < n, Proper (calls k) (Lib.run step calls s k)) := by
  refine ⟨init_agreement started, ?_⟩
  refine Lib.run_met_iff (fun s => Agreement s ∧ Sound s) (fun call s => Atomic s (perform call s)) Proper
    ⟨init_agreement started, init_sound started⟩ ?_ ?_ n
  · exact fun call s inv => atomic_iff_proper inv.1 inv.2 call
  · exact fun call s atomic inv => ⟨atomic.1, step_sound call inv.2⟩

def oneStored : PipelineConfigs where
  files := [("pipelines.json", [("a", .object [("enabled", .boolean true)])])]
  defaultPath := "pipelines.json"
  listed := List.mem_cons_self

/-- A pipeline is added, and added again, which throws. -/
theorem calls_atomic_added_twice :
    let add : Call := { request := .addPipeline "b" (.object []) }
    ∃ s, init (fun _ => .ok ()) oneStored = .ok s ∧
      ∀ k < 2, Atomic (Lib.run step (fun _ => add) s k) (perform add (Lib.run step (fun _ => add) s k)) := by
  have started : init (fun _ => .ok ()) oneStored = .ok _ := rfl
  refine ⟨_, started, (calls_atomic_iff started _ 2).2.mpr fun k few => ?_⟩
  match k with
  | 0 => exact .inr ⟨rfl, false, rfl⟩
  | 1 => exact .inl rfl

/-- The file cannot be opened: `add_pipeline` returns false, and the config stays in
memory, where no pipeline belongs to it. -/
theorem failed_save_keeps_config :
    ¬ ∀ (factory : Factory) (configs : PipelineConfigs) (s : PipelineSupervisor) (calls : Nat → Call),
      init factory configs = .ok s → ∀ n, Atomic (Lib.run step calls s n) (perform (calls n) (Lib.run step calls s n)) := by
  intro all
  have atomic := all (fun _ => .ok ()) oneStored _
    (fun _ => { request := .addPipeline "b" (.object []), saved := .ok false }) rfl 0
  exact not_atomic_of_changed (by decide) (by decide) atomic

end PipelineSupervisor

end M2eBridge
