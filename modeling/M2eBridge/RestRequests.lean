import M2eBridge.RestApi

/-!
# The requests that the REST API answers

A request is answered when its handler returns with one reply sent. Which ones are is a
condition on the request and on the state that it meets (`Answers`); `replies_once_iff` is
the statement for a state and for a run from `init`.
-/

namespace M2eBridge

/-! ## The supervisor's calls -/

namespace Supervised

/-- Only reading `enabled` throws. -/
theorem enabledIn_error {config : Json} {e : Exn} (thrown : enabledIn config = .error e) : e.kind = .jsonException := by
  unfold enabledIn Json.value at thrown
  split at thrown
  · split at thrown
    · next v _ => cases v <;> cases thrown <;> rfl
    · cases thrown
  · cases thrown
    rfl

theorem ofConfig_error {factory : Factory} {config : Json} {e : Exn} (thrown : ofConfig factory config = .error e) :
    e.kind = .jsonException := by
  unfold ofConfig prepare at thrown
  cases read : enabledIn config with
  | error e' =>
    rw [read] at thrown
    cases thrown
    exact enabledIn_error read
  | ok isEnabled =>
    rw [read] at thrown
    cases made : factory config <;> simp [made, bind, Except.bind, pure, Except.pure] at thrown

end Supervised

namespace PipelineSupervisor

open Supervised (Constructible)

variable {s : PipelineSupervisor}

/-- What is caught of `add_pipeline`, where a save opens the files or not, or throws what is
not caught. -/
theorem addPipeline_caught_iff (s : PipelineSupervisor) (factory : Factory) (pipeid : String) (data : Json)
    {saved : Except Exn Bool} (library : ∀ e, saved = .error e → e.kind = .jsonException) :
    (∀ e, (s.addPipeline factory saved pipeid data).1 = .error e →
        e.kind = .invalidArgument ∨ e.kind = .duplicateError) ↔
      (s.pipelines pipeid).isSome ∨ s.gc.contains pipeid ∨
        ∃ opened, saved = .ok opened ∧ (opened = true → Constructible data) := by
  unfold addPipeline GlobalConfig.addPipeline
  cases s.pipelines pipeid with
  | some p => simp [duplicateError]
  | none =>
    by_cases contained : s.gc.contains pipeid
    · simp [contained, GlobalConfig.alreadyExist]
    · simp only [contained, if_false, Bool.false_eq_true, Option.isSome_none, false_or]
      match saved with
      | .error e => simp [library e rfl]
      | .ok false => simp
      | .ok true =>
        rcases Supervised.ofConfig_cases factory data with ⟨p, made, -, good⟩ | ⟨⟨e, thrown⟩, bad⟩
        · simp [made, good]
        · simp [thrown, bad, Supervised.ofConfig_error thrown]

theorem editPipeline_caught_iff (factory : Factory) (pipeid : String) (data : Json) {saved : Except Exn Bool}
    (sound : Sound s)
    (library : ∀ e, saved = .error e → e.kind = .jsonException) :
    (∀ e, (s.editPipeline factory saved pipeid data).1 = .error e → e.kind = .invalidArgument) ↔
      (s.pipelines pipeid).isSome ∧
        (s.gc.contains pipeid → ∃ opened, saved = .ok opened ∧ (opened = true → Constructible data)) := by
  unfold editPipeline GlobalConfig.updatePipeline
  cases found : s.pipelines pipeid with
  | none => simp [notFound]
  | some p =>
    by_cases contained : s.gc.contains pipeid
    · simp only [contained, if_true, Option.isSome_some, true_and, forall_const]
      match saved with
      | .error e => simp [library e rfl]
      | .ok false => simp
      | .ok true =>
        obtain ⟨old, terminated, -⟩ := Supervised.terminate_ok factory (sound pipeid p found)
        rcases Supervised.ofConfig_cases factory data with ⟨new, made, rfl, good⟩ | ⟨⟨e, thrown⟩, bad⟩
        · obtain ⟨started, ok, -⟩ := Supervised.start_ok factory good
          simp only [terminated, made, ok]
          split <;> simp [good]
        · simp [terminated, thrown, bad, Supervised.ofConfig_error thrown]
    · simp [contained, GlobalConfig.doesntExist]

theorem deletePipeline_caught_iff (factory : Factory) (pipeid : String) {saved : Except Exn Bool} (sound : Sound s)
    (library : ∀ e, saved = .error e → e.kind = .jsonException) :
    (∀ e, (s.deletePipeline factory saved pipeid).1 = .error e → e.kind = .invalidArgument) ↔
      ((s.pipelines pipeid).isSome → s.gc.contains pipeid → ∃ opened, saved = .ok opened) := by
  unfold deletePipeline GlobalConfig.deletePipeline
  cases found : s.pipelines pipeid with
  | none => simp [GlobalConfig.doesntExist]
  | some p =>
    obtain ⟨old, terminated, -⟩ := Supervised.terminate_ok factory (sound pipeid p found)
    by_cases contained : s.gc.contains pipeid
    · simp only [terminated, contained, if_true, Option.isSome_some, forall_const]
      match saved with
      | .error e => simp [library e rfl]
      | .ok false => simp
      | .ok true => simp
    · simp [terminated, contained, GlobalConfig.doesntExist]

end PipelineSupervisor

namespace RestState

open PipelineSupervisor (Sound)
open Supervised (Constructible)

theorem saved_error (w : RestState) (c : RestContext) : ∀ e, w.saved c = .error e → e.kind = .jsonException := by
  intro e thrown
  unfold saved at thrown
  split at thrown
  · cases thrown
  · split at thrown <;> cases thrown
    rfl

/-- A call on a pipeline leaves the others. -/
theorem adopt_sound {w : RestState} (sound : Sound w.supervisor) (pipeid : String) {s : PipelineSupervisor}
    (after : Sound s) : Sound (w.adopt pipeid s).supervisor := by
  intro other p found
  by_cases same : other = pipeid
  · subst same
    cases left : s.pipelines other with
    | some q =>
      simp only [supervisor, adopt, left, AList.lookup_insert, Option.some.injEq] at found
      exact found ▸ after other q left
    | none =>
      simp only [supervisor, adopt, left, AList.lookup_erase] at found
      cases found
  · have kept : w.pipelines.lookup other = some p := by
      cases left : s.pipelines pipeid with
      | some q => simpa only [supervisor, adopt, left, AList.lookup_insert_ne same] using found
      | none => simpa only [supervisor, adopt, left, AList.lookup_erase_ne same] using found
    exact sound other p kept

end RestState

/-! ## The conditions -/

/-- The handler has returned, and has sent one reply. -/
def Handling.Answered (h : Handling) : Prop := (∃ reply, h.replies = [reply]) ∧ h.ending = .returned

@[simp] theorem answered_answered (w : RestState) (status : Nat) (body : Bytes) : (w.answered status body).Answered :=
  ⟨⟨_, rfl⟩, rfl⟩

@[simp] theorem not_answered_escaped (w : RestState) (e : Exn) : ¬ (w.escaped e).Answered := fun answered => by
  cases answered.2

namespace RestApi

open PipelineSupervisor (Sound)
open Supervised (Constructible)
open RestState

/-- A save throws nothing: all ids are text, or it is given up in front of those that are not. -/
def Saves (c : RestContext) (w : RestState) : Prop := c.reached = true → w.foreign = []

/-- A config that has been saved can be read. -/
def Readable (c : RestContext) (data : Json) : Prop := c.reached = true → c.opened = true → Constructible data

/-- The pipeline is there already; or nothing keeps it from being saved and, if it is, its
config can be read. -/
def PostAnswers (c : RestContext) (w : RestState) (pipeid : Bytes) (data : Json) : Prop :=
  match textOf pipeid with
  | some pipeid => (w.pipelines.lookup pipeid).isSome ∨ w.gc.contains pipeid ∨ Saves c w ∧ Readable c data
  | none => (w.foreign.lookup pipeid).isSome ∨ c.reached = false

/-- There is a pipeline; and if its config is stored, the new one can be. -/
def PutAnswers (c : RestContext) (w : RestState) (pipeid : Bytes) (data : Json) : Prop :=
  match textOf pipeid with
  | some pipeid => (w.pipelines.lookup pipeid).isSome ∧ (w.gc.contains pipeid → Saves c w ∧ Readable c data)
  | none => False

/-- What is stored of a pipeline can be saved without it. -/
def DeleteAnswers (c : RestContext) (w : RestState) (pipeid : Bytes) : Prop :=
  ∀ id, textOf pipeid = some id → (w.pipelines.lookup id).isSome → w.gc.contains id → Saves c w

/-- A config that the parser and the validator come to an end on, and that the call answers if
it is valid. -/
def ConfigAnswers (c : RestContext) (uri body : Bytes) (call : Bytes → Json → Prop) : Prop :=
  ∀ pipeid, lastSegment uri = some pipeid →
    match c.codec.parse body with
    | .error e => isParseError e = true
    | .ok data => Validates c.connectors data ∧ (Accepts c.connectors data → call pipeid data)

/-- The config is stored; without an id, all configs are text. -/
def GetAnswers (w : RestState) (uri : Bytes) : Prop :=
  match lastSegment uri with
  | some pipeid => (w.configAt pipeid).isSome
  | none => w.foreign = []

/-- There is a pipeline, and its last error is text; without an id, all last errors are. -/
def StatusAnswers (w : RestState) (uri : Bytes) : Prop :=
  match lastSegment uri with
  | some pipeid => ∃ p, w.lookup pipeid = some p ∧ (textOf p.lastError).isSome
  | none => ∀ e ∈ w.pipelines.entries, (textOf e.2.lastError).isSome

/-- There are two segments; and if they are a command and a pipeline, its config is stored and
can be saved. -/
def ControlAnswers (c : RestContext) (w : RestState) (uri : Bytes) : Prop :=
  ∃ command pipeid, getLastSegmentsOf uri 2 = .ok [command, pipeid] ∧
    (given (commandFromString command) = true → (w.lookup pipeid).isSome →
      ∃ id, textOf pipeid = some id ∧ w.gc.contains id ∧ Saves c w)

/-- The requests that are answered, handler by handler. -/
def Answers (c : RestContext) (w : RestState) (r : RestRequest) : Prop :=
  match r.handler with
  | .configPost => ConfigAnswers c r.uri r.body (PostAnswers c w)
  | .configGet => GetAnswers w r.uri
  | .configPut => ConfigAnswers c r.uri r.body (PutAnswers c w)
  | .configDelete => ∀ pipeid, lastSegment r.uri = some pipeid → DeleteAnswers c w pipeid
  | .statusGet => StatusAnswers w r.uri
  | .controlPut => ControlAnswers c w r.uri

/-! ## The handlers -/

theorem withConfig_answered_iff {c : RestContext} {w : RestState} {uri body : Bytes} {call : Bytes → Json → Handling}
    {meets : Bytes → Json → Prop} (same : ∀ pipeid data, (call pipeid data).Answered ↔ meets pipeid data) :
    (withConfig c w uri body call).Answered ↔ ConfigAnswers c uri body meets := by
  unfold withConfig ConfigAnswers
  cases lastSegment uri with
  | none => simp
  | some pipeid =>
    simp only [Option.some.injEq, forall_eq']
    cases c.codec.parse body with
    | error e => by_cases caught : isParseError e <;> simp [caught]
    | ok data =>
      simp only
      rw [← validates_iff, ← accepts_iff, ← same]
      cases validatePipeline c.connectors data with
      | undefined => simp [Verdict.Returned, Handling.Answered]
      | _ => simp [Verdict.Returned]

theorem saved_ok {w : RestState} {c : RestContext} : (∃ opened, w.saved c = .ok opened) ↔ Saves c w := by
  unfold saved Saves
  cases c.reached <;> by_cases text : w.foreign = [] <;> simp [text]

theorem saved_readable {w : RestState} {c : RestContext} {data : Json} :
    (∃ opened, w.saved c = .ok opened ∧ (opened = true → Constructible data)) ↔ Saves c w ∧ Readable c data := by
  unfold saved Saves Readable
  cases c.reached <;> by_cases text : w.foreign = [] <;> simp [text]

theorem configPost_answered_iff {c : RestContext} {w : RestState} {uri body : Bytes} :
    (configPost c w uri body).Answered ↔ ConfigAnswers c uri body (PostAnswers c w) := by
  apply withConfig_answered_iff
  intro pipeid data
  unfold PostAnswers addPipeline
  cases textOf pipeid with
  | none =>
    by_cases there : (w.foreign.lookup pipeid).isSome
    · simp [there, GlobalConfig.alreadyExist]
    · cases reached : c.reached <;> simp [there, saved, reached, invalidUtf8]
  | some pipeid =>
    have caught := w.supervisor.addPipeline_caught_iff c.factory pipeid data (saved_error w c)
    rw [saved_readable] at caught
    refine Iff.trans ?_ caught
    dsimp only
    generalize w.supervisor.addPipeline c.factory (w.saved c) pipeid data = out
    rcases out with ⟨e | _ | _, s⟩
    · by_cases handled : e.kind = .invalidArgument ∨ e.kind = .duplicateError <;> simp [handled]
    · simp
    · simp

theorem configPut_answered_iff {c : RestContext} {w : RestState} (sound : Sound w.supervisor) {uri body : Bytes} :
    (configPut c w uri body).Answered ↔ ConfigAnswers c uri body (PutAnswers c w) := by
  apply withConfig_answered_iff
  intro pipeid data
  unfold PutAnswers editPipeline
  cases textOf pipeid with
  | none => simp [PipelineSupervisor.notFound]
  | some pipeid =>
    have caught := PipelineSupervisor.editPipeline_caught_iff c.factory pipeid data sound (saved_error w c)
    rw [saved_readable] at caught
    refine Iff.trans ?_ caught
    dsimp only
    generalize w.supervisor.editPipeline c.factory (w.saved c) pipeid data = out
    rcases out with ⟨e | _ | _, s⟩
    · by_cases handled : e.kind = .invalidArgument <;> simp [handled]
    · simp
    · simp

theorem configDelete_answered_iff {c : RestContext} {w : RestState} (sound : Sound w.supervisor) {uri : Bytes} :
    (configDelete c w uri).Answered ↔ ∀ pipeid, lastSegment uri = some pipeid → DeleteAnswers c w pipeid := by
  unfold configDelete
  cases lastSegment uri with
  | none => simp
  | some pipeid =>
    simp only [Option.some.injEq, forall_eq', DeleteAnswers, deletePipeline]
    cases textOf pipeid with
    | none => simp [GlobalConfig.doesntExist]
    | some pipeid =>
      have caught := PipelineSupervisor.deletePipeline_caught_iff c.factory pipeid sound (saved_error w c)
      rw [saved_ok] at caught
      simp only [Option.some.injEq, forall_eq']
      refine Iff.trans ?_ caught
      generalize w.supervisor.deletePipeline c.factory (w.saved c) pipeid = out
      rcases out with ⟨e | _ | _, s⟩
      · by_cases handled : e.kind = .invalidArgument <;> simp [handled]
      · simp
      · simp

theorem configGet_answered_iff {c : RestContext} {w : RestState} {uri : Bytes} :
    (configGet c w uri).Answered ↔ GetAnswers w uri := by
  unfold configGet GetAnswers
  cases lastSegment uri with
  | some pipeid => cases found : w.configAt pipeid <;> simp [found]
  | none => by_cases text : w.foreign = [] <;> simp [text]

theorem mapM_isSome {α β : Type} {f : α → Option β} {l : List α} : (l.mapM f).isSome ↔ ∀ a ∈ l, (f a).isSome := by
  induction l with
  | nil => simp
  | cons a rest ih =>
    rw [List.mapM_cons, List.forall_mem_cons, ← ih]
    cases f a <;> cases rest.mapM f <;> simp

theorem createResponse_isSome {c : RestContext} {w : RestState} :
    (createResponse c w).isSome ↔ ∀ e ∈ w.pipelines.entries, (textOf e.2.lastError).isSome := by
  have every : (w.pipelines.entries.mapM fun e => (getPipelineStatus (c.statistics e.1) e.2).map (Prod.mk e.1)).isSome ↔
      ∀ e ∈ w.pipelines.entries, (textOf e.2.lastError).isSome := by
    simp [mapM_isSome, getPipelineStatus]
  rw [← every, createResponse]
  cases w.pipelines.entries.mapM fun e => (getPipelineStatus (c.statistics e.1) e.2).map (Prod.mk e.1) <;> simp

theorem statusGet_answered_iff {c : RestContext} {w : RestState} {uri : Bytes} :
    (statusGet c w uri).Answered ↔ StatusAnswers w uri := by
  unfold statusGet StatusAnswers
  cases lastSegment uri with
  | some pipeid =>
    cases found : w.lookup pipeid with
    | none => simp [found, Handling.Answered]
    | some p => cases text : textOf p.lastError <;> simp [found, getPipelineStatus, text]
  | none =>
    rw [← createResponse_isSome (c := c)]
    cases createResponse c w <;> simp

theorem getLastSegmentsOf_two (uri : Bytes) :
    (∃ command pipeid, getLastSegmentsOf uri 2 = .ok [command, pipeid]) ∨ ∃ e, getLastSegmentsOf uri 2 = .error e := by
  unfold getLastSegmentsOf
  by_cases few : (getLastSegments uri).length < 2
  · exact .inr ⟨_, if_pos few⟩
  · have two : ((getLastSegments uri).drop ((getLastSegments uri).length - 2)).length = 2 := by
      rw [List.length_drop]
      omega
    obtain ⟨command, pipeid, shape⟩ := List.length_eq_two.mp two
    exact .inl ⟨command, pipeid, by rw [if_neg few, shape]⟩

theorem control_answered_iff {c : RestContext} {w : RestState} (sound : Sound w.supervisor) {pipeid : String}
    {p : Supervised} (found : w.pipelines.lookup pipeid = some p) {command : PipelineCommand} :
    (control c w pipeid p command).Answered ↔ w.gc.contains pipeid ∧ Saves c w := by
  obtain ⟨next, executed, -⟩ := Supervised.execute_ok c.factory command (sound pipeid p found)
  unfold control GlobalConfig.mergePipeline
  rw [executed, PipelineConfigs.contains_eq]
  cases stored : w.gc.find? pipeid with
  | none => simp [stored, uncaught, GlobalConfig.doesntExist]
  | some config =>
    have same : { w with pipelines := w.pipelines.insert pipeid next : RestState }.saved c = w.saved c := rfl
    rw [← saved_ok]
    cases result : w.saved c with
    | ok opened => simp [stored, same.trans result]
    | error e => simp [stored, same.trans result, uncaught, saved_error w c e result]

theorem controlPut_answered_iff {c : RestContext} {w : RestState} (sound : Sound w.supervisor) {uri : Bytes} :
    (controlPut c w uri).Answered ↔ ControlAnswers c w uri := by
  unfold controlPut ControlAnswers
  rcases getLastSegmentsOf_two uri with ⟨command, pipeid, segments⟩ | ⟨e, few⟩
  · rw [segments]
    have only (P : Bytes → Bytes → Prop) :
        (∃ c p, Except.ok (ε := Exn) [command, pipeid] = .ok [c, p] ∧ P c p) ↔ P command pipeid := by simp
    rw [only]
    by_cases known : given (commandFromString command)
    · simp only [known, if_true, forall_const, lookup]
      cases textOf pipeid with
      | none => simp [notFound]
      | some pipeid =>
        cases found : w.pipelines.lookup pipeid with
        | none => simp [found, notFound]
        | some p => simpa [found] using control_answered_iff sound found
    · simp [known]
  · rw [few]
    exact iff_of_false nofun (by simp)

/-- One request, in a state where every pipeline was built from a config that can be read. -/
theorem handle_answered_iff {c : RestContext} {w : RestState} (sound : Sound w.supervisor) {r : RestRequest} :
    (handle c w r).Answered ↔ Answers c w r := by
  unfold handle Answers
  cases r.handler with
  | configPost => exact configPost_answered_iff
  | configGet => exact configGet_answered_iff
  | configPut => exact configPut_answered_iff sound
  | configDelete => exact configDelete_answered_iff sound
  | statusGet => exact statusGet_answered_iff
  | controlPut => exact controlPut_answered_iff sound

/-! ## Whole runs -/

theorem addPipeline_sound {c : RestContext} {w : RestState} (sound : Sound w.supervisor) (pipeid : Bytes)
    (data : Json) :
    Sound (w.addPipeline c pipeid data).2.supervisor := by
  unfold RestState.addPipeline
  split
  · exact adopt_sound sound _ (PipelineSupervisor.addPipeline_sound sound _ _ _ _)
  · split <;> exact sound

theorem editPipeline_sound {c : RestContext} {w : RestState} (sound : Sound w.supervisor) (pipeid : Bytes)
    (data : Json) :
    Sound (w.editPipeline c pipeid data).2.supervisor := by
  unfold RestState.editPipeline
  split
  · exact adopt_sound sound _ (PipelineSupervisor.editPipeline_sound sound _ _ _ _)
  · exact sound

theorem deletePipeline_sound {c : RestContext} {w : RestState} (sound : Sound w.supervisor) (pipeid : Bytes) :
    Sound (w.deletePipeline c pipeid).2.supervisor := by
  unfold RestState.deletePipeline
  split
  · exact adopt_sound sound _ (PipelineSupervisor.deletePipeline_sound sound _ _ _)
  · exact sound

theorem withConfig_sound {c : RestContext} {w : RestState} (sound : Sound w.supervisor) {uri body : Bytes}
    {call : Bytes → Json → Handling} (called : ∀ pipeid data, Sound (call pipeid data).state.supervisor) :
    Sound (withConfig c w uri body call).state.supervisor := by
  unfold withConfig
  split
  · exact sound
  · split
    · split <;> exact sound
    · split
      · exact called _ _
      all_goals exact sound

/-- A pipeline put in the place of one with its config. -/
theorem insert_sound {w : RestState} (sound : Sound w.supervisor) {pipeid : String} {p next : Supervised}
    (found : w.pipelines.lookup pipeid = some p) (same : next.config = p.config) (gc : PipelineConfigs) :
    Sound { w with pipelines := w.pipelines.insert pipeid next, gc : RestState }.supervisor := by
  intro other q there
  by_cases here : other = pipeid
  · subst here
    have left : next = q := Option.some.inj ((AList.lookup_insert _).symm.trans there)
    exact left ▸ same ▸ sound other p found
  · exact sound other q ((AList.lookup_insert_ne here).symm.trans there)

theorem control_sound {c : RestContext} {w : RestState} (sound : Sound w.supervisor) {pipeid : String}
    {p : Supervised} (found : w.pipelines.lookup pipeid = some p) (command : PipelineCommand) :
    Sound (control c w pipeid p command).state.supervisor := by
  obtain ⟨next, executed, same⟩ := Supervised.execute_ok c.factory command (sound pipeid p found)
  unfold control
  rw [executed]
  dsimp only
  split
  · exact insert_sound sound found same _
  · unfold uncaught
    split <;> exact insert_sound sound found same _

/-- Whatever the ending, the pipelines that are left were built from configs that can be read. -/
theorem handle_sound {c : RestContext} {w : RestState} (sound : Sound w.supervisor) (r : RestRequest) :
    Sound (handle c w r).state.supervisor := by
  unfold handle
  cases r.handler with
  | configPost =>
    apply withConfig_sound sound
    intro pipeid data
    have after := addPipeline_sound (c := c) sound pipeid data
    rcases called : w.addPipeline c pipeid data with ⟨e | _ | _, w'⟩ <;> rw [called] at after
    · dsimp only
      split <;> exact after
    · exact after
    · exact after
  | configPut =>
    apply withConfig_sound sound
    intro pipeid data
    have after := editPipeline_sound (c := c) sound pipeid data
    rcases called : w.editPipeline c pipeid data with ⟨e | _ | _, w'⟩ <;> rw [called] at after
    · dsimp only
      split <;> exact after
    · exact after
    · exact after
  | configDelete =>
    dsimp only [configDelete]
    split
    · exact sound
    · next pipeid _ =>
      have after := deletePipeline_sound (c := c) sound pipeid
      rcases called : w.deletePipeline c pipeid with ⟨e | _ | _, w'⟩ <;> rw [called] at after
      · dsimp only
        split <;> exact after
      · exact after
      · exact after
  | configGet =>
    dsimp only [configGet]
    repeat' split
    all_goals exact sound
  | statusGet =>
    dsimp only [statusGet]
    repeat' split
    all_goals exact sound
  | controlPut =>
    dsimp only [controlPut]
    split
    · split
      · split
        · exact sound
        · split
          · exact sound
          · next p found => exact control_sound sound found _
      · exact sound
    · exact sound

/-- A request, or what the threads of a pipeline leave of it. -/
inductive RestInput where
  | request (c : RestContext) (r : RestRequest)
  | proceed (pipeid : String) (isEnabled : Bool) (state : PipelineState) (lastError : Bytes)
      (commands : List PipelineCommand)

namespace RestInput

def step : RestInput → RestState → RestState
  | .request c r, w => (handle c w r).state
  | .proceed pipeid isEnabled state lastError commands, w =>
    match w.pipelines.lookup pipeid with
    | none => w
    | some p => { w with pipelines := w.pipelines.insert pipeid { p with isEnabled, state, lastError, commands } }

/-- The request, if it is one, is answered. -/
def Replied : RestInput → RestState → Prop
  | .request c r, w => (handle c w r).Answered
  | .proceed .., _ => True

def Meets : RestInput → RestState → Prop
  | .request c r, w => Answers c w r
  | .proceed .., _ => True

theorem step_sound (i : RestInput) {w : RestState} (sound : Sound w.supervisor) : Sound (i.step w).supervisor := by
  cases i with
  | request c r => exact handle_sound sound r
  | proceed pipeid isEnabled state lastError commands =>
    dsimp only [step]
    split
    · exact sound
    · next p found =>
      refine insert_sound sound found ?_ w.gc
      rfl

end RestInput

/-- In every state that a run from `init` comes to, a request is answered exactly when it meets
the condition; so the requests of a run are all answered exactly when they all do. -/
theorem replies_once_iff {factory : Factory} {configs : PipelineConfigs} {w : RestState}
    (started : PipelineSupervisor.init factory configs = .ok w.supervisor) (inputs : Nat → RestInput) :
    (∀ k c r, (handle c (Lib.run RestInput.step inputs w k) r).Answered ↔
        Answers c (Lib.run RestInput.step inputs w k) r) ∧
      ∀ n, (∀ k < n, (inputs k).Replied (Lib.run RestInput.step inputs w k)) ↔
        ∀ k < n, (inputs k).Meets (Lib.run RestInput.step inputs w k) := by
  have begins : Sound w.supervisor := PipelineSupervisor.init_sound started
  constructor
  · intro k c r
    have sound : Sound (Lib.run RestInput.step inputs w k).supervisor :=
      @Lib.run_invariant _ _ _ (fun w : RestState => Sound w.supervisor) _ begins
        (fun i w sound => i.step_sound sound) inputs k
    exact handle_answered_iff sound
  · intro n
    refine Lib.run_met_iff (fun w => Sound w.supervisor) RestInput.Replied RestInput.Meets begins ?_
      (fun i w _ sound => i.step_sound sound) n
    intro i w sound
    cases i with
    | request c r => exact handle_answered_iff sound
    | proceed => exact Iff.rfl

/-- The pipeline that `init` makes of the stored one. -/
def storedPipeline : Supervised where
  config := .object [("enabled", .boolean true)]
  isEnabled := true

def onePipeline : RestState where
  pipelines := AList.insert "a" storedPipeline ∅
  gc := PipelineSupervisor.oneStored

theorem init_onePipeline :
    PipelineSupervisor.init (fun _ => .ok ()) PipelineSupervisor.oneStored = .ok onePipeline.supervisor := by
  have same : PipelineSupervisor.emplace (fun _ => none) "a" storedPipeline = onePipeline.supervisor.pipelines := by
    funext id
    have found : onePipeline.supervisor.pipelines id =
        AList.lookup id (AList.insert "a" storedPipeline (∅ : AList fun _ : String => Supervised)) := rfl
    rw [found]
    unfold PipelineSupervisor.emplace
    by_cases here : id = "a"
    · subst here
      rw [Function.update_self, AList.lookup_insert]
      rfl
    · rw [Function.update_of_ne here, AList.lookup_insert_ne here]
      rfl
  have made : PipelineSupervisor.init (fun _ => .ok ()) PipelineSupervisor.oneStored =
      .ok { pipelines := PipelineSupervisor.emplace (fun _ => none) "a" storedPipeline,
            gc := PipelineSupervisor.oneStored } := rfl
  rw [made, same]
  rfl

/-- A build without other connectors, and pipelines without traffic. -/
def quietContext : RestContext where
  codec := {
    parse := fun _ => .error ⟨.jsonException, "[json.exception.parse_error.101] parse error"⟩
    dump := fun _ => []
    toCbor := fun _ => []
    cborLoad := fun _ => none }
  connectors := fun _ => none
  factory := fun _ => .ok ()
  reached := true
  opened := true
  statistics := fun _ => {}

def stopRequest : RestRequest where
  handler := .controlPut
  uri := bytesOf "/pipeline/control/stop/a"

def statusRequest (pipeid : String) : RestRequest where
  handler := .statusGet
  uri := bytesOf ("/pipeline/status/" ++ pipeid)

/-- The status of the pipeline, after it was stopped. -/
theorem stopped_status_replies_once :
    (handle quietContext (Lib.run RestInput.step (fun _ => .request quietContext stopRequest) onePipeline 1)
      (statusRequest "a")).Answered := by
  apply ((replies_once_iff init_onePipeline fun _ => .request quietContext stopRequest).1 1 quietContext _).mpr
  have segment : lastSegment (statusRequest "a").uri = some (bytesOf "a") := by decide
  have handler : (statusRequest "a").handler = .statusGet := rfl
  simp only [Answers, StatusAnswers, handler, segment]
  exact ⟨_, rfl, rfl⟩

/-- The status of a pipeline that is not there: a 404 and a 200. -/
theorem unknown_status_replies_twice : ¬ ∀ (factory : Factory) (configs : PipelineConfigs) (w : RestState),
    PipelineSupervisor.init factory configs = .ok w.supervisor →
      ∀ (c : RestContext) (r : RestRequest), (handle c w r).Answered := by
  intro all
  have answered : (statusGet quietContext onePipeline (statusRequest "b").uri).Answered :=
    all _ _ _ init_onePipeline quietContext (statusRequest "b")
  have answers : StatusAnswers onePipeline (statusRequest "b").uri := statusGet_answered_iff.mp answered
  have segment : lastSegment (statusRequest "b").uri = some (bytesOf "b") := by decide
  simp only [StatusAnswers, segment] at answers
  obtain ⟨p, found, -⟩ := answers
  rw [lookup, textOf_bytesOf, Option.bind_some] at found
  have missing : onePipeline.pipelines.lookup "b" = none := by decide
  cases missing.symm.trans found

end RestApi

end M2eBridge
