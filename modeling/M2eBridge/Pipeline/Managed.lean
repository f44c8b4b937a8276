import M2eBridge.Lib.Runs
import M2eBridge.Pipeline.Places

/-!
# The life of a pipeline object

A `Pipeline` object with the chain and the connectors that `construct` has built, the
control threads that `prepare` has started, and the one call of `execute` that is in
progress. `Pipeline.runControl` is one statement of a control thread; here it is done by
each of the threads, and `execute`, `prepare` and `construct` are steps of their own, so
that a command can reach the pipeline between any two statements of its threads.
-/

namespace M2eBridge

/-- What the factories make of the parts of a config. -/
structure Factories (ω : Type) where
  connectorIn : Json → Except Exn Unit
  /-- A config without `connector_out` is read at a place that is not there. -/
  connectorOut : Option Json → Except Exn Unit
  filtra : Json → ω → Except Exn (Filtra ω) × ω
  made : ∀ entry world f, (filtra entry world).1 = .ok f → f.config = entry

/-- The places in `execute`, `prepare` and `construct`. The command that waits for
`prepare` is `next`, which the constructor has none of. -/
inductive CallerPc where
  | idle
  | testAlive (cmd : PipelineCommand)
  | clearError (next : Option PipelineCommand)
  | readEnabled (next : Option PipelineCommand)
  | createIn (next : Option PipelineCommand)
  | createFiltras (entries : List Json) (next : Option PipelineCommand)
  | createOut (next : Option PipelineCommand)
  | setStopped (next : Option PipelineCommand)
  | startControl (next : Option PipelineCommand)
  | setMalformed
  | freeResources
  | push (cmd : PipelineCommand)
  deriving DecidableEq

/-- The call is in `prepare`. -/
def CallerPc.preparing : CallerPc → Bool
  | .idle | .testAlive _ | .push _ => false
  | _ => true

/-- The command that the call has still to push. -/
def CallerPc.next : CallerPc → Option PipelineCommand
  | .idle | .setMalformed | .freeResources => none
  | .testAlive cmd | .push cmd => some cmd
  | .clearError next | .readEnabled next | .createIn next | .createFiltras _ next | .createOut next
  | .setStopped next | .startControl next => next

/-- A thread that runs `run_control`. -/
structure ControlThread where
  control : List Instr := [.testAlive]
  /-- History: it has handled a `TERMINATE` to the end. -/
  terminated : Bool := false
  deriving DecidableEq

/-- The thread has left `run_control`. -/
def ControlThread.Ended (t : ControlThread) : Prop := t.control = []

/-- A `Pipeline` object. Where `pipeline` has one control thread's place, that of the
thread that has moved last is found there. -/
structure Managed (ω : Type) where
  config : Json
  pipeline : Pipeline ω
  isEnabled : Bool := false
  filtras : List (Filtra ω) := []
  /-- The number of the `construct` that built it, `none` the null pointer. -/
  connectorIn : Option Nat := none
  connectorOut : Option Nat := none
  /-- History: how often `construct` has been called. -/
  constructs : Nat := 0
  threads : List ControlThread := []
  caller : CallerPc := .clearError none

namespace Managed

variable {ω : Type}

/-- The object at the start of its constructor. -/
def raw (config : Json) (world : ω) : Managed ω := { config, pipeline := { world } }

/-- The entries that `construct` goes through. -/
def entries (config : Json) : List Json :=
  match config.find? "filtras" with
  | some filtras => filtras.elements
  | none => []

def freeResources (m : Managed ω) : Managed ω :=
  { m with connectorIn := none, connectorOut := none, filtras := [] }

/-- `last_error_ = e.what(); return false;` in `construct`. -/
def constructFailed (m : Managed ω) (e : Exn) : Managed ω :=
  { m with pipeline := { m.pipeline with lastError := e.what }, caller := .setMalformed }

def runCaller (factories : Factories ω) (m : Managed ω) : CallerPc → Option (Managed ω)
  | .idle => none
  | .testAlive cmd => some { m with caller := if m.pipeline.isAlive then .push cmd else .clearError (some cmd) }
  | .clearError next =>
    some
      { m with
        pipeline := { m.pipeline with lastError := "" }
        constructs := m.constructs + 1
        caller := .readEnabled next }
  | .readEnabled next =>
    match m.config.value Json.getBoolean "enabled" false, next with
    | .ok isEnabled, _ => some { m with isEnabled, caller := .createIn next }
    | .error _, some _ => some { m with caller := .idle }
    -- the constructor throws, and there is no object
    | .error _, none => none
  | .createIn next =>
    match m.config.at' "connector_in" >>= factories.connectorIn with
    | .ok _ => some { m with connectorIn := some m.constructs, caller := .createFiltras (entries m.config) next }
    | .error e => some (m.constructFailed e)
  | .createFiltras [] next => some { m with caller := .createOut next }
  | .createFiltras (entry :: rest) next =>
    match factories.filtra entry m.pipeline.world with
    | (.ok f, world) =>
      some
        { m with
          pipeline := { m.pipeline with world }
          filtras := m.filtras ++ [f]
          caller := .createFiltras rest next }
    | (.error e, world) => some ({ m with pipeline := { m.pipeline with world } }.constructFailed e)
  | .createOut next =>
    match factories.connectorOut (m.config.find? "connector_out") with
    | .ok _ => some { m with connectorOut := some m.constructs, caller := .setStopped next }
    | .error e => some (m.constructFailed e)
  | .setStopped next =>
    some { m with pipeline := { m.pipeline with state := .stopped }, caller := .startControl next }
  | .startControl next => some { m with threads := m.threads ++ [{}], caller := next.elim .idle .push }
  | .setMalformed => some { m with pipeline := { m.pipeline with state := .malformed }, caller := .freeResources }
  | .freeResources => some { m.freeResources with caller := .idle }
  | .push cmd =>
    match m.pipeline.cQueue.push cmd with
    | .ok cQueue => some { m with pipeline := { m.pipeline with cQueue }, caller := .idle }
    | .error _ => some { m with caller := .idle }

/-- `if(connector_in_ != nullptr) connector_in_->stop();` does nothing without a connector. -/
def stopCall (m : Managed ω) (call : Except Exn Unit) : List Instr → Except Exn Unit
  | .connectorStop :: _ => if m.connectorIn.isSome then call else .ok ()
  | _ => call

/-- The statement that ends the handling of a `TERMINATE`. -/
def endsTerminate (control : List Instr) : Bool := control = [.setState .terminated, .command]

/-- The object after a statement of the thread that leaves the pipeline so. -/
def moved (m : Managed ω) (i : Nat) (t : ControlThread) (pipeline : Pipeline ω) : Managed ω :=
  { if t.control.head? = some .freeResources then m.freeResources else m with
    pipeline
    threads :=
      m.threads.set i { control := pipeline.control, terminated := t.terminated || endsTerminate t.control } }

/-- A statement of the control thread of the index. -/
def runControl (m : Managed ω) (i : Nat) (call : Except Exn Unit) (t : ControlThread) : Option (Managed ω) :=
  ({ m.pipeline with control := t.control }.runControl (m.stopCall call t.control) t.control).map (m.moved i t)

inductive Action (ω : Type) where
  /-- `execute` is called. -/
  | execute (cmd : PipelineCommand)
  | caller (factories : Factories ω)
  | control (i : Nat) (call : Except Exn Unit)
  /-- A worker thread, or an event timer. -/
  | worker (a : Pipeline.Action)

def step : Action ω → Managed ω → Option (Managed ω)
  | .execute cmd, m =>
    match m.caller with
    | .idle => some { m with caller := .testAlive cmd }
    | _ => none
  | .caller factories, m => m.runCaller factories m.caller
  | .control i call, m => m.threads[i]?.bind (m.runControl i call)
  | .worker a, m =>
    match a with
    | .execute _ | .control _ => none
    | a => (m.pipeline.step m.filtras a).map fun pipeline => { m with pipeline }

/-- The constructor has returned. -/
def Constructed (m : Managed ω) : Prop :=
  ∃ config world, Lib.ReachesWhen step (fun a _ => ∃ factories, a = .caller factories) (raw config world) m ∧
    m.caller = .idle

/-! ## What a step does -/

@[simp] theorem moved_threads (m : Managed ω) (i : Nat) (t : ControlThread) (pipeline : Pipeline ω) :
    (m.moved i t pipeline).threads =
      m.threads.set i { control := pipeline.control, terminated := t.terminated || endsTerminate t.control } := rfl

@[simp] theorem moved_pipeline (m : Managed ω) (i : Nat) (t : ControlThread) (pipeline : Pipeline ω) :
    (m.moved i t pipeline).pipeline = pipeline := rfl

@[simp] theorem moved_caller (m : Managed ω) (i : Nat) (t : ControlThread) (pipeline : Pipeline ω) :
    (m.moved i t pipeline).caller = m.caller := by
  unfold moved
  split <;> rfl

/-- A control thread's step is one of its statement, in the pipeline as it is. -/
theorem control_step {m n : Managed ω} {i : Nat} {call : Except Exn Unit} (h : step (.control i call) m = some n) :
    ∃ t pipeline, m.threads[i]? = some t ∧
      { m.pipeline with control := t.control }.runControl (m.stopCall call t.control) t.control = some pipeline ∧
      n = m.moved i t pipeline := by
  obtain ⟨t, found, h⟩ := Option.bind_eq_some_iff.mp h
  obtain ⟨pipeline, stepped, rfl⟩ := Option.map_eq_some_iff.mp h
  exact ⟨t, pipeline, found, stepped, rfl⟩

/-- A worker's step is one of the pipeline with the chain that the object has. -/
theorem worker_step {m n : Managed ω} {a : Pipeline.Action} (h : step (.worker a) m = some n) :
    ∃ pipeline, m.pipeline.step m.filtras a = some pipeline ∧ n = { m with pipeline } ∧
      (∀ cmd, a ≠ .execute cmd) ∧ ∀ call, a ≠ .control call := by
  cases a with
  | execute cmd | control call => cases h
  | wakeup => exact ⟨m.pipeline.notify, rfl, (Option.some.inj h).symm, by simp, by simp⟩
  | receiving | processing | sending | timerPush | timerNotify =>
    obtain ⟨pipeline, stepped, rfl⟩ := Option.map_eq_some_iff.mp h
    exact ⟨pipeline, stepped, rfl, by simp, by simp⟩

/-- `prepare` is entered on a dead pipeline, and starts one control thread at its end. -/
theorem runCaller_threads {m n : Managed ω} {factories : Factories ω} (h : step (.caller factories) m = some n) :
    n.threads = m.threads ∧
        (n.caller.preparing → m.caller.preparing ∨ ∃ cmd, m.caller = .testAlive cmd ∧ ¬ m.pipeline.isAlive) ∨
      n.threads = m.threads ++ [({} : ControlThread)] ∧ m.caller.preparing ∧ n.caller.preparing = false := by
  have h : m.runCaller factories m.caller = some n := h
  cases here : m.caller with
  | idle => rw [here] at h; cases h
  | testAlive cmd =>
    rw [here] at h
    cases h
    refine .inl ⟨rfl, fun preparing => .inr ⟨cmd, rfl, fun alive => ?_⟩⟩
    simp [alive, CallerPc.preparing] at preparing
  | startControl next =>
    rw [here] at h
    cases h
    refine .inr ⟨rfl, rfl, ?_⟩
    cases next <;> rfl
  | push cmd =>
    rw [here] at h
    simp only [runCaller] at h
    split at h <;> cases h <;> exact .inl ⟨rfl, by simp [CallerPc.preparing]⟩
  | createFiltras entries next =>
    rw [here] at h
    refine .inl ⟨?_, fun _ => .inl rfl⟩
    cases entries with
    | nil => cases h; rfl
    | cons entry rest => simp only [runCaller] at h; split at h <;> cases h <;> rfl
  | clearError | readEnabled | createIn | createOut | setStopped | setMalformed | freeResources =>
    rw [here] at h
    refine .inl ⟨?_, fun _ => .inl rfl⟩
    simp only [runCaller] at h
    first
      | cases h; rfl
      | split at h <;> cases h <;> rfl

/-- A call tests the pipeline at its beginning only. -/
theorem runCaller_untested {m n : Managed ω} {factories : Factories ω} (h : step (.caller factories) m = some n)
    (cmd : PipelineCommand) : n.caller ≠ .testAlive cmd := by
  have h : m.runCaller factories m.caller = some n := h
  cases here : m.caller with
  | idle => rw [here] at h; cases h
  | testAlive => rw [here] at h; cases h; simp only; split <;> simp
  | startControl next => rw [here] at h; cases h; cases next <;> simp
  | createFiltras entries next =>
    rw [here] at h
    cases entries with
    | nil => cases h; simp
    | cons entry rest => simp only [runCaller] at h; split at h <;> cases h <;> simp [constructFailed]
  | clearError | readEnabled | createIn | createOut | setStopped | setMalformed | freeResources | push =>
    rw [here] at h
    simp only [runCaller] at h
    first
      | cases h; simp
      | split at h <;> cases h <;> simp [constructFailed]

end Managed

end M2eBridge
