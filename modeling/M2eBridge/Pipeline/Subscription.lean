import M2eBridge.Pipeline.Construct
import M2eBridge.Pipeline.Handle

/-!
# The handle over the life of a pipeline

A `Pipeline` object whose `connector_in_` is an `InternalConnector`, from its constructor
on. A connector that `construct` makes has a null handle, and the pointer may be changed
to it while the threads of an earlier `construct` are at work; so the handle is good
exactly while the connector that `connector_in_` points to has connected
(`handle_valid_iff`). As long as no command finds the pipeline dead before its control
threads have ended, the receiving thread pops only there; but the control thread calls
`stop()` in any state but three, and where the receiving thread has not connected yet, or
has disconnected by itself, the handle is null or dangling (`stops_removed_buffer`).
-/

namespace M2eBridge

/-- The object, and the queue with the handles to it. `incoming` is that of the connector
that `connector_in_` points to; `connected` is history: this connector has been connected
and has not been disconnected yet. -/
structure InternalManaged (ω : Type) where
  managed : Managed ω
  queue : InternalQueue Message := {}
  bufferSize : Nat := 100
  incoming : RQueue := {}
  others : List RQueue := []
  connected : Bool := false

namespace InternalManaged

variable {ω : Type}

/-- The object at the start of its constructor. -/
def raw (config : Json) (world : ω) (bufferSize : Nat) : InternalManaged ω :=
  { managed := .raw config world, bufferSize }

/-- The pipeline that the threads work on. -/
def internal (m : InternalManaged ω) : InternalPipeline ω where
  pipeline := m.managed.pipeline
  queue := m.queue
  bufferSize := m.bufferSize
  incoming := m.incoming
  others := m.others
  connected := m.connected

/-- The object with the pipeline as the threads have left it. -/
def put (m : InternalManaged ω) (s : InternalPipeline ω) : InternalManaged ω where
  managed := { m.managed with pipeline := s.pipeline }
  queue := s.queue
  bufferSize := s.bufferSize
  incoming := s.incoming
  others := s.others
  connected := s.connected

/-- The object after a step of `managed`: a connector that is new is not connected. -/
def carry (m : InternalManaged ω) (managed : Managed ω) : InternalManaged ω :=
  if managed.connectorIn = m.managed.connectorIn then { m with managed }
  else { m with managed, incoming := {}, connected := false }

inductive Action (ω : Type) where
  /-- `execute` is called. -/
  | execute (cmd : PipelineCommand)
  | caller (factories : Factories ω)
  /-- A statement of a control thread; `call` says whether a start is given up. -/
  | control (i : Nat) (call : Except Exn Unit)
  /-- A step of a worker thread, of an event timer, or of another user of the queue. -/
  | other (a : InternalPipeline.Action)

/-- The thread is in `connector_in_->stop()`. -/
def Stopping (m : InternalManaged ω) (t : ControlThread) : Prop :=
  t.control.head? = some .connectorStop ∧ m.managed.connectorIn.isSome

instance (m : InternalManaged ω) (t : ControlThread) : Decidable (m.Stopping t) := inferInstanceAs (Decidable (_ ∧ _))

/-- A statement of a control thread. `stop()` has no effect that is defined where the handle has no buffer. -/
def runControl (m : InternalManaged ω) (i : Nat) (call : Except Exn Unit) (t : ControlThread) :
    Option (InternalManaged ω) :=
  if m.Stopping t then
    (m.queue.exitBlockingCalls m.incoming).bind fun queue =>
      ((m.managed.runControl i (.ok ()) t).map m.carry).map ({ · with queue })
  else (m.managed.runControl i call t).map m.carry

/-- The receiving thread calls the connector. -/
def calls : ReceivingPc → Bool
  | .connect | .receive | .disconnect => true
  | _ => false

/-- There is no call through a null `connector_in_`. -/
def runReceiving (m : InternalManaged ω) : Option (InternalManaged ω) :=
  if m.managed.connectorIn = none ∧ m.managed.pipeline.receiving.thread.any calls then none
  else (m.internal.runReceiving m.managed.filtras).map m.put

def step : Action ω → InternalManaged ω → Option (InternalManaged ω)
  | .execute cmd, m => (Managed.step (.execute cmd) m.managed).map m.carry
  | .caller factories, m => (Managed.step (.caller factories) m.managed).map m.carry
  | .control i call, m => m.managed.threads[i]?.bind (m.runControl i call)
  | .other a, m =>
    match a with
    | .control _ | .thread (.execute _) => none
    | .receiving => m.runReceiving
    | a => (InternalPipeline.step m.managed.filtras a m.internal).map m.put

/-- The step calls `stop()` of the connector. -/
def Stops (a : Action ω) (m : InternalManaged ω) : Prop :=
  ∃ i call t, a = .control i call ∧ m.managed.threads[i]? = some t ∧ m.Stopping t

/-- The step pops. -/
def Pops (a : Action ω) (m : InternalManaged ω) : Prop :=
  a = .other .receiving ∧ m.managed.pipeline.receiving.thread = some .receive

/-- Where the step uses the handle, this denotes a buffer. -/
def Valid (a : Action ω) (m : InternalManaged ω) : Prop := Stops a m ∨ Pops a m → m.incoming.LiveIn m.queue

/-- A command finds the pipeline dead only when its control threads have ended. -/
def Prepares (a : Action ω) (m : InternalManaged ω) : Prop :=
  ∀ factories, a = .caller factories → Managed.PreparesEnded (.caller factories) m.managed

instance (a : Action ω) (m : InternalManaged ω) : Decidable (Prepares a m) :=
  match a with
  | .caller factories =>
    decidable_of_iff (Managed.PreparesEnded (.caller factories) m.managed)
      ⟨fun ended _ same => by cases same; exact ended, fun prepares => prepares factories rfl⟩
  | .execute _ | .control .. | .other _ => .isTrue fun _ same => by cases same

/-! ## Whose the handle is -/

abbrev Owned (m : InternalManaged ω) : Prop := m.internal.Owned

theorem Owned.carry {m : InternalManaged ω} (owned : Owned m) (managed : Managed ω) : Owned (m.carry managed) := by
  unfold InternalManaged.carry
  split
  · exact owned.queue managed.pipeline rfl rfl
  · have dead : ¬ RQueue.LiveIn {} m.queue := by
      rintro ⟨id, own, -⟩
      cases own
    refine ⟨iff_of_false dead (by simp [internal]), fun id own => ?_, fun rq member => ?_⟩
    · cases own
    · exact ⟨(owned.others rq member).1, fun on => absurd on dead⟩

/-- A step of the object, with the effect of a `stop()` on the buffer. -/
theorem carry_of_control {m n : InternalManaged ω} {i : Nat} {call : Except Exn Unit} {t : ControlThread}
    (h : m.runControl i call t = some n) :
    ∃ call' managed, m.managed.runControl i call' t = some managed ∧ n = { m.carry managed with queue := n.queue } ∧
      n.queue.keys = m.queue.keys ∧ n.queue.maxTakenKey = m.queue.maxTakenKey ∧
      ∀ e, t.control.head? = some .connectorStop → m.managed.stopCall call' t.control ≠ .error e := by
  have queue (managed : Managed ω) : (m.carry managed).queue = m.queue := by
    unfold carry
    split <;> rfl
  unfold runControl at h
  split at h
  case isTrue stopping =>
    obtain ⟨buffers, released, h⟩ := Option.bind_eq_some_iff.mp h
    obtain ⟨_, carried, rfl⟩ := Option.map_eq_some_iff.mp h
    obtain ⟨managed, moved, rfl⟩ := Option.map_eq_some_iff.mp carried
    obtain ⟨keys, bound⟩ := InternalQueue.exitBlockingCalls_keys released
    refine ⟨.ok (), managed, moved, rfl, keys, bound, fun e head => ?_⟩
    obtain ⟨rest, here⟩ := List.head?_eq_some_iff.mp head
    rw [here, Managed.stopCall]
    split <;> simp
  case isFalse elsewhere =>
    obtain ⟨managed, moved, rfl⟩ := Option.map_eq_some_iff.mp h
    refine ⟨call, managed, moved, rfl, congrArg _ (queue managed), congrArg _ (queue managed), fun e head => ?_⟩
    obtain ⟨rest, here⟩ := List.head?_eq_some_iff.mp head
    have null : m.managed.connectorIn.isSome = false := by simpa [Stopping, head] using elsewhere
    simp [here, Managed.stopCall, null]

/-- A step on the pipeline of the object, and not of a control thread. -/
theorem other_step {m n : InternalManaged ω} {a : InternalPipeline.Action} (h : step (.other a) m = some n) :
    ∃ s, InternalPipeline.step m.managed.filtras a m.internal = some s ∧ n = m.put s ∧ ∀ call, a ≠ .control call := by
  have moves (other : ∀ call, a ≠ .control call)
      (h : (InternalPipeline.step m.managed.filtras a m.internal).map m.put = some n) :
      ∃ s, InternalPipeline.step m.managed.filtras a m.internal = some s ∧ n = m.put s ∧ ∀ call, a ≠ .control call := by
    obtain ⟨s, moved, rfl⟩ := Option.map_eq_some_iff.mp h
    exact ⟨s, moved, rfl, other⟩
  cases a with
  | control => cases h
  | receiving =>
    simp only [step, runReceiving] at h
    split at h
    · cases h
    · exact moves (by simp) h
  | thread a =>
    cases a with
    | execute => cases h
    | _ => exact moves (by simp) h
  | subscribe | unsubscribe | push | pop => exact moves (by simp) h

theorem Owned.step {m n : InternalManaged ω} {a : Action ω} (owned : Owned m) (h : InternalManaged.step a m = some n) :
    Owned n := by
  cases a with
  | execute | caller =>
    obtain ⟨managed, -, rfl⟩ := Option.map_eq_some_iff.mp h
    exact owned.carry managed
  | control i call =>
    obtain ⟨t, -, h⟩ := Option.bind_eq_some_iff.mp h
    obtain ⟨call', managed, -, same, keys, bound, -⟩ := carry_of_control h
    have carried := owned.carry managed
    have queue : (m.carry managed).queue = m.queue := by
      unfold InternalManaged.carry
      split <;> rfl
    rw [same]
    exact InternalPipeline.Owned.queue carried _ (keys.trans (congrArg _ queue.symm)) (bound.trans (congrArg _ queue.symm))
  | other a =>
    obtain ⟨s, moved, rfl, -⟩ := other_step h
    exact InternalPipeline.Owned.step owned moved

theorem Owned.raw (config : Json) (world : ω) (bufferSize : Nat) : Owned (raw config world bufferSize) where
  live_iff := iff_of_false (by rintro ⟨id, own, _⟩; cases own) (by simp [internal, InternalManaged.raw])
  own := fun id own => by cases own
  others := fun rq member => by cases member

end InternalManaged

/-! ## One control thread at a time -/

namespace Pipeline

variable {ω : Type}

/-- Only `free_resources` is the last statement of a control thread. -/
theorem Annotated.ends {timely : Prop} {s t : Pipeline ω} {call : Except Exn Unit}
    (slots : Annotated (slotsBefore timely) s) (h : s.runControl call s.control = some t) (ended : t.control = []) :
    t.Empty := by
  have last : ∀ c d, Follows s c d → Course c → d = [] → c = [.freeResources] := by
    intro c d follows course none_
    cases follows with
    | test => split at none_ <;> cases none_
    | command => simp at none_
    | start => simp [startBody] at none_
    | stop => simp [stopBody] at none_
    | notify | underflow | caught => cases none_
    | next i rest test command =>
      cases none_
      rcases course with rfl | rfl | rfl
      · exact absurd rfl test
      · exact absurd rfl command
      · rfl
  have here := last _ _ (runControl_follows rfl h) slots.course ended
  have empty : s.Empty := slots.holds _ _ here
  rw [here] at h
  cases h
  exact ⟨empty.receiving, empty.processing, empty.sending⟩

/-- The place of a control thread is not looked at. -/
theorem Apart.at {s t : Pipeline ω} (apart : Apart s t) (control : List Instr) :
    Apart { s with control } { t with control } where
  state := apart.state.imp_right fun ⟨failed, worker⟩ => ⟨failed, fun empty => worker ⟨empty.1, empty.2, empty.3⟩⟩
  receiving := apart.receiving
  processing := apart.processing
  sending := apart.sending

end Pipeline

namespace Managed

variable {ω : Type}

/-- A call leaves the workers alone, and the state and the connector outside `prepare`. -/
structure CallerStep (m n : Managed ω) : Prop where
  receiving : n.pipeline.receiving = m.pipeline.receiving
  processing : n.pipeline.processing = m.pipeline.processing
  sending : n.pipeline.sending = m.pipeline.sending
  outside : m.caller.preparing = false → n.pipeline.state = m.pipeline.state ∧ n.connectorIn = m.connectorIn
  stopped : ∀ next, n.caller = .startControl next → n.pipeline.state = .stopped
  starts : n.threads ≠ m.threads → ∃ next, m.caller = .startControl next ∧ n.pipeline = m.pipeline

theorem caller_step {m n : Managed ω} {factories : Factories ω} (h : step (.caller factories) m = some n) :
    CallerStep m n := by
  have h : m.runCaller factories m.caller = some n := h
  cases here : m.caller with
  | idle => rw [here] at h; cases h
  | testAlive cmd =>
    rw [here] at h
    cases h
    refine ⟨rfl, rfl, rfl, fun _ => ⟨rfl, rfl⟩, fun next same => ?_, fun other => absurd rfl other⟩
    simp only at same
    split at same <;> cases same
  | push cmd =>
    rw [here] at h
    simp only [runCaller] at h
    split at h <;> cases h <;>
      exact ⟨rfl, rfl, rfl, fun _ => ⟨rfl, rfl⟩, fun next same => (by cases same), fun other => absurd rfl other⟩
  | startControl next =>
    rw [here] at h
    cases h
    refine ⟨rfl, rfl, rfl, fun outside => ?_, fun next' same => ?_, fun _ => ⟨next, here, rfl⟩⟩
    · rw [here] at outside; cases outside
    · cases next <;> cases same
  | setStopped next =>
    rw [here] at h
    cases h
    refine ⟨rfl, rfl, rfl, fun outside => ?_, fun _ _ => rfl, fun other => absurd rfl other⟩
    rw [here] at outside
    cases outside
  | createFiltras entries next =>
    have preparing : m.caller.preparing ≠ false := by simp [here, CallerPc.preparing]
    rw [here] at h
    cases entries with
    | nil =>
      cases h
      exact ⟨rfl, rfl, rfl, fun outside => absurd outside preparing, fun _ same => (by cases same),
        fun other => absurd rfl other⟩
    | cons entry rest =>
      simp only [runCaller] at h
      split at h <;> cases h <;>
        exact ⟨rfl, rfl, rfl, fun outside => absurd outside preparing, fun _ same => (by cases same),
          fun other => absurd rfl other⟩
  | clearError | setMalformed | freeResources =>
    have preparing : m.caller.preparing ≠ false := by simp [here, CallerPc.preparing]
    rw [here] at h
    cases h
    exact ⟨rfl, rfl, rfl, fun outside => absurd outside preparing, fun _ same => (by cases same),
      fun other => absurd rfl other⟩
  | readEnabled | createIn | createOut =>
    have preparing : m.caller.preparing ≠ false := by simp [here, CallerPc.preparing]
    rw [here] at h
    simp only [runCaller] at h
    split at h <;> cases h <;>
      exact ⟨rfl, rfl, rfl, fun outside => absurd outside preparing, fun _ same => (by cases same),
        fun other => absurd rfl other⟩

end Managed

namespace InternalManaged

variable {ω : Type}

/-- The pipeline, as the control thread sees it. -/
abbrev seenBy (m : InternalManaged ω) (t : ControlThread) : Pipeline ω := { m.managed.pipeline with control := t.control }

/-- What the steps keep while `prepare` waits for the control threads to end. -/
structure Steady (m : InternalManaged ω) : Prop where
  sole : Managed.Sole m.managed
  slots : ∀ t ∈ m.managed.threads, Pipeline.Annotated (Pipeline.slotsBefore False) (m.seenBy t)
  empty : (∀ t ∈ m.managed.threads, t.Ended) → m.managed.pipeline.Empty
  stopped : ∀ next, m.managed.caller = .startControl next → m.managed.pipeline.state = .stopped
  placed : ∀ pc, m.managed.pipeline.receiving.thread = some pc → pc.Placed m.connected m.managed.pipeline.state

theorem annotated_of_ended {before : Instr → Pipeline ω → Prop} {m : InternalManaged ω} {t : ControlThread}
    (ended : t.Ended) : Pipeline.Annotated before (m.seenBy t) where
  course := by
    rw [show (m.seenBy t).control = [] from ended]
    trivial
  holds := fun i rest here => by
    have none_ : (m.seenBy t).control = [] := ended
    cases none_.symm.trans here

/-- The assertions say nothing of the queues. -/
theorem annotated_of_apart {timely : Prop} {m n : InternalManaged ω} {t : ControlThread}
    (slots : Pipeline.Annotated (Pipeline.slotsBefore timely) (m.seenBy t))
    (apart : Pipeline.Apart m.managed.pipeline n.managed.pipeline) :
    Pipeline.Annotated (Pipeline.slotsBefore timely) (n.seenBy t) :=
  ⟨slots.course, fun i rest here => (apart.at t.control).slotsBefore (slots.holds i rest here)⟩

@[simp] theorem carry_managed (m : InternalManaged ω) (managed : Managed ω) : (m.carry managed).managed = managed := by
  unfold carry
  split <;> rfl

theorem carry_connected {m : InternalManaged ω} {managed : Managed ω} (same : managed.connectorIn = m.managed.connectorIn) :
    (m.carry managed).connected = m.connected := by
  rw [carry, if_pos same]

theorem Steady.execute {m : InternalManaged ω} {managed : Managed ω} {cmd : PipelineCommand} (steady : Steady m)
    (h : Managed.step (.execute cmd) m.managed = some managed) : Steady (m.carry managed) := by
  simp only [Managed.step] at h
  split at h <;> cases h
  have connected : (m.carry { m.managed with caller := .testAlive cmd }).connected = m.connected := carry_connected rfl
  refine ⟨?_, ?_, ?_, ?_, ?_⟩
  · rw [carry_managed]
    exact ⟨steady.sole.one, fun preparing => by cases preparing⟩
  · simpa [seenBy] using steady.slots
  · simpa using steady.empty
  · simp
  · simpa [connected] using steady.placed

theorem Steady.caller {m : InternalManaged ω} {managed : Managed ω} {factories : Factories ω} (steady : Steady m)
    (prepares : Managed.PreparesEnded (.caller factories) m.managed)
    (h : Managed.step (.caller factories) m.managed = some managed) : Steady (m.carry managed) := by
  have sole := steady.sole.caller prepares h
  have called := Managed.caller_step h
  have still : (∀ t ∈ m.managed.threads, t.Ended) → managed.pipeline.Empty := by
    intro ended
    have empty := steady.empty ended
    exact ⟨called.receiving ▸ empty.receiving, called.processing ▸ empty.processing, called.sending ▸ empty.sending⟩
  cases at_work : m.managed.caller.preparing with
  | true =>
    -- all the threads have ended, and there is no worker
    have ended := steady.sole.preparing at_work
    have empty := still ended
    refine ⟨by rwa [carry_managed], ?_, by simpa using fun _ => empty, by simpa using called.stopped, ?_⟩
    · intro t member
      rw [carry_managed] at member
      by_cases same : managed.threads = m.managed.threads
      · exact annotated_of_ended (ended t (same ▸ member))
      · obtain ⟨next, starting, kept⟩ := called.starts same
        rcases Managed.runCaller_threads h with ⟨threads, -⟩ | ⟨threads, -⟩
        · exact absurd threads same
        · rw [threads] at member
          rcases List.mem_append.mp member with old | new
          · exact annotated_of_ended (ended t old)
          · obtain rfl := List.mem_singleton.mp new
            have stopped : managed.pipeline.state = .stopped := by rw [kept]; exact steady.stopped next starting
            refine ⟨.inl rfl, fun i rest here => ?_⟩
            cases here
            rw [seenBy, carry_managed]
            exact .inl ⟨.inl stopped, empty.receiving, empty.processing, empty.sending⟩
    · intro pc here
      rw [carry_managed] at here
      cases here.symm.trans empty.receiving
  | false =>
    obtain ⟨state, connector⟩ := called.outside at_work
    have threads : managed.threads = m.managed.threads := by
      by_contra other
      obtain ⟨next, starting, -⟩ := called.starts other
      rw [starting] at at_work
      cases at_work
    have apart : Pipeline.Apart m.managed.pipeline (m.carry managed).managed.pipeline := by
      rw [carry_managed]
      exact .of_same state (congrArg _ called.receiving) (congrArg _ called.processing) (congrArg _ called.sending)
    refine ⟨by rwa [carry_managed], ?_, ?_, by simpa using called.stopped, ?_⟩
    · intro t member
      rw [carry_managed, threads] at member
      exact annotated_of_apart (steady.slots t member) apart
    · rw [carry_managed, threads]
      exact still
    · rw [carry_managed, carry_connected connector, called.receiving, state]
      exact steady.placed

theorem Steady.control {m n : InternalManaged ω} {i : Nat} {call : Except Exn Unit} {t : ControlThread} (steady : Steady m)
    (found : m.managed.threads[i]? = some t) (h : m.runControl i call t = some n) : Steady n := by
  obtain ⟨call', managed, ran, same, -, -, returns⟩ := carry_of_control h
  obtain ⟨pipeline, stepped, rfl⟩ := Option.map_eq_some_iff.mp ran
  have member := List.mem_of_getElem? found
  have slots := steady.slots t member
  have busy : ¬ t.Ended := by
    intro ended
    rw [show t.control = [] from ended] at stepped
    cases stepped
  have sole : Managed.Sole (m.managed.moved i t pipeline) :=
    steady.sole.control (Option.bind_eq_some_iff.mpr ⟨t, found, ran⟩)
  have others := steady.sole.others found busy pipeline
  have next : Pipeline.Annotated (Pipeline.slotsBefore False) pipeline := by
    have moved : Pipeline.step [] (.control (m.managed.stopCall call' t.control)) (m.seenBy t) = some pipeline := stepped
    refine slots.slots (fun e rest thrown here => ?_) (fun never => never.elim) moved
    have first : t.control = .connectorStop :: rest := here
    exact returns e (by rw [first]; rfl) (Pipeline.Action.control.inj thrown)
  have managedIs : n.managed = m.managed.moved i t pipeline := by rw [same]; simp
  refine ⟨by rwa [managedIs], ?_, ?_, ?_, ?_⟩
  · intro u at_u
    rw [managedIs] at at_u
    rcases others u at_u with ended | rfl
    · exact annotated_of_ended ended
    · rw [seenBy, managedIs]
      exact next
  · rw [managedIs]
    intro ended
    have bound := (List.getElem?_eq_some_iff.mp found).1
    exact slots.ends stepped (ended _ (List.mem_set bound _))
  · intro later starting
    rw [managedIs, Managed.moved_caller] at starting
    exact absurd (steady.sole.preparing (by rw [starting]; rfl) t member) busy
  · intro pc here
    rw [managedIs] at here ⊢
    by_cases frees : t.control.head? = some .freeResources
    · -- the connector is deleted when there is no worker
      obtain ⟨rest, first⟩ := List.head?_eq_some_iff.mp frees
      have empty : (m.seenBy t).Empty := slots.holds _ _ first
      rw [first] at stepped
      cases stepped
      cases here.symm.trans empty.receiving
    · have connected : n.connected = m.connected := by
        rw [same]
        refine carry_connected ?_
        rw [Managed.moved, if_neg frees]
      rw [connected]
      exact InternalPipeline.placed_control slots steady.placed stepped pc here

theorem Steady.step {m n : InternalManaged ω} {a : Action ω} (steady : Steady m) (prepares : Prepares a m)
    (h : InternalManaged.step a m = some n) : Steady n := by
  cases a with
  | execute cmd =>
    obtain ⟨managed, next, rfl⟩ := Option.map_eq_some_iff.mp h
    exact steady.execute next
  | caller factories =>
    obtain ⟨managed, next, rfl⟩ := Option.map_eq_some_iff.mp h
    exact steady.caller (prepares factories rfl) next
  | control i call =>
    obtain ⟨t, found, h⟩ := Option.bind_eq_some_iff.mp h
    exact steady.control found h
  | other a =>
    obtain ⟨s, moved, rfl, elsewhere⟩ := other_step h
    obtain ⟨aside, placed⟩ := InternalPipeline.placed_step elsewhere steady.placed moved
    refine ⟨⟨steady.sole.one, steady.sole.preparing⟩, fun t member => ?_, fun ended => ?_, fun next starting => ?_, placed⟩
    · exact annotated_of_apart (steady.slots t member) aside.toApart
    · exact aside.empty.mpr (steady.empty ended)
    · have empty := steady.empty (steady.sole.preparing (by rw [show m.managed.caller = _ from starting]; rfl))
      rcases aside.state with same | ⟨-, worker⟩
      · exact same.trans (steady.stopped next starting)
      · exact absurd empty worker

theorem Steady.raw (config : Json) (world : ω) (bufferSize : Nat) : Steady (raw config world bufferSize) where
  sole := .of_ended fun t member => by cases member
  slots := fun t member => by cases member
  empty := fun _ => ⟨rfl, rfl, rfl⟩
  stopped := fun next starting => by cases starting
  placed := fun pc here => by cases here

/-- **Handles.** Where a step of any run uses the handle, it denotes a buffer exactly if the connector that
`connector_in_` points to is connected; and the receiving thread uses it only then, as long as no command has found the
pipeline dead before its control threads had ended. -/
theorem handle_valid_iff (config : Json) (world : ω) (bufferSize : Nat) :
    (∀ m, Lib.Reaches step (raw config world bufferSize) m →
      ∀ a, Valid a m ↔ (Stops a m ∨ Pops a m → m.connected = true)) ∧
    ∀ m, Lib.ReachesWhen step Prepares (raw config world bufferSize) m →
      ∀ a, Valid a m ↔ (Stops a m → m.connected = true) := by
  have valid : ∀ m, Lib.Reaches step (raw config world bufferSize) m →
      ∀ a, Valid a m ↔ (Stops a m ∨ Pops a m → m.connected = true) := by
    intro m reached a
    have owned := reached.invariant Owned (.raw config world bufferSize) fun a s t owned h => owned.step h
    exact imp_congr_right fun _ => owned.live_iff
  refine ⟨valid, fun m reached a => ?_⟩
  have steady := reached.invariant Steady (.raw config world bufferSize) fun a s t prepares steady h => steady.step prepares h
  rw [valid m (Relation.ReflTransGen.mono (fun _ _ ⟨a, _, next⟩ => ⟨a, next⟩) _ _ reached)]
  constructor
  · exact fun uses stops => uses (.inl stops)
  · rintro connected (stops | ⟨-, pops⟩)
    · exact connected stops
    · exact steady.placed _ pops

/-- From the constructor up to the receiving thread, with `connector_out_` connected or not; then `STOP`, up to the call
of `stop()`. -/
def startThenStop (connect : Except Exn Unit) (sending receiving : Nat) : List (Action Unit) :=
  let caller := Action.caller Managed.chainFactories
  let control := Action.control 0 (.ok ())
  let thread (a : Pipeline.Action) := Action.other (.thread a)
  List.replicate 8 caller ++ control :: .execute .start :: List.replicate 2 caller ++ List.replicate 6 control ++
    thread (.sending (.ok ())) :: thread (.sending connect) :: List.replicate sending (thread (.sending (.ok ()))) ++
    List.replicate 2 control ++ List.replicate 4 (thread (.processing fun _ => {})) ++ List.replicate 2 control ++
    List.replicate receiving (.other .receiving) ++ control :: .execute .stop :: List.replicate 2 caller ++
    List.replicate 3 control

def created : InternalManaged Unit := raw Managed.chainConfig () 100

/-- The receiving thread is in its loop. -/
def receivingAtStop : List (Action Unit) := startThenStop (.ok ()) 1 3

def receivingStopped : InternalManaged Unit := (Lib.exec step receivingAtStop created).getD created

set_option maxRecDepth 4000 in
theorem receivingAtStop_prepares : Lib.Along step Prepares receivingAtStop created := by
  decide

example : Stops (.control 0 (.ok ())) receivingStopped := ⟨0, .ok (), _, rfl, rfl, rfl, rfl⟩

theorem handle_valid_receiving : Valid (.control 0 (.ok ())) receivingStopped :=
  ((handle_valid_iff Managed.chainConfig () 100).2 receivingStopped (receivingAtStop_prepares.reachesWhen rfl)
    (.control 0 (.ok ()))).mpr fun _ => rfl

/-- `connector_out_` does not connect: the receiving thread subscribes, finds the
pipeline failed, and unsubscribes. -/
def failedAtStop : List (Action Unit) := startThenStop (.error ⟨.runtimeError, "Connection refused"⟩) 3 5

def failedStopped : InternalManaged Unit := (Lib.exec step failedAtStop created).getD created

theorem stops_removed_buffer :
    ¬ ∀ m : InternalManaged Unit, Lib.Reaches step created m → ∀ a, Valid a m := by
  intro all
  have reached : Lib.Reaches step created failedStopped := Lib.exec_reaches failedAtStop rfl
  have live := all failedStopped reached (.control 0 (.ok ())) (.inl ⟨0, .ok (), _, rfl, rfl, rfl, rfl⟩)
  obtain ⟨id, -, member⟩ := live
  cases member

/-- Two control threads, since a command has come behind a `TERMINATE`: one of them starts the threads while the other
is about to set `TERMINATED` again. Then the next command finds the pipeline dead, and `prepare` makes a connector while
the receiving thread is in its loop. -/
def preparedUnderneath : List (Action Unit) :=
  let caller := Action.caller Managed.chainFactories
  let control (i : Nat) := Action.control i (.ok ())
  let thread (a : Pipeline.Action) := Action.other (.thread a)
  List.replicate 8 caller ++ .execute .terminate :: List.replicate 2 caller ++ List.replicate 4 (control 0) ++
    .execute .terminate :: List.replicate 10 caller ++ List.replicate 2 (control 0) ++
    .execute .start :: List.replicate 2 caller ++ List.replicate 7 (control 1) ++
    List.replicate 3 (thread (.sending (.ok ()))) ++ List.replicate 2 (control 1) ++
    List.replicate 5 (thread (.processing fun _ => {})) ++ List.replicate 2 (control 1) ++
    List.replicate 4 (.other .receiving) ++ control 0 :: .execute .stop :: List.replicate 4 caller

/-- The receiving thread pops through the null handle. -/
example : (Lib.exec step preparedUnderneath created).map
    (fun m => (m.managed.pipeline.receiving.thread, m.incoming.queue)) = some (some .receive, none) := by
  rfl

end InternalManaged

end M2eBridge
