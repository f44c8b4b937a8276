import M2eBridge.Pipeline.Slots
import M2eBridge.InternalConnector

/-!
# The handle of an internal connector

A pipeline whose `connector_in_` is an `InternalConnector`, with the queue that it
shares with other subscribers, from one `prepare` on. The receiving thread subscribes
and unsubscribes; the handle keeps its last value behind that, so it denotes a buffer
exactly between the two (`Owned.live_iff`). The receiving thread pops only there,
whatever fails (`Tracks.placed`).
-/

namespace M2eBridge

/-- The pointer of the handle is to a buffer that is in `buffers_`. -/
def RQueue.LiveIn {α : Type} (rq : RQueue) (iq : InternalQueue α) : Prop := ∃ id, rq.queue = some id ∧ id ∈ iq.keys

namespace InternalQueue

variable {α : Type}

/-- `* rq.queue_` with its key; there is none behind a null or a dangling pointer. -/
def buffer? (iq : InternalQueue α) (rq : RQueue) : Option (Nat × TSQueue α) :=
  rq.queue.bind fun id => iq.buffers.find? fun b => b.1 = id

/-- The buffer of a key, changed in its place. -/
def setBuffer (iq : InternalQueue α) (id : Nat) (buffer : TSQueue α) : InternalQueue α :=
  have keysKept : (iq.buffers.map fun b => if b.1 = id then (b.1, buffer) else b).map Prod.fst =
      iq.buffers.map Prod.fst := by
    rw [List.map_map]
    refine List.map_congr_left fun b _ => ?_
    by_cases same : b.1 = id <;> simp [same]
  { buffers := iq.buffers.map fun b => if b.1 = id then (b.1, buffer) else b
    maxTakenKey := iq.maxTakenKey
    distinct := keysKept ▸ iq.distinct
    taken := keysKept ▸ iq.taken }

/-- `RQueue::pop`: `none` while the caller stays blocked, and where there is no buffer. -/
def popFrom (iq : InternalQueue α) (rq : RQueue) : Option (Except Exn (α × InternalQueue α)) :=
  match iq.buffer? rq with
  | none => none
  | some (id, buffer) =>
    match buffer.pop with
    | none => none
    | some (.error e) => some (.error e)
    | some (.ok (value, rest)) => some (.ok (value, iq.setBuffer id rest))

/-- `RQueue::exit_blocking_calls`. -/
def exitBlockingCalls (iq : InternalQueue α) (rq : RQueue) : Option (InternalQueue α) :=
  (iq.buffer? rq).map fun (id, buffer) => iq.setBuffer id buffer.setNonBlocking

@[simp] theorem setBuffer_keys (iq : InternalQueue α) (id : Nat) (buffer : TSQueue α) :
    (iq.setBuffer id buffer).keys = iq.keys := by
  simp only [keys, setBuffer, List.map_map]
  refine List.map_congr_left fun b _ => ?_
  by_cases same : b.1 = id <;> simp [same]

@[simp] theorem push_keys (iq : InternalQueue α) (msg : α) : (iq.push msg).2.keys = iq.keys :=
  Lib.stopLoop_map pushBuffer_key iq.buffers

/-- There is a buffer behind the handles that are live. -/
theorem buffer?_isSome {iq : InternalQueue α} {rq : RQueue} : (iq.buffer? rq).isSome ↔ rq.LiveIn iq := by
  simp only [buffer?, RQueue.LiveIn, keys]
  cases rq.queue with
  | none => simp
  | some id => simp [List.find?_isSome]

theorem popFrom_keys {iq iq' : InternalQueue α} {rq : RQueue} {value : α}
    (h : iq.popFrom rq = some (.ok (value, iq'))) : iq'.keys = iq.keys ∧ iq'.maxTakenKey = iq.maxTakenKey := by
  simp only [popFrom] at h
  split at h
  · cases h
  · split at h <;> cases h
    exact ⟨setBuffer_keys .., rfl⟩

theorem exitBlockingCalls_keys {iq iq' : InternalQueue α} {rq : RQueue} (h : iq.exitBlockingCalls rq = some iq') :
    iq'.keys = iq.keys ∧ iq'.maxTakenKey = iq.maxTakenKey := by
  obtain ⟨buffer, _, rfl⟩ := Option.map_eq_some_iff.mp h
  exact ⟨setBuffer_keys .., rfl⟩

theorem subscribe_ok {iq iq' : InternalQueue α} {size : Nat} {rq : RQueue}
    (h : iq.subscribe size = .ok (rq, iq')) :
    rq = ⟨iq.maxTakenKey + 1, some (iq.maxTakenKey + 1)⟩ ∧ iq'.keys = (iq.maxTakenKey + 1) :: iq.keys ∧
      iq'.maxTakenKey = iq.maxTakenKey + 1 := by
  unfold subscribe at h
  split at h
  · cases h
  · split at h <;> cases h
    exact ⟨rfl, rfl, rfl⟩

theorem mem_keys_unsubscribe {iq : InternalQueue α} {rq : RQueue} {id : Nat} :
    id ∈ (iq.unsubscribe rq).keys ↔ id ∈ iq.keys ∧ id ≠ rq.id := by
  simp only [keys, unsubscribe, List.mem_map, List.mem_filter, decide_eq_true_eq]
  constructor
  · rintro ⟨b, ⟨member, other⟩, rfl⟩
    exact ⟨⟨b, member, rfl⟩, other⟩
  · rintro ⟨⟨b, member, rfl⟩, other⟩
    exact ⟨b, ⟨member, other⟩, rfl⟩

end InternalQueue

/-- A pipeline that receives from an internal queue. `others` are the handles that the
other subscribers of the queue have been given; `connected` is history: the receiving
thread has connected and has not disconnected yet. -/
structure InternalPipeline (ω : Type) where
  pipeline : Pipeline ω
  queue : InternalQueue Message := {}
  bufferSize : Nat := 100
  incoming : RQueue := {}
  others : List RQueue := []
  connected : Bool := false

namespace InternalPipeline

variable {ω : Type}

inductive Action where
  /-- A step of the control thread; `call` says whether a start is given up. -/
  | control (call : Except Exn Unit)
  | receiving
  /-- A step of any other thread of the pipeline. -/
  | thread (a : Pipeline.Action)
  /-- Another connector subscribes to the queue. -/
  | subscribe (bufferSize : Nat)
  /-- Another connector unsubscribes the handle it was given. -/
  | unsubscribe (rq : RQueue)
  /-- Anyone pushes to the queue. -/
  | push (msg : Message)
  /-- Another subscriber pops. -/
  | pop (rq : RQueue)

/-- A step of the control thread. `stop()` has no effect that is defined where the
handle has no buffer. -/
def runControl (chain : List (Filtra ω)) (call : Except Exn Unit) (s : InternalPipeline ω) :
    Option (InternalPipeline ω) :=
  match s.pipeline.control with
  | .connectorStop :: _ =>
    match s.queue.exitBlockingCalls s.incoming with
    | none => none
    | some queue =>
      (s.pipeline.step chain (.control (.ok ()))).map fun pipeline => { s with pipeline, queue }
  | _ => (s.pipeline.step chain (.control call)).map fun pipeline => { s with pipeline }

/-- A step of the receiving thread, with what the connector does in it. -/
def runReceiving (chain : List (Filtra ω)) (s : InternalPipeline ω) : Option (InternalPipeline ω) :=
  let step (result : Except Exn Message) := s.pipeline.step chain (.receiving result)
  match s.pipeline.receiving.thread with
  | some .connect =>
    match s.queue.subscribe s.bufferSize with
    | .ok (incoming, queue) =>
      (step (.ok {})).map fun pipeline => { s with pipeline, incoming, queue, connected := true }
    | .error e => (step (.error e)).map fun pipeline => { s with pipeline }
  | some .receive =>
    match s.queue.popFrom s.incoming with
    | none => none
    | some (.ok (msg, queue)) =>
      (step (.ok (InternalConnector.doReceive msg))).map fun pipeline => { s with pipeline, queue }
    | some (.error e) => (step (.error e)).map fun pipeline => { s with pipeline }
  | some .disconnect =>
    (step (.ok {})).map fun pipeline =>
      { s with pipeline, queue := s.queue.unsubscribe s.incoming, connected := false }
  | _ => (step (.ok {})).map fun pipeline => { s with pipeline }

def step (chain : List (Filtra ω)) : Action → InternalPipeline ω → Option (InternalPipeline ω)
  | .control call, s => s.runControl chain call
  | .receiving, s => s.runReceiving chain
  | .thread (.control _), _ => none
  | .thread (.receiving _), _ => none
  | .thread a, s => (s.pipeline.step chain a).map fun pipeline => { s with pipeline }
  | .subscribe size, s =>
    match s.queue.subscribe size with
    | .ok (rq, queue) => some { s with queue, others := rq :: s.others }
    | .error _ => some s
  | .unsubscribe rq, s => if rq ∈ s.others then some { s with queue := s.queue.unsubscribe rq } else none
  | .push msg, s => some { s with queue := (s.queue.push msg).2 }
  | .pop rq, s =>
    if rq ∈ s.others then
      match s.queue.popFrom rq with
      | some (.ok (_, queue)) => some { s with queue }
      | _ => none
    else none

/-- The handle denotes a buffer that is in the queue. -/
def Live (s : InternalPipeline ω) : Prop := s.incoming.LiveIn s.queue

/-! ## What the pipeline does to its receiving thread -/

end InternalPipeline

namespace Pipeline

variable {ω : Type}

theorem receiving_kept {chain : List (Filtra ω)} {a : Action} {s t : Pipeline ω} (control : ∀ call, a ≠ .control call)
    (receiving : ∀ call, a ≠ .receiving call) (h : step chain a s = some t) : t.receiving = s.receiving := by
  have notified : s.notify.receiving = s.receiving := by
    unfold notify
    split <;> rfl
  cases a with
  | execute cmd =>
    simp only [step] at h
    split at h
    · split at h <;> cases h <;> rfl
    · cases h
  | control call => exact absurd rfl (control call)
  | receiving call => exact absurd rfl (receiving call)
  | processing queues =>
    obtain ⟨pc, here, next⟩ := Option.bind_eq_some_iff.mp h
    exact (runProcessing_step next).receiving
  | sending call =>
    obtain ⟨pc, here, next⟩ := Option.bind_eq_some_iff.mp h
    exact (runSending_step next).receiving
  | timerPush =>
    simp only [step] at h
    split at h <;> cases h <;> rfl
  | timerNotify =>
    simp only [step] at h
    split at h <;> cases h
    exact notified
  | wakeup => cases h; exact notified

/-- A statement of the control thread creates the receiving thread, joins it, or leaves
it where it is; then the state is not set to `RUNNING` but by the one statement for it. -/
theorem receiving_control {s t : Pipeline ω} {call : Except Exn Unit} (h : s.runControl call s.control = some t) :
    t.receiving.thread = none ∨ t.receiving.thread = some .begin ∨
      t.receiving.thread = s.receiving.thread ∧
        (t.state = s.state ∨ t.state ≠ .running ∨ s.control.head? = some (.setState .running)) := by
  cases here : s.control with
  | nil => rw [here] at h; cases h
  | cons i rest =>
    rw [here] at h
    obtain ⟨threads, sets, -⟩ := runControl_step h
    have state : t.state = s.state ∨ t.state ≠ .running ∨ i = .setState .running := by
      rcases sets with same | set
      · exact .inl same
      · by_cases running : t.state = .running
        · exact .inr (.inr (running ▸ set))
        · exact .inr (.inl running)
    have kept (same : t.receiving = s.receiving) : t.receiving.thread = none ∨ t.receiving.thread = some .begin ∨
        t.receiving.thread = s.receiving.thread ∧
          (t.state = s.state ∨ t.state ≠ .running ∨ (i :: rest).head? = some (.setState .running)) :=
      .inr (.inr ⟨congrArg Thread.thread same, by simpa using state⟩)
    cases threads with
    | startReceiving _ begun => exact .inr (.inl begun)
    | joinReceiving _ joined => exact .inl joined
    | startProcessing _ _ receiving | startSending _ _ receiving => exact kept receiving
    | joinProcessing _ _ receiving | joinSending _ _ receiving => exact kept receiving
    | notify receiving | none _ receiving => exact kept receiving

end Pipeline

/-- Where the receiving thread can be, by whether it has connected. -/
def ReceivingPc.Placed (connected : Bool) (state : PipelineState) : ReceivingPc → Prop
  | .receive | .push _ | .notify => connected = true
  -- a failed connect has left a state that is not `RUNNING`
  | .connected | .loop => connected = true ∨ state ≠ .running
  | _ => True

namespace InternalPipeline

variable {ω : Type}

/-- Whose the handles are. -/
structure Owned (s : InternalPipeline ω) : Prop where
  live_iff : s.Live ↔ s.connected = true
  own : ∀ id, s.incoming.queue = some id → s.incoming.id = id ∧ id ≤ s.queue.maxTakenKey
  others : ∀ rq ∈ s.others, rq.id ≤ s.queue.maxTakenKey ∧ (s.Live → rq.id ≠ s.incoming.id)

/-- What the steps keep. -/
structure Tracks (s : InternalPipeline ω) : Prop extends Owned s where
  slots : Pipeline.Annotated (Pipeline.slotsBefore False) s.pipeline
  placed : ∀ pc, s.pipeline.receiving.thread = some pc → pc.Placed s.connected s.pipeline.state

/-- The queue has changed, with the same keys. -/
theorem Owned.queue {s : InternalPipeline ω} (owned : Owned s) {queue : InternalQueue Message} (pipeline : Pipeline ω)
    (keys : queue.keys = s.queue.keys) (bound : queue.maxTakenKey = s.queue.maxTakenKey) :
    Owned { s with pipeline, queue } := by
  have live : ({ s with pipeline, queue } : InternalPipeline ω).Live ↔ s.Live := by simp [Live, RQueue.LiveIn, keys]
  refine ⟨live.trans owned.live_iff, fun id here => ?_, fun rq member => ?_⟩
  · exact ⟨(owned.own id here).1, bound ▸ (owned.own id here).2⟩
  · exact ⟨bound ▸ (owned.others rq member).1, fun on => (owned.others rq member).2 (live.mp on)⟩

/-! ## The step -/

theorem placed_receiving {s t : Pipeline ω} {call : Except Exn Message} {pc : ReceivingPc} {before after : Bool}
    (placed : pc.Placed before s.state) (connects : pc = .connect → ∀ msg, call = .ok msg → after = true)
    (keeps : pc ≠ .connect → pc ≠ .disconnect → after = before) (h : s.runReceiving call pc = some t) :
    ∀ pc', t.receiving.thread = some pc' → pc'.Placed after t.state := by
  have caught (connected : after = true) (e : Exn) :
      ∀ pc', (s.receivingCaught e).receiving.thread = some pc' → pc'.Placed after (s.receivingCaught e).state := by
    intro pc' here
    unfold Pipeline.receivingCaught at here ⊢
    split at here <;> cases here
    · trivial
    · exact .inl connected
  intro pc' here
  cases pc with
  | begin | finish => cases h; cases here; trivial
  | connect =>
    cases call with
    | error e => cases h; cases here; exact .inr (by simp [Pipeline.receivingAt, Pipeline.fail])
    | ok msg => cases h; cases here; exact .inl (connects rfl msg rfl)
  | disconnect => cases call <;> cases h <;> cases here <;> trivial
  | connected =>
    simp only [Pipeline.runReceiving] at h
    split at h <;> cases h <;> cases here
    · exact keeps (by simp) (by simp) ▸ placed
    · trivial
  | loop =>
    cases h
    by_cases active : s.isActive
    · simp only [active, if_true] at here
      cases here
      have running : s.state = .running := by simpa [Pipeline.isActive] using active
      exact (keeps (by simp) (by simp)).trans (placed.resolve_right (not_not_intro running))
    · simp only [active] at here
      cases here
      trivial
  | receive =>
    have connected := (keeps (by simp) (by simp)).trans placed
    cases call with
    | error e => cases h; exact caught connected e pc' here
    | ok msg => cases h; cases here; exact connected
  | push m =>
    have connected := (keeps (by simp) (by simp)).trans placed
    simp only [Pipeline.runReceiving] at h
    split at h <;> cases h
    · cases here; exact connected
    · exact caught connected _ pc' here
  | notify =>
    cases h
    cases here
    exact .inl ((keeps (by simp) (by simp)).trans placed)
  | done => cases h

theorem placed_control {s t : Pipeline ω} {call : Except Exn Unit} {connected : Bool}
    (slots : Pipeline.Annotated (Pipeline.slotsBefore False) s)
    (placed : ∀ pc, s.receiving.thread = some pc → pc.Placed connected s.state)
    (h : s.runControl call s.control = some t) : ∀ pc, t.receiving.thread = some pc → pc.Placed connected t.state := by
  intro pc here
  have mono (inactive : t.state ≠ .running) (placed : pc.Placed connected s.state) : pc.Placed connected t.state := by
    cases pc with
    | connected | loop => exact .inr inactive
    | _ => exact placed
  rcases Pipeline.receiving_control h with gone | created | ⟨same, state⟩
  · cases here.symm.trans gone
  · cases here.symm.trans created
    trivial
  · have before := placed pc (same ▸ here)
    rcases state with kept | inactive | begins
    · exact kept ▸ before
    · exact mono inactive before
    · -- the state is set to `RUNNING` when there is no thread
      obtain ⟨rest, first⟩ := List.head?_eq_some_iff.mp begins
      have empty : s.Empty := slots.holds _ _ first
      cases (same ▸ here).symm.trans empty.receiving

/-- A statement of the receiving thread, with the connect and the disconnect in it. -/
theorem receiving_step {chain : List (Filtra ω)} {s t : InternalPipeline ω} (h : s.runReceiving chain = some t) :
    ∃ pc result, s.pipeline.receiving.thread = some pc ∧
      s.pipeline.step chain (.receiving result) = some t.pipeline ∧
      (pc = .connect → ∀ msg, result = .ok msg → t.connected = true) ∧
      (pc ≠ .connect → pc ≠ .disconnect → t.connected = s.connected) := by
  unfold InternalPipeline.runReceiving at h
  split at h
  case h_1 here =>
    split at h
    case h_1 =>
      obtain ⟨pipeline, moved, rfl⟩ := Option.map_eq_some_iff.mp h
      exact ⟨.connect, _, here, moved, fun _ _ _ => rfl, fun other => absurd rfl other⟩
    case h_2 =>
      obtain ⟨pipeline, moved, rfl⟩ := Option.map_eq_some_iff.mp h
      exact ⟨.connect, _, here, moved, fun _ _ thrown => (by cases thrown), fun other => absurd rfl other⟩
  case h_2 here =>
    split at h
    · cases h
    case h_2 =>
      obtain ⟨pipeline, moved, rfl⟩ := Option.map_eq_some_iff.mp h
      exact ⟨.receive, _, here, moved, by simp, fun _ _ => rfl⟩
    case h_3 =>
      obtain ⟨pipeline, moved, rfl⟩ := Option.map_eq_some_iff.mp h
      exact ⟨.receive, _, here, moved, by simp, fun _ _ => rfl⟩
  case h_3 here =>
    obtain ⟨pipeline, moved, rfl⟩ := Option.map_eq_some_iff.mp h
    exact ⟨.disconnect, _, here, moved, by simp, fun _ other => absurd rfl other⟩
  case h_4 elsewhere _ _ =>
    obtain ⟨pipeline, moved, rfl⟩ := Option.map_eq_some_iff.mp h
    obtain ⟨pc, here, _⟩ := Option.bind_eq_some_iff.mp moved
    exact ⟨pc, _, here, moved, fun same => absurd (same ▸ here) elsewhere, fun _ _ => rfl⟩

/-- The key of a new handle is greater than all before it. -/
theorem Owned.receiving {chain : List (Filtra ω)} {s t : InternalPipeline ω} (owned : Owned s)
    (h : s.runReceiving chain = some t) : Owned t := by
  unfold InternalPipeline.runReceiving at h
  split at h
  case h_1 =>
    split at h
    case h_1 incoming queue subscribed =>
      obtain ⟨pipeline, moved, rfl⟩ := Option.map_eq_some_iff.mp h
      obtain ⟨rfl, keys, bound⟩ := InternalQueue.subscribe_ok subscribed
      refine ⟨⟨fun _ => rfl, fun _ => ⟨_, rfl, keys ▸ List.mem_cons_self⟩⟩, fun id own => ?_, fun rq member => ?_⟩
      · cases own
        exact ⟨rfl, bound ▸ Nat.le_refl _⟩
      · have old := (owned.others rq member).1
        exact ⟨by rw [bound]; omega, fun _ same => by simp only at same; omega⟩
    case h_2 =>
      obtain ⟨pipeline, moved, rfl⟩ := Option.map_eq_some_iff.mp h
      exact owned.queue pipeline rfl rfl
  case h_2 =>
    split at h
    · cases h
    case h_2 msg queue popped =>
      obtain ⟨pipeline, moved, rfl⟩ := Option.map_eq_some_iff.mp h
      obtain ⟨keys, bound⟩ := InternalQueue.popFrom_keys popped
      exact owned.queue pipeline keys bound
    case h_3 =>
      obtain ⟨pipeline, moved, rfl⟩ := Option.map_eq_some_iff.mp h
      exact owned.queue pipeline rfl rfl
  case h_3 =>
    obtain ⟨pipeline, moved, rfl⟩ := Option.map_eq_some_iff.mp h
    have dead : ¬ ({ s with pipeline, queue := s.queue.unsubscribe s.incoming, connected := false } :
        InternalPipeline ω).Live := by
      rintro ⟨id, own, member⟩
      exact (InternalQueue.mem_keys_unsubscribe.mp member).2 (owned.own id own).1.symm
    exact ⟨iff_of_false dead (by simp), owned.own, fun rq member => ⟨(owned.others rq member).1, fun on => absurd on dead⟩⟩
  case h_4 =>
    obtain ⟨pipeline, moved, rfl⟩ := Option.map_eq_some_iff.mp h
    exact owned.queue pipeline rfl rfl

/-- The key of the new handle is greater than all before it. -/
theorem Owned.subscribe {s : InternalPipeline ω} {size : Nat} {rq : RQueue} {queue : InternalQueue Message}
    (owned : Owned s) (subscribed : s.queue.subscribe size = .ok (rq, queue)) :
    Owned { s with queue, others := rq :: s.others } := by
  obtain ⟨rfl, keys, bound⟩ := InternalQueue.subscribe_ok subscribed
  have live : ({ s with queue, others := ⟨s.queue.maxTakenKey + 1, some (s.queue.maxTakenKey + 1)⟩ :: s.others } :
      InternalPipeline ω).Live ↔ s.Live := by
    refine exists_congr fun id => and_congr_right fun own => ?_
    have old := (owned.own id own).2
    rw [keys, List.mem_cons, or_iff_right (by omega)]
  refine ⟨live.trans owned.live_iff, fun id own => ?_, fun rq member => ?_⟩
  · have old := owned.own id own
    exact ⟨old.1, by rw [bound]; omega⟩
  · rcases List.mem_cons.mp member with rfl | member
    · refine ⟨bound ▸ Nat.le_refl _, fun on same => ?_⟩
      obtain ⟨id, own, _⟩ := live.mp on
      have old := owned.own id own
      simp only at same
      omega
    · have old := owned.others rq member
      exact ⟨by rw [bound]; omega, fun on => old.2 (live.mp on)⟩

/-- The buffer that is erased is another one. -/
theorem Owned.unsubscribe {s : InternalPipeline ω} {rq : RQueue} (owned : Owned s) (member : rq ∈ s.others) :
    Owned { s with queue := s.queue.unsubscribe rq } := by
  have apart := (owned.others rq member).2
  have live : ({ s with queue := s.queue.unsubscribe rq } : InternalPipeline ω).Live ↔ s.Live := by
    constructor
    · rintro ⟨id, own, member⟩
      exact ⟨id, own, (InternalQueue.mem_keys_unsubscribe.mp member).1⟩
    · intro on
      obtain ⟨id, own, member⟩ := on
      have other := apart ⟨id, own, member⟩
      rw [(owned.own id own).1] at other
      exact ⟨id, own, InternalQueue.mem_keys_unsubscribe.mpr ⟨member, fun same => other same.symm⟩⟩
  exact ⟨live.trans owned.live_iff, owned.own,
    fun rq member => ⟨(owned.others rq member).1, fun on => (owned.others rq member).2 (live.mp on)⟩⟩

/-- Every step keeps the handles apart. -/
theorem Owned.step {chain : List (Filtra ω)} {a : Action} {s t : InternalPipeline ω} (owned : Owned s)
    (h : InternalPipeline.step chain a s = some t) : Owned t := by
  cases a with
  | control call =>
    simp only [InternalPipeline.step, InternalPipeline.runControl] at h
    split at h
    · split at h
      · cases h
      case h_2 queue released =>
        obtain ⟨pipeline, moved, rfl⟩ := Option.map_eq_some_iff.mp h
        obtain ⟨keys, bound⟩ := InternalQueue.exitBlockingCalls_keys released
        exact owned.queue pipeline keys bound
    · obtain ⟨pipeline, moved, rfl⟩ := Option.map_eq_some_iff.mp h
      exact owned.queue pipeline rfl rfl
  | receiving => exact owned.receiving h
  | thread a =>
    cases a with
    | control call => cases h
    | receiving call => cases h
    | _ =>
      simp only [InternalPipeline.step] at h
      obtain ⟨pipeline, moved, rfl⟩ := Option.map_eq_some_iff.mp h
      exact owned.queue pipeline rfl rfl
  | subscribe size =>
    simp only [InternalPipeline.step] at h
    split at h <;> cases h
    case h_1 rq queue subscribed => exact owned.subscribe subscribed
    case h_2 => exact owned
  | unsubscribe rq =>
    by_cases member : rq ∈ s.others
    · simp only [InternalPipeline.step, member, if_true] at h
      cases h
      exact owned.unsubscribe member
    · simp [InternalPipeline.step, member] at h
  | push msg => cases h; exact owned.queue s.pipeline (InternalQueue.push_keys ..) rfl
  | pop rq =>
    simp only [InternalPipeline.step] at h
    split at h
    · split at h <;> cases h
      case h_1 popped =>
        obtain ⟨keys, bound⟩ := InternalQueue.popFrom_keys popped
        exact owned.queue s.pipeline keys bound
    · cases h

/-- A step that is not the control thread's leaves the receiving thread where it has connected, if it pops. -/
theorem placed_step {chain : List (Filtra ω)} {a : Action} {s t : InternalPipeline ω} (control : ∀ call, a ≠ .control call)
    (placed : ∀ pc, s.pipeline.receiving.thread = some pc → pc.Placed s.connected s.pipeline.state)
    (h : InternalPipeline.step chain a s = some t) :
    Pipeline.Aside s.pipeline t.pipeline ∧
      ∀ pc, t.pipeline.receiving.thread = some pc → pc.Placed t.connected t.pipeline.state := by
  have same (kept : t.pipeline = s.pipeline) (connected : t.connected = s.connected) :
      Pipeline.Aside s.pipeline t.pipeline ∧
        ∀ pc, t.pipeline.receiving.thread = some pc → pc.Placed t.connected t.pipeline.state := by
    rw [kept, connected]
    exact ⟨.of_same rfl rfl rfl rfl rfl, placed⟩
  cases a with
  | control call => exact absurd rfl (control call)
  | receiving =>
    obtain ⟨pc, result, here, moved, connects, keeps⟩ := receiving_step h
    obtain ⟨pc', there, next⟩ := Option.bind_eq_some_iff.mp moved
    cases here.symm.trans there
    exact ⟨.step (by simp) moved, placed_receiving (placed pc here) connects keeps next⟩
  | thread a =>
    cases a with
    | control call => cases h
    | receiving call => cases h
    | _ =>
      simp only [InternalPipeline.step] at h
      obtain ⟨pipeline, moved, rfl⟩ := Option.map_eq_some_iff.mp h
      have aside := Pipeline.Aside.step (by simp) moved
      refine ⟨aside, fun pc here => ?_⟩
      rw [Pipeline.receiving_kept (by simp) (by simp) moved] at here
      have before := placed pc here
      rcases aside.state with same | ⟨failed, _⟩
      · exact same ▸ before
      · cases pc with
        | connected | loop => exact .inr (by simp [failed])
        | _ => exact before
  | subscribe size =>
    simp only [InternalPipeline.step] at h
    split at h <;> cases h <;> exact same rfl rfl
  | unsubscribe rq =>
    simp only [InternalPipeline.step] at h
    split at h <;> cases h
    exact same rfl rfl
  | push msg => cases h; exact same rfl rfl
  | pop rq =>
    simp only [InternalPipeline.step] at h
    split at h
    · split at h <;> cases h
      exact same rfl rfl
    · cases h

theorem Tracks.control {chain : List (Filtra ω)} {s t : InternalPipeline ω} {call : Except Exn Unit}
    (tracks : Tracks s) (h : s.runControl chain call = some t) : Tracks t := by
  have owned : Owned t := tracks.toOwned.step (a := .control call) h
  unfold InternalPipeline.runControl at h
  split at h
  · split at h
    · cases h
    · obtain ⟨pipeline, moved, rfl⟩ := Option.map_eq_some_iff.mp h
      have next : s.pipeline.runControl (.ok ()) s.pipeline.control = some pipeline := moved
      exact ⟨owned, tracks.slots.slots (fun e rest same => by cases same) (fun never => never.elim) moved,
        placed_control tracks.slots tracks.placed next⟩
  case h_2 other =>
    obtain ⟨pipeline, moved, rfl⟩ := Option.map_eq_some_iff.mp h
    have next : s.pipeline.runControl call s.pipeline.control = some pipeline := moved
    exact ⟨owned, tracks.slots.slots (fun e rest same here => other rest here) (fun never => never.elim) moved,
      placed_control tracks.slots tracks.placed next⟩

theorem Tracks.step {chain : List (Filtra ω)} {a : Action} {s t : InternalPipeline ω} (tracks : Tracks s)
    (h : InternalPipeline.step chain a s = some t) : Tracks t := by
  by_cases control : ∃ call, a = .control call
  · obtain ⟨call, rfl⟩ := control
    exact tracks.control h
  · obtain ⟨aside, placed⟩ := placed_step (fun call same => control ⟨call, same⟩) tracks.placed h
    exact ⟨tracks.toOwned.step h, tracks.slots.aside aside fun _ _ _ before => aside.slotsBefore before, placed⟩

/-- The pipeline behind `prepare`, and a queue that nobody has subscribed to. -/
def prepared (world : ω) (bufferSize : Nat) : InternalPipeline ω := { pipeline := Pipeline.prepared world, bufferSize }

theorem Tracks.prepared (world : ω) (bufferSize : Nat) : Tracks (prepared world bufferSize) where
  slots := .slots_prepared False world
  live_iff := iff_of_false (by rintro ⟨id, own, _⟩; cases own) (by simp [InternalPipeline.prepared])
  own := fun id own => by cases own
  others := fun rq member => by cases member
  placed := fun pc here => by cases here

end InternalPipeline

end M2eBridge
