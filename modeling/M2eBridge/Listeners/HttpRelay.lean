import M2eBridge.Listeners.HttpIngest
import M2eBridge.Pipeline.Relay

/-!
# From a request to the connector

The HTTP listener, the queue and the pipeline behind it, in a run without end. The steps of the pipeline are a run
of their own (`inner_embeds`); what a request brings that is answered with 200 is received there, handled, and what
that pushes is handed to `connector_out_` (`ingest_relays`).
-/

namespace M2eBridge

open Process (Act Queued)

namespace InternalPipeline

open InternalConnector (doReceive)

variable {ω : Type} {chain : List (Filtra ω)}

/-- What the connector answers the receiving thread. -/
def answer (s : InternalPipeline ω) : Except Exn Message :=
  match s.pipeline.receiving.thread with
  | some .connect =>
    match s.queue.subscribe s.bufferSize with
    | .ok _ => .ok {}
    | .error e => .error e
  | some .receive =>
    match s.queue.popFrom s.incoming with
    | some (.ok (msg, _)) => .ok (doReceive msg)
    | some (.error e) => .error e
    | none => .ok {}
  | _ => .ok {}

/-- The step that the pipeline takes. -/
def inner : Action → InternalPipeline ω → Option Pipeline.Action
  | .control call, s =>
    match s.pipeline.control with
    | .connectorStop :: _ => some (.control (.ok ()))
    | _ => some (.control call)
  | .receiving, s => some (.receiving s.answer)
  | .thread a, _ => some a
  | _, _ => none

theorem inner_connectorStop {s : InternalPipeline ω} {call : Except Exn Unit} {rest : List Instr}
    (todo : s.pipeline.control = .connectorStop :: rest) : inner (.control call) s = some (.control (.ok ())) := by
  simp only [inner, todo]

theorem inner_call {s : InternalPipeline ω} {call : Except Exn Unit}
    (other : ∀ rest, s.pipeline.control ≠ .connectorStop :: rest) : inner (.control call) s = some (.control call) := by
  simp only [inner]

theorem inner_control {s t : InternalPipeline ω} {call : Except Exn Unit} (h : s.runControl chain call = some t) :
    (inner (.control call) s).elim (t.pipeline = s.pipeline) fun b => s.pipeline.step chain b = some t.pipeline := by
  simp only [InternalPipeline.runControl] at h
  split at h
  case h_1 rest todo =>
    rw [inner_connectorStop todo]
    split at h
    · cases h
    · obtain ⟨pipeline, moved, rfl⟩ := Option.map_eq_some_iff.mp h
      exact moved
  case h_2 other =>
    rw [inner_call other]
    obtain ⟨pipeline, moved, rfl⟩ := Option.map_eq_some_iff.mp h
    exact moved

theorem step_answer {s t : InternalPipeline ω} (h : s.runReceiving chain = some t) :
    s.pipeline.step chain (.receiving s.answer) = some t.pipeline := by
  simp only [InternalPipeline.runReceiving] at h
  split at h
  case h_1 here =>
    split at h
    case h_1 subscribed =>
      obtain ⟨pipeline, moved, rfl⟩ := Option.map_eq_some_iff.mp h
      simpa only [answer, here, subscribed] using moved
    case h_2 failed =>
      obtain ⟨pipeline, moved, rfl⟩ := Option.map_eq_some_iff.mp h
      simpa only [answer, here, failed] using moved
  case h_2 here =>
    split at h
    · cases h
    case h_2 popped =>
      obtain ⟨pipeline, moved, rfl⟩ := Option.map_eq_some_iff.mp h
      simpa only [answer, here, popped] using moved
    case h_3 failed =>
      obtain ⟨pipeline, moved, rfl⟩ := Option.map_eq_some_iff.mp h
      simpa only [answer, here, failed] using moved
  case h_3 here =>
    obtain ⟨pipeline, moved, rfl⟩ := Option.map_eq_some_iff.mp h
    simpa only [answer, here] using moved
  case h_4 connects receives disconnects =>
    obtain ⟨pipeline, moved, rfl⟩ := Option.map_eq_some_iff.mp h
    have plain : s.answer = .ok {} := by
      unfold answer
      split
      case h_1 here => exact absurd here connects
      case h_2 here => exact absurd here receives
      case h_3 => rfl
    rw [plain]
    exact moved

theorem inner_embeds : Lib.Embeds (step chain) (Pipeline.step chain) pipeline inner := by
  intro a s t h
  cases a with
  | control call => exact inner_control h
  | receiving => exact step_answer h
  | thread a =>
    cases a with
    | control call => cases h
    | receiving call => cases h
    | _ =>
      simp only [step] at h
      obtain ⟨pipeline, moved, rfl⟩ := Option.map_eq_some_iff.mp h
      exact moved
  | subscribe size => simp only [step] at h; split at h <;> cases h <;> rfl
  | unsubscribe rq => simp only [step] at h; split at h <;> cases h; rfl
  | push msg => cases h; rfl
  | pop rq =>
    simp only [step] at h
    split at h
    · split at h <;> cases h
      rfl
    · cases h

end InternalPipeline

namespace Ingest

open InternalConnector (doReceive)
open Pipeline (Acted Undisturbed)

variable {queuid : String} {φ ω : Type} [DecidableEq φ] {chain : List (Filtra ω)}

/-- The step that the pipeline takes. -/
def inner : Action → Ingest queuid φ ω → Option Pipeline.Action
  | .down a, s => InternalPipeline.inner a s.down
  | .http _, _ => none

theorem inner_embeds :
    Lib.Embeds (step chain) (Pipeline.step chain) (fun s : Ingest queuid φ ω => s.down.pipeline) inner := by
  intro a s t h
  cases a with
  | down a =>
    obtain ⟨down, moved, rfl⟩ := Option.map_eq_some_iff.mp h
    exact InternalPipeline.inner_embeds _ _ _ moved
  | http a =>
    cases a with
    | others queues => cases h; rfl
    | request r now =>
      obtain ⟨http, -, rfl⟩ := Option.map_eq_some_iff.mp h
      rfl
    | call c written => cases h; rfl

omit [DecidableEq φ] in
theorem inner_thread {a : Action} {s : Ingest queuid φ ω} {b : Pipeline.Action} (told : inner a s = some b)
    (control : ∀ call, b ≠ .control call) (receiving : ∀ call, b ≠ .receiving call) : a = .down (.thread b) := by
  cases a with
  | http a => cases told
  | down a =>
    simp only [inner] at told
    cases a with
    | control call =>
      simp only [InternalPipeline.inner] at told
      split at told <;> cases told <;> exact absurd rfl (control _)
    | receiving => cases told; exact absurd rfl (receiving _)
    | thread a => cases told; rfl
    | subscribe | unsubscribe | push | pop => cases told

/-- The pipeline keeps on running, nobody but its receiving thread gives it something to do, and none of its threads
is kept from going on for ever. -/
structure Serves (run : Lib.Execution (step chain : Action → Ingest queuid φ ω → Option (Ingest queuid φ ω))) : Prop where
  again : ∀ n, ∃ m, n ≤ m ∧ run.Moving inner m
  running : ∀ n, (run.state n).down.pipeline.state = .running
  handling : (run.state 0).down.pipeline.Handling
  sendLoop : (run.state 0).down.pipeline.SendLoop
  blocking : ∀ n, (run.state n).down.pipeline.sQueue.blocking = true
  untimed : ∀ n, run.act n ≠ .down (.thread .timerPush)
  sends : ∀ n e, run.act n = .down (.thread (.sending (.error e))) → e.kind ≠ .underflowError
  processes : run.Fair fun a => ∃ queues, a = .down (.thread (.processing queues))
  delivers : run.Fair fun a => ∃ call, a = .down (.thread (.sending call))
  /-- The processing thread does not stay in `pipeline_event_.wait`. -/
  awake : ∀ n, ∃ m, n ≤ m ∧ (run.state m).down.pipeline.processing.thread ≠ some .blocked
  /-- What is received is pushed to `r_queue_`. -/
  pushes : ∀ n, ∃ m, n ≤ m ∧ (run.state m).down.pipeline.cargo.receivingHand = []

/-- The run of the pipeline. -/
theorem Serves.serving {run : Lib.Execution (step chain : Action → Ingest queuid φ ω → Option (Ingest queuid φ ω))}
    (serves : Serves run) : Pipeline.Serving (run.partOf inner_embeds serves.again) := by
  have taken {s : Ingest queuid φ ω} {b : Pipeline.Action} {u : Pipeline ω}
      (same : s.down.step chain (.thread b) = (s.down.pipeline.step chain b).map fun pipeline => { s.down with pipeline })
      (possible : s.down.pipeline.step chain b = some u) : ∃ t, step chain (.down (.thread b)) s = some t := by
    rw [possible] at same
    exact ⟨s.withDown { s.down with pipeline := u }, Option.map_eq_some_iff.mpr ⟨_, same, rfl⟩⟩
  refine Pipeline.serving_partOf inner_embeds serves.again serves.running serves.handling serves.sendLoop serves.blocking
    (fun n timer => serves.untimed n (inner_thread timer (by simp) (by simp)))
    (fun n e thrown => serves.sends n e (inner_thread thrown (by simp) (by simp)))
    (serves.processes.partOf serves.again inner_embeds ?_ ?_) (serves.delivers.partOf serves.again inner_embeds ?_ ?_)
    serves.awake serves.pushes
  · rintro a s t ⟨queues, rfl⟩ -
    exact ⟨_, rfl, trivial⟩
  · intro s b u help possible
    cases b with
    | processing queues =>
      obtain ⟨t, moved⟩ := taken rfl possible
      exact ⟨_, t, ⟨queues, rfl⟩, moved⟩
    | _ => cases help
  · rintro a s t ⟨call, rfl⟩ -
    exact ⟨_, rfl, trivial⟩
  · intro s b u help possible
    cases b with
    | sending call =>
      obtain ⟨t, moved⟩ := taken rfl possible
      exact ⟨_, t, ⟨call, rfl⟩, moved⟩
    | _ => cases help

/-- **From a request to the connector.** In a run without end from a state that the pipeline has come to with its calls
undisturbed and that it is connected in, with the receiving thread in its loop and not put off for ever, room for
what gets in in all the buffers of the queue, and a pipeline that serves, every call of `process` of which ends: what
waited, and what before any time was answered with 200 or pushed by others, is in the end handled as the sequential
machine does, one message after the other, and what that machine pushes is handed to the connector, in its order. -/
theorem ingest_relays {http : HTTPState φ} {world : ω} {bufferSize : Nat}
    {run : Lib.Execution (step chain : Action → Ingest queuid φ ω → Option (Ingest queuid φ ω))}
    (reached : Lib.Reaches (step chain) (prepared http world bufferSize) (run.state 0)) {trace : List Act}
    (returns : Process.Returns chain)
    (before : Acted chain (Undisturbed chain) (Pipeline.prepared world) trace (run.state 0).down.pipeline)
    (serves : Serves run) (connected : (run.state 0).down.connected = true)
    (room : ∀ n, entering (run.act n) (run.state n) ≠ [] → ¬ (run.state n).down.queue.SomeFull)
    (loop : ∀ n, (run.state n).down.pipeline.ReceiveLoop) (fair : run.Fair (· = .down .receiving)) (n : Nat) :
    ∃ m, n ≤ m ∧ ∃ jobs acts last, JobsDo chain jobs world acts last ∧
      (run.state 0).down.pipeline.received ++ ((run.state 0).down.queue.waitingFor (run.state 0).down.incoming).map doReceive ++
          (((run.upTo entries n).filter Entry.accepted).map Entry.msg).map doReceive <+: Job.messages jobs ∧
      Process.pushes acts <+: (run.state m).down.pipeline.sent.map Queued.msgW := by
  have apart : (run.state 0).down.Apart := by
    refine reached.invariant (fun s => s.down.Apart) ?_ fun a s t apart h => contains.apart apart h
    exact .prepared world bufferSize
  have fetching : InternalPipeline.Fetching (fun s : Ingest queuid φ ω => s.down) (· = .down .receiving) run :=
    ⟨apart, loop, fair⟩
  have flows : Lib.Trace (step chain) entries Flowing (run.state 0) (run.upTo entries n) (run.state n) :=
    run.trace_upTo entries (fetching.flowing room) n
  obtain ⟨i, after, arrived⟩ := fetching.arrives_pushed contains schedules connected (flows.filter entering_accepted)
  obtain ⟨k, late, same⟩ := Lib.Execution.next_time serves.again inner_embeds i
  have start : (run.partOf inner_embeds serves.again).state 0 = (run.state 0).down.pipeline := Lib.Execution.partOf_zero ..
  obtain ⟨l, behind, jobs, acts, last, does, received, sent⟩ := serves.serving.handled_sent returns (start ▸ before) k
  have there : i ≤ run.time serves.again l := late.trans ((run.time_strictMono serves.again).monotone behind)
  have arrivedThere : (run.state i).down.pipeline.received <+: Job.messages jobs :=
    (congrArg Pipeline.received same) ▸ received
  exact ⟨_, after.trans there, jobs, acts, last, does, arrived.trans arrivedThere, sent⟩

omit [DecidableEq φ] in
theorem withDown_down (s : Ingest queuid φ ω) : s.withDown s.down = s := by
  obtain ⟨http, down, shared⟩ := s
  simp only [withDown, ← shared, Function.update_eq_self]

omit [DecidableEq φ] in
theorem withDown_withDown (s : Ingest queuid φ ω) (first last : InternalPipeline ω) :
    (s.withDown first).withDown last = s.withDown last := by
  simp only [withDown, Function.update_idem]

/-- What only the pipeline does leaves the listener as it was. -/
theorem exec_down (acts : List InternalPipeline.Action) (s : Ingest queuid φ ω) :
    Lib.exec (step chain) (acts.map .down) s =
      (Lib.exec (InternalPipeline.step chain) acts s.down).map s.withDown := by
  induction acts generalizing s with
  | nil => simp only [List.map_nil, Lib.exec, Option.map_some, withDown_down]
  | cons a rest ih =>
    cases moved : s.down.step chain a with
    | none => simp only [List.map_cons, Lib.exec, step, moved, Option.map_none, Option.bind_none]
    | some down =>
      simp only [List.map_cons, Lib.exec, step, moved, Option.map_some, Option.bind_some, ih]
      refine Option.map_congr fun t _ => ?_
      exact withDown_withDown s down t

/-! ## A request that is relayed -/

/-- The pipeline's own action, when its connector is internal. -/
def ofPipeline : Pipeline.Action → InternalPipeline.Action
  | .control call => .control call
  | .receiving _ => .receiving
  | a => .thread a

/-- A request that shows the token is served, and what it brought received, handled and sent; then all threads wait. -/
def relaying : List Action :=
  let through : List Pipeline.Action :=
    Pipeline.receiveOne {} ++ Pipeline.sendOne ++ List.replicate 2 (.sending (.ok ())) ++
      List.replicate 3 (.processing fun _ => {})
  .http (.request HTTPState.guardedRequest 0) :: (through.map ofPipeline ++ [InternalPipeline.Action.receiving]).map .down

/-- The processing thread is woken, finds nothing and waits again. -/
def waking : List Action := (Pipeline.idling.map ofPipeline).map .down

/-- START of the pipeline, up to the receiving thread in its loop. -/
def starting : List Action := (Pipeline.startUp.map ofPipeline).map .down

def relayPrepared : Ingest "q" Unit (Process.SplitterWorld Unit) :=
  prepared HTTPState.guardedStart Pipeline.plainPrepared.world 100

def relayStarted : Ingest "q" Unit (Process.SplitterWorld Unit) :=
  (Lib.exec (step Pipeline.plainChain) starting relayPrepared).getD relayPrepared

def relayed : Ingest "q" Unit (Process.SplitterWorld Unit) :=
  (Lib.exec (step Pipeline.plainChain) relaying relayStarted).getD relayStarted

abbrev Runs := Lib.Execution
  (step Pipeline.plainChain : Action → Ingest "q" Unit (Process.SplitterWorld Unit) → Option (Ingest "q" Unit _))

theorem waking_back : Lib.exec (step Pipeline.plainChain) waking relayed = some relayed := by
  have around : Lib.exec (InternalPipeline.step Pipeline.plainChain) (Pipeline.idling.map ofPipeline)
      relayed.down = some relayed.down := rfl
  rw [waking, exec_down, around, Option.map_some, withDown_down]

def wakingRun : Runs := .circle waking relayed (by decide) waking_back

def relayRun : Runs := wakingRun.prepend relaying relayStarted rfl

theorem relayStarted_reached : Lib.Reaches (step Pipeline.plainChain) relayPrepared relayStarted :=
  Lib.exec_reaches starting rfl

def Action.isTimerPush : Action → Bool
  | .down (.thread a) => a.isTimerPush
  | _ => false

def Action.isSending : Action → Bool
  | .down (.thread (.sending (.error _))) => true
  | _ => false

/-- The pipeline runs and fetches, no timer pushes, no call of the connector throws, and all buffers have room. -/
def Relays (a : Action) (s : Ingest "q" Unit (Process.SplitterWorld Unit)) : Prop :=
  s.down.pipeline.state = .running ∧ s.down.pipeline.sQueue.blocking = true ∧ a.isTimerPush = false ∧ a.isSending = false ∧
    s.down.pipeline.ReceiveLoop ∧ ¬ s.down.queue.SomeFull

instance (a : Action) (s : Ingest "q" Unit (Process.SplitterWorld Unit)) : Decidable (Relays a s) :=
  inferInstanceAs (Decidable (_ ∧ _))

theorem relayRun_relays (n : Nat) : Relays (relayRun.act n) (relayRun.state n) :=
  Lib.Execution.prepend_along (by decide) (Lib.Execution.circle_along (by decide)) n

theorem relayRun_state (n : Nat) : relayRun.state (n * waking.length + relaying.length) = relayed :=
  (Lib.Execution.prepend_state _).trans
    (Option.some.inj (Lib.Execution.circle_state n (by decide : 0 < waking.length)))

theorem relayRun_act (n : Nat) {i : Nat} (inside : i < waking.length) :
    relayRun.act (n * waking.length + i + relaying.length) = waking.get ⟨i, inside⟩ :=
  (Lib.Execution.prepend_act _).trans (Lib.Execution.circle_act n inside)

theorem late_enough (n i : Nat) : n ≤ n * waking.length + i + relaying.length := by
  have wide : waking.length = 7 := rfl
  rw [wide]
  omega

/-- What is not possible while the threads wait is not put off. -/
theorem relayRun_fair {helpful : Action → Prop} (disabled : ∀ a, helpful a → step Pipeline.plainChain a relayed = none) :
    relayRun.Fair helpful := by
  intro n
  refine ⟨n * waking.length + relaying.length, late_enough n 0, .inr fun a help => ?_⟩
  rw [relayRun_state]
  exact disabled a help

theorem relayRun_serves : Serves relayRun where
  again n := by
    refine ⟨_, late_enough n 0, ?_⟩
    rw [Lib.Execution.Moving, relayRun_act n (by decide : 0 < waking.length)]
    rfl
  running n := (relayRun_relays n).1
  handling := ⟨_, rfl, rfl⟩
  sendLoop := .inl rfl
  blocking n := (relayRun_relays n).2.1
  untimed n timer := by
    have none' := (relayRun_relays n).2.2.1
    rw [timer] at none'
    cases none'
  sends n e thrown := by
    have none' := (relayRun_relays n).2.2.2.1
    rw [thrown] at none'
    cases none'
  processes n := by
    refine ⟨_, late_enough n 1, .inl ⟨fun _ => {}, ?_⟩⟩
    rw [relayRun_act n (by decide : 1 < waking.length)]
    rfl
  delivers := by
    refine relayRun_fair ?_
    rintro a ⟨call, rfl⟩
    rfl
  awake n := by
    refine ⟨_, late_enough n 1, ?_⟩
    have woken : some (wakingRun.state (n * waking.length + 1)) =
        some (relayed.withDown { relayed.down with pipeline := relayed.down.pipeline.processingAt .loop }) :=
      Lib.Execution.circle_state n (by decide : 1 < waking.length)
    have there : relayRun.state (n * waking.length + 1 + relaying.length) = wakingRun.state (n * waking.length + 1) :=
      Lib.Execution.prepend_state _
    rw [there, Option.some.inj woken]
    rintro ⟨⟩
  pushes n := by
    refine ⟨_, late_enough n 0, ?_⟩
    rw [Nat.add_zero, relayRun_state]
    rfl

theorem ingest_relays_one :
    ∃ m, 1 ≤ m ∧ ∃ jobs acts last, JobsDo Pipeline.plainChain jobs Pipeline.plainPrepared.world acts last ∧
      [.ofChars [1] 1] <+: Job.messages jobs ∧
      Process.pushes acts <+: (relayRun.state m).down.pipeline.sent.map Queued.msgW := by
  have start : relayRun.state 0 = relayStarted := rfl
  have reached : Lib.Reaches (step Pipeline.plainChain) relayPrepared (relayRun.state 0) := start ▸ relayStarted_reached
  have connected : (relayRun.state 0).down.connected = true := start ▸ rfl
  have before : Acted Pipeline.plainChain (Undisturbed Pipeline.plainChain) Pipeline.plainPrepared _
      (relayRun.state 0).down.pipeline :=
    Lib.along_trace Pipeline.startUp (Pipeline.startUp_smooth.mono fun a _ smooth => Pipeline.undisturbed_of_smooth smooth a) rfl
  have fair : relayRun.Fair (· = .down .receiving) := relayRun_fair fun a receiving => receiving ▸ rfl
  have relays := ingest_relays reached (Process.returns_of_forward Pipeline.plainChain_forward) before relayRun_serves connected
    (fun n _ => (relayRun_relays n).2.2.2.2.2) (fun n => (relayRun_relays n).2.2.2.2.1) fair 1
  have empty : relayStarted.down.pipeline.received ++
      (relayStarted.down.queue.waitingFor relayStarted.down.incoming).map doReceive = [] := rfl
  have entered : (((relayRun.upTo entries 1).filter Entry.accepted).map Entry.msg).map doReceive = [.ofChars [1] 1] := rfl
  rwa [start, empty, entered, List.nil_append] at relays

end Ingest

end M2eBridge
