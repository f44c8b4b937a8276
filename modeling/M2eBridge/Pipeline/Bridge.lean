import M2eBridge.Pipeline.Arrival
import M2eBridge.Pipeline.Errors

/-!
# Two pipelines and a queue between them

`connector_out_` of one pipeline and `connector_in_` of another are the internal connectors of
one queue, to which others may push and subscribe, too. The threads of both pipelines take
their steps in any order, and each is started and stopped by itself. What comes in behind the
queue came out before it, once and in order (`bridge_in_order`), and all of it as long as the
pipeline behind stays connected and no push finds a full buffer (`bridge_lossless`); none of it waits for ever
(`bridge_arrives`).
-/

namespace M2eBridge

/-- Two pipelines; the queue is that of the one behind. -/
structure Bridge (ω ω' : Type) where
  up : Pipeline ω
  down : InternalPipeline ω'

namespace Bridge

open InternalConnector (doSend doReceive)

variable {ω ω' : Type} (chain : List (Filtra ω)) (chain' : List (Filtra ω'))

inductive Action where
  /-- A step of the sending thread in front of the queue. -/
  | sending
  /-- A step of any other thread there. -/
  | up (a : Pipeline.Action)
  /-- A step of the pipeline behind the queue, or of anyone else that has to do with the queue. -/
  | down (a : InternalPipeline.Action)

/-- An internal connector that only sends has nothing to connect to. -/
def runSending (s : Bridge ω ω') : Option (Bridge ω ω') :=
  match s.up.sending.thread with
  | some (.send x) =>
    let (result, queue) := doSend s.down.queue x.msgW
    (s.up.step chain (.sending result)).map fun up => { up, down := { s.down with queue } }
  | _ => (s.up.step chain (.sending (.ok ()))).map fun up => { s with up }

def step : Action → Bridge ω ω' → Option (Bridge ω ω')
  | .sending, s => s.runSending chain
  | .up (.sending _), _ => none
  | .up a, s => (s.up.step chain a).map fun up => { s with up }
  | .down a, s => (s.down.step chain' a).map fun down => { s with down }

/-- What a step pushes to the queue, and whether the pipeline in front of it does. -/
def pushed : Action → Bridge ω ω' → List (Bool × Message)
  | .sending, s => s.up.cargo.sendingHand.map fun x => (true, x.msgW.msgPtr)
  | .up _, _ => []
  | .down a, _ => (InternalPipeline.pushed a).map fun msg => (false, msg)

/-- A run with the messages that are pushed. -/
abbrev Pushed (guard : Action → Bridge ω ω' → Prop) : Bridge ω ω' → List (Bool × Message) → Bridge ω ω' → Prop :=
  Lib.Trace (step chain chain') pushed guard

def prepared (world : ω) (world' : ω') (bufferSize : Nat) : Bridge ω ω' where
  up := Pipeline.prepared world
  down := InternalPipeline.prepared world' bufferSize

variable {chain : List (Filtra ω)} {chain' : List (Filtra ω')}

/-- The queue is left, unless the step is that of a push. -/
theorem runSending_cases {s t : Bridge ω ω'} (h : s.runSending chain = some t) :
    (∃ result, s.up.step chain (.sending result) = some t.up) ∧
      (t.down = s.down ∧ s.up.cargo.sendingHand = [] ∨
        ∃ x, s.up.cargo.sendingHand = [x] ∧ t.down = { s.down with queue := (doSend s.down.queue x.msgW).2 }) := by
  unfold runSending at h
  split at h
  case h_1 x here =>
    obtain ⟨up, moved, rfl⟩ := Option.map_eq_some_iff.mp h
    exact ⟨⟨_, moved⟩, .inr ⟨x, by simp [Pipeline.cargo, here, SendingPc.hand], rfl⟩⟩
  case h_2 elsewhere =>
    obtain ⟨up, moved, rfl⟩ := Option.map_eq_some_iff.mp h
    refine ⟨⟨_, moved⟩, .inl ⟨rfl, ?_⟩⟩
    cases there : s.up.sending.thread with
    | none => simp [Pipeline.cargo, there]
    | some pc =>
      cases pc with
      | send x => exact absurd there (elsewhere x)
      | _ => simp [Pipeline.cargo, there, SendingPc.hand]

/-- A step of another thread in front of the queue. -/
theorem up_cases {a : Pipeline.Action} {s t : Bridge ω ω'} (h : step chain chain' (.up a) s = some t) :
    t.down = s.down ∧ (∀ call, a ≠ .sending call) ∧ s.up.step chain a = some t.up := by
  cases a with
  | sending call => cases h
  | _ =>
    simp only [step] at h
    obtain ⟨up, moved, rfl⟩ := Option.map_eq_some_iff.mp h
    exact ⟨rfl, by simp, moved⟩

/-- To the pipeline behind, a step is one of its own, a push, or nothing. -/
theorem step_down {a : Action} {s t : Bridge ω ω'} (h : step chain chain' a s = some t) :
    t.down = s.down ∧ pushed a s = [] ∨
      ∃ b, s.down.step chain' b = some t.down ∧ (pushed a s).map Prod.snd = InternalPipeline.pushed b ∧
        (b = .receiving → a = .down .receiving) := by
  cases a with
  | sending =>
    obtain ⟨-, ⟨same, empty⟩ | ⟨x, hand, down⟩⟩ := runSending_cases h
    · exact .inl ⟨same, by simp [pushed, empty]⟩
    · exact .inr ⟨.push x.msgW.msgPtr, by rw [down]; rfl, by simp [pushed, hand, InternalPipeline.pushed], nofun⟩
  | up a => exact .inl ⟨(up_cases h).1, rfl⟩
  | down a =>
    obtain ⟨down, moved, rfl⟩ := Option.map_eq_some_iff.mp h
    refine .inr ⟨a, moved, by simp [pushed, List.map_map, Function.comp_def], fun same => by rw [same]⟩

/-- What is handed to `connector_out_` in front of the queue is pushed, whatever comes of it. -/
theorem step_sent {a : Action} {s t : Bridge ω ω'} (h : step chain chain' a s = some t) :
    t.up.sent.map (fun x => x.msgW.msgPtr) =
      s.up.sent.map (fun x => x.msgW.msgPtr) ++ ((pushed a s).filter Prod.fst).map Prod.snd := by
  cases a with
  | sending =>
    obtain ⟨⟨result, moved⟩, -⟩ := runSending_cases h
    rw [Pipeline.sent_sending moved, List.map_append]
    simp [pushed, List.filter_map, Function.comp_def]
  | up a =>
    obtain ⟨-, other, moved⟩ := up_cases h
    rw [Pipeline.sent_kept other moved]
    exact (List.append_nil _).symm
  | down a =>
    obtain ⟨down, -, rfl⟩ := Option.map_eq_some_iff.mp h
    have none' : (pushed (.down a) s).filter Prod.fst = [] := by
      simp [pushed, List.filter_map, Function.comp_def]
    rw [none', List.map_nil, List.append_nil]

theorem contains :
    InternalPipeline.Contains chain' (step chain chain') down pushed Prod.snd (· = .down .receiving) :=
  fun _ _ _ => step_down

/-- What the pipeline in front sends is what it pushes. -/
theorem sent_run {guard : Action → Bridge ω ω' → Prop} {s t : Bridge ω ω'} {fed : List (Bool × Message)}
    (run : Pushed chain chain' guard s fed t) :
    t.up.sent.map (fun x => x.msgW.msgPtr) = s.up.sent.map (fun x => x.msgW.msgPtr) ++ (fed.filter Prod.fst).map Prod.snd := by
  induction run with
  | refl => exact (List.append_nil _).symm
  | head _ next _ ih => rw [ih, step_sent next, List.filter_append, List.map_append, List.append_assoc]

/-- **In order.** In every run of both pipelines, whatever is commanded, thrown and dropped, the messages received
behind the queue, with those that wait there, are some of the messages pushed to it, each once and in the
order of the pushes; and those that the pipeline in front pushed are those that it sent, in that order. -/
theorem bridge_in_order {world : ω} {world' : ω'} {bufferSize : Nat} {t : Bridge ω ω'} {fed : List (Bool × Message)}
    (run : Pushed chain chain' (fun _ _ => True) (prepared world world' bufferSize) fed t) :
    (t.down.pipeline.received ++ (t.down.queue.waitingFor t.down.incoming).map doReceive).Sublist
        ((fed.map Prod.snd).map doReceive) ∧
      (fed.filter Prod.fst).map Prod.snd = t.up.sent.map fun x => x.msgW.msgPtr := by
  refine ⟨?_, (sent_run run).symm⟩
  exact contains.in_order run (.prepared world' bufferSize)

/-- The pipeline behind stays subscribed, and a push finds room. -/
abbrev Flowing : Action → Bridge ω ω' → Prop := InternalPipeline.Flowing down pushed (· = .down .receiving)

/-- **Nothing is lost.** From any state that a run comes to with the pipeline behind connected, and as long as its
receiving thread neither connects nor disconnects and each push finds room in all the buffers of the queue,
what is received, with what waits, grows by exactly what is pushed. -/
theorem bridge_lossless {world : ω} {world' : ω'} {bufferSize : Nat} {s t : Bridge ω ω'} {fed : List (Bool × Message)}
    (reached : Lib.Reaches (step chain chain') (prepared world world' bufferSize) s) (connected : s.down.connected = true)
    (run : Pushed chain chain' Flowing s fed t) :
    t.down.pipeline.received ++ (t.down.queue.waitingFor t.down.incoming).map doReceive =
      s.down.pipeline.received ++ (s.down.queue.waitingFor s.down.incoming).map doReceive ++ (fed.map Prod.snd).map doReceive := by
  have apart : s.down.Apart := by
    refine reached.invariant (fun s => s.down.Apart) ?_ fun a s t apart h => contains.apart apart h
    exact .prepared world' bufferSize
  exact contains.lossless apart connected run

/-- The receiving thread behind the queue is scheduled as one of the actions. -/
theorem schedules : InternalPipeline.Schedules chain' (step chain chain') down (· = .down .receiving) where
  takes a s t receiving h := by
    subst receiving
    obtain ⟨down, moved, rfl⟩ := Option.map_eq_some_iff.mp h
    exact moved
  lets s t possible := ⟨.down .receiving, { s with down := t }, rfl, Option.map_eq_some_iff.mpr ⟨t, possible, rfl⟩⟩

/-- **What is sent is received.** In a run without end from a state with the pipeline behind connected, in which its
receiving thread stays in its loop and is not put off for ever, and each push finds room in all the buffers of the
queue, there is for each time a later one by which all that was pushed before it has been received, in that order,
and so all that the pipeline in front has sent in the meantime. -/
theorem bridge_arrives {world : ω} {world' : ω'} {bufferSize : Nat} {run : Lib.Execution (step chain chain')}
    (reached : Lib.Reaches (step chain chain') (prepared world world' bufferSize) (run.state 0))
    (connected : (run.state 0).down.connected = true)
    (room : ∀ n, pushed (run.act n) (run.state n) ≠ [] → ¬ (run.state n).down.queue.SomeFull)
    (loop : ∀ n, (run.state n).down.pipeline.ReceiveLoop) (fair : run.Fair (· = .down .receiving)) (n : Nat) :
    (∃ m, n ≤ m ∧
      (run.state 0).down.pipeline.received ++ ((run.state 0).down.queue.waitingFor (run.state 0).down.incoming).map doReceive ++
          ((run.upTo pushed n).map Prod.snd).map doReceive <+: (run.state m).down.pipeline.received) ∧
      (run.state n).up.sent.map (fun x => x.msgW.msgPtr) =
        (run.state 0).up.sent.map (fun x => x.msgW.msgPtr) ++ ((run.upTo pushed n).filter Prod.fst).map Prod.snd := by
  have apart : (run.state 0).down.Apart := by
    refine reached.invariant (fun s => s.down.Apart) ?_ fun a s t apart h => contains.apart apart h
    exact .prepared world' bufferSize
  have fetching : InternalPipeline.Fetching (down : Bridge ω ω' → InternalPipeline ω') (· = .down .receiving) run :=
    ⟨apart, loop, fair⟩
  have flows : Pushed chain chain' Flowing (run.state 0) (run.upTo pushed n) (run.state n) :=
    run.trace_upTo pushed (fetching.flowing room) n
  exact ⟨fetching.arrives_pushed contains schedules connected flows, sent_run flows⟩

/-! ## A message that comes across -/

/-- START behind the queue. -/
def startDown : List Action := InternalPipeline.startUp.map .down

def ofUp : Pipeline.Action → Action
  | .sending _ => .sending
  | a => .up a

/-- START in front of it, and two messages that are received, redirected, sent, and received behind the queue. -/
def comeAcross : List Action :=
  let through : List Pipeline.Action :=
    Pipeline.startUp ++ Pipeline.receiveOne (.ofString [0x61] .raw) ++ List.replicate 10 (.processing fun _ => {}) ++
      List.replicate 3 (.sending (.ok ())) ++ List.replicate 4 (.receiving (.ok (.ofString [0x62] .raw))) ++
      List.replicate 10 (.processing fun _ => {}) ++ List.replicate 4 (.sending (.ok ()))
  through.map ofUp ++ List.replicate 8 (.down .receiving)

def downStarted : Bridge Unit Unit :=
  (Lib.exec (step [Pipeline.forwarding, .plain] []) startDown (prepared () () 100)).getD (prepared () () 100)

def cameAcross : Bridge Unit Unit :=
  (Lib.exec (step [Pipeline.forwarding, .plain] []) comeAcross downStarted).getD downStarted

theorem cameAcross_exec : Lib.exec (step [Pipeline.forwarding, .plain] []) comeAcross downStarted = some cameAcross :=
  Lib.exec_getD (by decide +kernel)

theorem downStarted_exec : Lib.exec (step [Pipeline.forwarding, .plain] []) startDown (prepared () () 100) = some downStarted :=
  Lib.exec_getD (by decide +kernel)

theorem downStarted_reached : Lib.Reaches (step [Pipeline.forwarding, .plain] []) (prepared () () 100) downStarted :=
  Lib.exec_reaches startDown downStarted_exec

/-- Nothing is left in the queue. -/
theorem cameAcross_waiting : cameAcross.down.queue.waitingFor cameAcross.down.incoming = [] :=
  List.isEmpty_iff.mp (by decide +kernel)

theorem bridge_in_order_two :
    cameAcross.down.pipeline.received.Sublist
      (((Lib.outputs (step [Pipeline.forwarding, .plain] []) pushed (startDown ++ comeAcross) (prepared () () 100)).map
        Prod.snd).map doReceive) ∧
      cameAcross.down.pipeline.received.map Message.isValid = [true, true] := by
  have ran : Lib.exec (step [Pipeline.forwarding, .plain] []) (startDown ++ comeAcross) (prepared () () 100) = some cameAcross := by
    rw [Lib.exec_append, downStarted_exec, Option.bind_some, cameAcross_exec]
  have run : Pushed [Pipeline.forwarding, .plain] [] (fun _ _ => True) (prepared () () 100) _ cameAcross :=
    Lib.exec_trace (startDown ++ comeAcross) (fun _ _ _ => trivial) ran
  have inOrder := (bridge_in_order run).1
  have rest := cameAcross_waiting
  rw [rest, List.map_nil, List.append_nil] at inOrder
  exact ⟨inOrder, by decide +kernel⟩

theorem comeAcross_calm : Lib.Along (step [Pipeline.forwarding, .plain] []) (fun _ s => s.down.Calm) comeAcross downStarted := by
  decide +kernel

theorem bridge_lossless_two :
    cameAcross.down.pipeline.received =
      ((Lib.outputs (step [Pipeline.forwarding, .plain] []) pushed comeAcross downStarted).map Prod.snd).map doReceive := by
  have run : Pushed [Pipeline.forwarding, .plain] [] Flowing downStarted _ cameAcross :=
    Lib.along_trace comeAcross (comeAcross_calm.mono InternalPipeline.flowing_of_calm) cameAcross_exec
  have lossless := bridge_lossless downStarted_reached rfl run
  have rest := cameAcross_waiting
  have before : downStarted.down.queue.waitingFor downStarted.down.incoming = [] ∧
    downStarted.down.pipeline.received = [] := ⟨rfl, rfl⟩
  rw [rest, before.1, before.2, List.map_nil, List.append_nil, List.append_nil, List.nil_append] at lossless
  exact lossless

/-- The receiving thread behind the queue has come to its next pop. -/
def popping : Bridge Unit Unit :=
  (step [Pipeline.forwarding, .plain] [] (.down .receiving) cameAcross).getD cameAcross

theorem popping_exec : Lib.exec (step [Pipeline.forwarding, .plain] []) [.down .receiving] cameAcross = some popping := rfl

/-- Nothing but wakeups that find nobody asleep. -/
def wakeups : List Action := [.down (.thread .wakeup)]

def quietRun : Lib.Execution (step [Pipeline.forwarding, .plain] ([] : List (Filtra Unit))) :=
  .circle wakeups popping (by decide) rfl

def bridgeRun : Lib.Execution (step [Pipeline.forwarding, .plain] ([] : List (Filtra Unit))) :=
  quietRun.prepend (comeAcross ++ [.down .receiving]) downStarted (by
    rw [Lib.exec_append, cameAcross_exec, Option.bind_some, popping_exec]
    rfl)

/-- The receiving thread is in its loop, and all buffers have room. -/
def Ready (_ : Action) (s : Bridge Unit Unit) : Prop := s.down.pipeline.ReceiveLoop ∧ ¬ s.down.queue.SomeFull

instance (a : Action) (s : Bridge Unit Unit) : Decidable (Ready a s) := inferInstanceAs (Decidable (_ ∧ _))

theorem bridgeRun_ready (n : Nat) : Ready (bridgeRun.act n) (bridgeRun.state n) :=
  Lib.Execution.prepend_along (by decide +kernel) (Lib.Execution.circle_along (by decide +kernel)) n

theorem quietRun_state (n : Nat) : quietRun.state (n * wakeups.length) = popping :=
  Option.some.inj (Lib.Execution.circle_state n (by decide : 0 < wakeups.length))

/-- In the end the receiving thread has nothing to do. -/
theorem bridgeRun_fair : bridgeRun.Fair (· = .down .receiving) := by
  refine Lib.Execution.Fair.prepend fun n => ⟨n * wakeups.length, by simp [wakeups], .inr ?_⟩
  rintro a rfl
  rw [quietRun_state]
  rfl

theorem bridge_arrives_two :
    (bridgeRun.upTo pushed comeAcross.length).map Prod.fst = [true, true] ∧
      ∃ m, comeAcross.length ≤ m ∧ ((bridgeRun.upTo pushed comeAcross.length).map Prod.snd).map doReceive <+:
        (bridgeRun.state m).down.pipeline.received := by
  have start : bridgeRun.state 0 = downStarted := rfl
  have reached : Lib.Reaches (step [Pipeline.forwarding, .plain] []) (prepared () () 100) (bridgeRun.state 0) :=
    start ▸ downStarted_reached
  have connected : (bridgeRun.state 0).down.connected = true := start ▸ rfl
  have arrives := (bridge_arrives reached connected (fun n _ => (bridgeRun_ready n).2) (fun n => (bridgeRun_ready n).1)
    bridgeRun_fair comeAcross.length).1
  have before : downStarted.down.pipeline.received ++
      (downStarted.down.queue.waitingFor downStarted.down.incoming).map doReceive = [] := rfl
  rw [start, before, List.nil_append] at arrives
  exact ⟨rfl, arrives⟩

end Bridge

end M2eBridge
