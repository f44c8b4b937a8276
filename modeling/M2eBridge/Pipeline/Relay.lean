import M2eBridge.Lib.Parts
import M2eBridge.Pipeline.Bridge
import M2eBridge.Pipeline.Progress

/-!
# From one pipeline through the next

Two pipelines and the queue between them, in a run without end. The steps of the one in front are a run of their
own (`front_embeds`), in which what it receives is handled and sent; and what it sends is received behind. Taken
together, what is received in front comes through to the pipeline behind (`bridge_relays`).
-/

namespace M2eBridge

open Process (Act)

namespace Pipeline

variable {ω : Type} {chain : List (Filtra ω)}

/-- Whether the sending thread can go on does not depend on what comes of its call. -/
theorem sending_enabled {s t : Pipeline ω} {call : Except Exn Unit} (h : step chain (.sending call) s = some t)
    (call' : Except Exn Unit) : ∃ u, step chain (.sending call') s = some u := by
  obtain ⟨pc, here, next⟩ := Option.bind_eq_some_iff.mp h
  have possible : ∃ u, s.runSending call' pc = some u := by
    cases pc with
    | connect | disconnect => cases call' <;> exact ⟨_, rfl⟩
    | connected => simp only [runSending]; split <;> exact ⟨_, rfl⟩
    | pop =>
      simp only [runSending] at next ⊢
      split at next
      · exact ⟨_, rfl⟩
      · exact ⟨_, rfl⟩
      · cases next
    | send x =>
      cases call' with
      | ok => exact ⟨_, rfl⟩
      | error e => simp only [runSending]; split <;> exact ⟨_, rfl⟩
    | begin | loop | clear | finish => exact ⟨_, rfl⟩
    | done => cases next
  obtain ⟨u, moved⟩ := possible
  exact ⟨u, by simp only [step, here, Option.bind_some, moved]⟩

/-- A pipeline of a system that goes on there serves in its own run. -/
theorem serving_partOf {σ α : Type} {system : α → σ → Option σ} {up : σ → Pipeline ω} {moves : α → σ → Option Action}
    {run : Lib.Execution system} (embeds : Lib.Embeds system (step chain) up moves)
    (again : ∀ n, ∃ m, n ≤ m ∧ run.Moving moves m) (running : ∀ n, (up (run.state n)).state = .running)
    (handling : (up (run.state 0)).Handling) (sendLoop : (up (run.state 0)).SendLoop)
    (blocking : ∀ n, (up (run.state n)).sQueue.blocking = true)
    (untimed : ∀ n, moves (run.act n) (run.state n) ≠ some .timerPush)
    (sends : ∀ n e, moves (run.act n) (run.state n) = some (.sending (.error e)) → e.kind ≠ .underflowError)
    (processes : (run.partOf embeds again).Fair Action.isProcessing)
    (delivers : (run.partOf embeds again).Fair Action.isSending)
    (awake : ∀ n, ∃ m, n ≤ m ∧ (up (run.state m)).processing.thread ≠ some .blocked)
    (pushes : ∀ n, ∃ m, n ≤ m ∧ (up (run.state m)).cargo.receivingHand = []) : Serving (run.partOf embeds again) where
  running k := running _
  handling := by
    rw [Lib.Execution.partOf_zero]
    exact handling
  sendLoop := by
    rw [Lib.Execution.partOf_zero]
    exact sendLoop
  blocking k := blocking _
  untimed k timer := by
    obtain ⟨a, told⟩ := Option.isSome_iff_exists.mp (run.time_moving again k)
    rw [Lib.Execution.partOf_act again embeds told] at timer
    exact untimed _ (timer ▸ told)
  sends k e thrown := by
    obtain ⟨a, told⟩ := Option.isSome_iff_exists.mp (run.time_moving again k)
    rw [Lib.Execution.partOf_act again embeds told] at thrown
    exact sends _ e (thrown ▸ told)
  processes := processes
  delivers := delivers
  awake k := Lib.Execution.partOf_recurs (q := fun s : Pipeline ω => s.processing.thread ≠ some .blocked) again embeds awake k
  pushes k := Lib.Execution.partOf_recurs (q := fun s : Pipeline ω => s.cargo.receivingHand = []) again embeds pushes k

end Pipeline

namespace Bridge

open InternalConnector (doSend doReceive)
open Pipeline (Acted Undisturbed)

variable {ω ω' : Type} {chain : List (Filtra ω)} {chain' : List (Filtra ω')}

/-! ## The pipeline in front -/

/-- The step that the pipeline in front takes. -/
def front : Action → Bridge ω ω' → Option Pipeline.Action
  | .sending, s =>
    match s.up.sending.thread with
    | some (.send x) => some (.sending (doSend s.down.queue x.msgW).1)
    | _ => some (.sending (.ok ()))
  | .up a, _ => some a
  | .down _, _ => none

variable (chain) in
/-- The sending thread goes on with what the queue answers. -/
theorem front_sending (s : Bridge ω ω') : ∃ call, front .sending s = some (.sending call) ∧
    (runSending chain s).map Bridge.up = s.up.step chain (.sending call) := by
  have same {f : Pipeline ω → Bridge ω ω'} (x : Option (Pipeline ω)) (keeps : ∀ up, (f up).up = up) :
      (x.map f).map Bridge.up = x := by
    cases x with
    | none => rfl
    | some up => exact congrArg some (keeps up)
  by_cases sends : ∃ x, s.up.sending.thread = some (.send x)
  · obtain ⟨x, here⟩ := sends
    refine ⟨(doSend s.down.queue x.msgW).1, by simp only [front, here], ?_⟩
    simp only [runSending, here]
    exact same _ fun _ => rfl
  · refine ⟨.ok (), ?_, ?_⟩
    · simp only [front]
      split
      case h_1 x here => exact absurd ⟨x, here⟩ sends
      case h_2 => rfl
    · simp only [runSending]
      split
      case h_1 x here => exact absurd ⟨x, here⟩ sends
      case h_2 => exact same _ fun _ => rfl

theorem front_embeds : Lib.Embeds (step chain chain') (Pipeline.step chain) Bridge.up front := by
  intro a s t h
  cases a with
  | sending =>
    obtain ⟨call, told, moves⟩ := front_sending chain s
    rw [told, Option.elim_some, ← moves]
    exact Option.map_eq_some_iff.mpr ⟨t, h, rfl⟩
  | up a => exact (up_cases h).2.2
  | down a =>
    obtain ⟨down, -, rfl⟩ := Option.map_eq_some_iff.mp h
    rfl

/-- A full queue throws no underflow. -/
theorem front_sends {a : Action} {s t : Bridge ω ω'} {e : Exn} (h : step chain chain' a s = some t)
    (thrown : front a s = some (.sending (.error e))) : e.kind ≠ .underflowError := by
  cases a with
  | sending =>
    simp only [front] at thrown
    split at thrown
    case h_1 x here =>
      have failed : (doSend s.down.queue x.msgW).1 = .error e := by simpa using thrown
      by_cases full : s.down.queue.SomeFull
      · have overflow : (doSend s.down.queue x.msgW).1 = .error TSQueue.queueIsFull := InternalQueue.push_throws_iff.mpr full
        cases failed.symm.trans overflow
        simp [TSQueue.queueIsFull]
      · have returned : (doSend s.down.queue x.msgW).1 = .ok () := InternalQueue.push_returns_iff.mpr full
        cases failed.symm.trans returned
    case h_2 => cases thrown
  | up a =>
    cases thrown
    cases h
  | down a => cases thrown

/-- The pipeline in front keeps on running, nobody but its receiving thread gives it something to do, and none of
its threads is kept from going on for ever. -/
structure Serves (run : Lib.Execution (step chain chain')) : Prop where
  again : ∀ n, ∃ m, n ≤ m ∧ run.Moving front m
  running : ∀ n, (run.state n).up.state = .running
  handling : (run.state 0).up.Handling
  sendLoop : (run.state 0).up.SendLoop
  blocking : ∀ n, (run.state n).up.sQueue.blocking = true
  untimed : ∀ n, run.act n ≠ .up .timerPush
  processes : run.Fair fun a => ∃ queues, a = .up (.processing queues)
  delivers : run.Fair (· = .sending)
  /-- The processing thread does not stay in `pipeline_event_.wait`. -/
  awake : ∀ n, ∃ m, n ≤ m ∧ (run.state m).up.processing.thread ≠ some .blocked
  /-- What is received is pushed to `r_queue_`. -/
  pushes : ∀ n, ∃ m, n ≤ m ∧ (run.state m).up.cargo.receivingHand = []

theorem front_timerPush {a : Action} {s : Bridge ω ω'} (timer : front a s = some .timerPush) : a = .up .timerPush := by
  cases a with
  | sending =>
    obtain ⟨call, told, -⟩ := front_sending ([] : List (Filtra ω)) s
    cases told.symm.trans timer
  | up a =>
    cases timer
    rfl
  | down a => cases timer

/-- The run of the pipeline in front. -/
theorem Serves.serving {run : Lib.Execution (step chain chain')} (serves : Serves run) :
    Pipeline.Serving (run.partOf front_embeds serves.again) := by
  refine Pipeline.serving_partOf front_embeds serves.again serves.running serves.handling serves.sendLoop serves.blocking
    (fun n timer => serves.untimed n (front_timerPush timer)) (fun n e => front_sends (run.next n))
    (serves.processes.partOf serves.again front_embeds ?_ ?_) (serves.delivers.partOf serves.again front_embeds ?_ ?_)
    serves.awake serves.pushes
  · rintro a s t ⟨queues, rfl⟩ -
    exact ⟨_, rfl, trivial⟩
  · intro s b u help possible
    cases b with
    | processing queues =>
      have taken : step chain chain' (.up (.processing queues)) s = some { s with up := u } :=
        Option.map_eq_some_iff.mpr ⟨u, possible, rfl⟩
      exact ⟨_, _, ⟨queues, rfl⟩, taken⟩
    | _ => cases help
  · rintro a s t rfl -
    obtain ⟨call, told, -⟩ := front_sending chain s
    exact ⟨_, told, trivial⟩
  · intro s b u help possible
    cases b with
    | sending call =>
      obtain ⟨call', -, moves⟩ := front_sending chain s
      obtain ⟨v, enabled⟩ := Pipeline.sending_enabled possible call'
      obtain ⟨t, taken, -⟩ := Option.map_eq_some_iff.mp (moves.trans enabled)
      exact ⟨.sending, t, rfl, taken⟩
    | _ => cases help

/-! ## Both together -/

/-- **What is received comes through.** Two pipelines and the queue between them, in a run without end from a state that
the one in front has come to with its calls undisturbed and that one behind is connected in. Where the one in front
serves and every call of `process` there ends, the receiving thread behind stays in its loop and is not put off for
ever, and each push finds room in all the buffers of the queue: whatever is received in front at a time is in the end
handled there as the sequential machine does, one message after the other, and what that machine pushes, but for what
had been sent before, is received behind the queue, in its order. -/
theorem bridge_relays {world : ω} {world' : ω'} {bufferSize : Nat} {run : Lib.Execution (step chain chain')}
    (reached : Lib.Reaches (step chain chain') (prepared world world' bufferSize) (run.state 0)) {trace : List Act}
    (returns : Process.Returns chain)
    (before : Acted chain (Undisturbed chain) (Pipeline.prepared world) trace (run.state 0).up) (serves : Serves run)
    (connected : (run.state 0).down.connected = true)
    (room : ∀ n, pushed (run.act n) (run.state n) ≠ [] → ¬ (run.state n).down.queue.SomeFull)
    (loop : ∀ n, (run.state n).down.pipeline.ReceiveLoop) (fair : run.Fair (· = .down .receiving)) (n : Nat) :
    ∃ m, n ≤ m ∧ ∃ jobs acts last, JobsDo chain jobs world acts last ∧ (run.state n).up.received <+: Job.messages jobs ∧
      ((((Process.pushes acts).map MessageWrapper.msgPtr).drop (run.state 0).up.sent.length).map doReceive).Sublist
        (run.state m).down.pipeline.received := by
  obtain ⟨k, late, same⟩ := Lib.Execution.next_time serves.again front_embeds n
  have start : (run.partOf front_embeds serves.again).state 0 = (run.state 0).up := Lib.Execution.partOf_zero ..
  obtain ⟨l, behind, jobs, acts, last, does, received, sent⟩ := serves.serving.handled_sent returns (start ▸ before) k
  have after : n ≤ run.time serves.again l := late.trans ((run.time_strictMono serves.again).monotone behind)
  have apart : (run.state 0).down.Apart := by
    refine reached.invariant (fun s => s.down.Apart) ?_ fun a s t apart h => contains.apart apart h
    exact .prepared world' bufferSize
  have fetching : InternalPipeline.Fetching (down : Bridge ω ω' → InternalPipeline ω') (· = .down .receiving) run :=
    ⟨apart, loop, fair⟩
  have flows : Pushed chain chain' Flowing (run.state 0) (run.upTo pushed (run.time serves.again l))
      (run.state (run.time serves.again l)) := run.trace_upTo pushed (fetching.flowing room) _
  obtain ⟨m, later, arrived⟩ := fetching.arrives_pushed contains schedules connected flows
  refine ⟨m, after.trans later, jobs, acts, last, does, same ▸ received, ?_⟩
  -- of what that machine pushes, what had not been sent before the run is among its pushes to the queue
  have own := sent_run flows
  have all : (Process.pushes acts).map MessageWrapper.msgPtr <+:
      (run.state 0).up.sent.map (fun x => x.msgW.msgPtr) ++
        ((run.upTo pushed (run.time serves.again l)).filter Prod.fst).map Prod.snd := by
    have handed := sent.map MessageWrapper.msgPtr
    rw [List.map_map] at handed
    rw [← own]
    exact handed
  have new : ((Process.pushes acts).map MessageWrapper.msgPtr).drop (run.state 0).up.sent.length <+:
      ((run.upTo pushed (run.time serves.again l)).filter Prod.fst).map Prod.snd := by
    have dropped := all.drop (run.state 0).up.sent.length
    rwa [List.drop_left' (List.length_map _)] at dropped
  have fromFront : ((run.upTo pushed (run.time serves.again l)).filter Prod.fst).Sublist (run.upTo pushed (run.time serves.again l)) :=
    List.filter_sublist
  have among := (fromFront.map Prod.snd).map doReceive
  exact ((new.map doReceive).sublist.trans among).trans ((List.sublist_append_right _ _).trans arrived.sublist)

/-! ## A message that is relayed -/

/-- START behind the queue, and START in front of it. -/
def startBoth : List Action := startDown ++ Pipeline.startUp.map ofUp

/-- A message is received in front, handled, sent, and received behind; then all threads wait. -/
def relaying : List Action :=
  let through : List Pipeline.Action :=
    Pipeline.receiveOne (.ofString [0x61] .raw) ++ Pipeline.sendOne ++ List.replicate 2 (.sending (.ok ())) ++
      List.replicate 3 (.processing fun _ => {})
  through.map ofUp ++ List.replicate 5 (.down .receiving)

/-- The processing thread in front is woken, finds nothing and waits again. -/
def waking : List Action := Pipeline.idling.map ofUp

def bothPrepared : Bridge (Process.SplitterWorld Unit) Unit := prepared Pipeline.plainPrepared.world () 100

def bothStarted : Bridge (Process.SplitterWorld Unit) Unit :=
  (Lib.exec (step Pipeline.plainChain []) startBoth bothPrepared).getD bothPrepared

def relayed : Bridge (Process.SplitterWorld Unit) Unit :=
  (Lib.exec (step Pipeline.plainChain []) relaying bothStarted).getD bothStarted

def wakingRun : Lib.Execution (step Pipeline.plainChain ([] : List (Filtra Unit))) :=
  .circle waking relayed (by decide) rfl

def relayRun : Lib.Execution (step Pipeline.plainChain ([] : List (Filtra Unit))) :=
  wakingRun.prepend relaying bothStarted rfl

theorem bothStarted_reached : Lib.Reaches (step Pipeline.plainChain []) bothPrepared bothStarted :=
  Lib.exec_reaches startBoth rfl

def Action.isTimerPush : Action → Bool
  | .up a => a.isTimerPush
  | _ => false

/-- The pipeline in front runs, no timer pushes, the one behind fetches, and all buffers have room. -/
def Relays (a : Action) (s : Bridge (Process.SplitterWorld Unit) Unit) : Prop :=
  s.up.state = .running ∧ s.up.sQueue.blocking = true ∧ a.isTimerPush = false ∧ s.down.pipeline.ReceiveLoop ∧
    ¬ s.down.queue.SomeFull

instance (a : Action) (s : Bridge (Process.SplitterWorld Unit) Unit) : Decidable (Relays a s) :=
  inferInstanceAs (Decidable (_ ∧ _))

theorem relayRun_relays (n : Nat) : Relays (relayRun.act n) (relayRun.state n) :=
  Lib.Execution.prepend_along (by decide) (Lib.Execution.circle_along (by decide)) n

theorem wakingRun_state (n : Nat) : wakingRun.state (n * waking.length) = relayed :=
  Option.some.inj (Lib.Execution.circle_state n (by decide : 0 < waking.length))

theorem relayRun_state (n : Nat) : relayRun.state (n * waking.length + relaying.length) = relayed :=
  (Lib.Execution.prepend_state _).trans (wakingRun_state n)

theorem relayRun_act (n : Nat) {i : Nat} (inside : i < waking.length) :
    relayRun.act (n * waking.length + i + relaying.length) = waking.get ⟨i, inside⟩ :=
  (Lib.Execution.prepend_act _).trans (Lib.Execution.circle_act n inside)

theorem late_enough (n i : Nat) : n ≤ n * waking.length + i + relaying.length := by
  have wide : waking.length = 7 := rfl
  rw [wide]
  omega

/-- What is not possible while the threads wait is not put off. -/
theorem relayRun_fair {helpful : Action → Prop}
    (disabled : ∀ a, helpful a → step Pipeline.plainChain ([] : List (Filtra Unit)) a relayed = none) :
    relayRun.Fair helpful := by
  intro n
  refine ⟨n * waking.length + relaying.length, late_enough n 0, .inr fun a help => ?_⟩
  rw [relayRun_state]
  exact disabled a help

theorem relayRun_serves : Serves relayRun where
  again n := by
    refine ⟨_, late_enough n 0, ?_⟩
    rw [Lib.Execution.Moving, relayRun_act n (by decide : 0 < waking.length)]
    rfl
  running n := (relayRun_relays n).1
  handling := ⟨_, rfl, rfl⟩
  sendLoop := .inl rfl
  blocking n := (relayRun_relays n).2.1
  untimed n timer := by
    have none' := (relayRun_relays n).2.2.1
    rw [timer] at none'
    cases none'
  processes n := by
    refine ⟨_, late_enough n 1, .inl ⟨fun _ => {}, ?_⟩⟩
    rw [relayRun_act n (by decide : 1 < waking.length)]
    rfl
  delivers := relayRun_fair fun a sending => sending ▸ rfl
  awake n := by
    refine ⟨_, late_enough n 1, ?_⟩
    have woken : some (wakingRun.state (n * waking.length + 1)) = some { relayed with up := relayed.up.processingAt .loop } :=
      Lib.Execution.circle_state n (by decide : 1 < waking.length)
    have there : relayRun.state (n * waking.length + 1 + relaying.length) = wakingRun.state (n * waking.length + 1) :=
      Lib.Execution.prepend_state _
    rw [there, Option.some.inj woken]
    rintro ⟨⟩
  pushes n := by
    refine ⟨_, late_enough n 0, ?_⟩
    rw [Nat.add_zero, relayRun_state]
    rfl

theorem bridge_relays_one :
    ∃ m, relaying.length ≤ m ∧ ∃ jobs acts last, JobsDo Pipeline.plainChain jobs Pipeline.plainPrepared.world acts last ∧
      [.ofString [0x61] .raw] <+: Job.messages jobs ∧
      (((Process.pushes acts).map MessageWrapper.msgPtr).map doReceive).Sublist (relayRun.state m).down.pipeline.received := by
  have start : relayRun.state 0 = bothStarted := rfl
  have reached : Lib.Reaches (step Pipeline.plainChain []) bothPrepared (relayRun.state 0) := start ▸ bothStarted_reached
  have connected : (relayRun.state 0).down.connected = true := start ▸ rfl
  have before : Acted Pipeline.plainChain (Undisturbed Pipeline.plainChain) Pipeline.plainPrepared _ (relayRun.state 0).up :=
    Lib.along_trace Pipeline.startUp (Pipeline.startUp_smooth.mono fun a _ smooth => Pipeline.undisturbed_of_smooth smooth a) rfl
  have fair : relayRun.Fair (· = .down .receiving) := relayRun_fair fun a receiving => receiving ▸ rfl
  have relays := bridge_relays reached (Process.returns_of_forward Pipeline.plainChain_forward) before relayRun_serves connected
    (fun n _ => (relayRun_relays n).2.2.2.2) (fun n => (relayRun_relays n).2.2.2.1) fair relaying.length
  have there : relayRun.state relaying.length = relayed := by
    have back := relayRun_state 0
    rwa [Nat.zero_mul, Nat.zero_add] at back
  have received : relayed.up.received = [.ofString [0x61] .raw] := rfl
  have unsent : bothStarted.up.sent = [] := rfl
  rw [there, start, received, unsent] at relays
  exact relays

/-- The front filtra has looked at the message, so it is a valid one that is received behind. -/
example : relayed.down.pipeline.received.map (fun m => (m.isValid, m.msgRaw)) = [(true, [0x61])] := rfl

end Bridge

end M2eBridge
