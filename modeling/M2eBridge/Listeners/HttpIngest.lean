import M2eBridge.Listeners.HttpPost
import M2eBridge.Pipeline.Arrival

/-!
# From a request to a pipeline

The HTTP listener in front of an internal queue and a pipeline behind it. Requests are served,
channels are created, changed and deleted, and the threads of the pipeline take their steps, in
any order. What the pipeline receives was pushed by others or is what a request brought that
showed the token of its channel, each request at most once (`ingest_in_order`); and while the
pipeline stays connected and no buffer is full, it is all that was answered with 200
(`ingest_lossless`), none of which waits for ever (`ingest_arrives`).
-/

namespace M2eBridge

/-- The queue `queuid` is that of the pipeline. -/
structure Ingest (queuid : String) (φ ω : Type) where
  http : HTTPState φ
  down : InternalPipeline ω
  shared : http.queues queuid = down.queue

namespace Ingest

open InternalConnector (doReceive)

variable {queuid : String} {φ ω : Type}

inductive Action where
  /-- A request, a call of the interface, or what the rest of the process does to the other queues. -/
  | http (a : HTTPState.Action)
  /-- A step of the pipeline, or of anyone else that has to do with its queue. -/
  | down (a : InternalPipeline.Action)

/-- The listener has made its step. -/
def withHttp (s : Ingest queuid φ ω) (http : HTTPState φ) : Ingest queuid φ ω where
  http := http
  down := { s.down with queue := http.queues queuid }
  shared := rfl

/-- The pipeline has made its step. -/
def withDown (s : Ingest queuid φ ω) (down : InternalPipeline ω) : Ingest queuid φ ω where
  http := { s.http with queues := Function.update s.http.queues queuid down.queue }
  down := down
  shared := Function.update_self ..

def step [DecidableEq φ] (chain : List (Filtra ω)) : Action → Ingest queuid φ ω → Option (Ingest queuid φ ω)
  | .http (.others queues), s => some (s.withHttp { s.http with queues := Function.update queues queuid s.down.queue })
  | .http a, s => (s.http.step a).map s.withHttp
  | .down a, s => (s.down.step chain a).map s.withDown

/-- The listener, and a pipeline that has not been started. -/
def prepared (http : HTTPState φ) (world : ω) (bufferSize : Nat) : Ingest queuid φ ω :=
  let down := InternalPipeline.prepared world bufferSize
  { http := { http with queues := Function.update http.queues queuid down.queue }
    down := down
    shared := Function.update_self .. }

/-- Something that may get into the queue. -/
inductive Entry where
  /-- A request that got to a channel, and how its handler ended. -/
  | request (r : Request) (d : Delivery) (answer : Except Exn Reply)
  | other (msg : Message)

namespace Entry

def msg : Entry → Message
  | .request _ d _ => .ofChars d.data d.length
  | .other msg => msg

/-- It is pushed: a length that comes of a failed read makes no string. -/
def enters : Entry → Bool
  | .request _ d _ => d.length ≤ HTTPChannel.maxSize
  | .other _ => true

/-- A request that was answered with 200, or anything else that is pushed. -/
def accepted : Entry → Bool
  | .request _ _ (.ok reply) => reply.status = 200
  | .request _ _ (.error _) => false
  | .other _ => true

/-- A request was let through by a channel that is fit for use and has the queue. -/
def Vouched (queuid : String) : Entry → Prop
  | .request r d _ =>
    r.lastSegment = some d.id ∧ d.channel.Configured ∧ d.channel.queueName = queuid ∧ d.channel.accepts r = true
  | .other _ => True

end Entry

/-- The entries that a step makes: of the requests, those on channels of the queue. -/
def entries : Action → Ingest queuid φ ω → List Entry
  | .http (.request r now), s =>
    match s.http.listener.dispatch r, s.http.serve r now with
    | .ok d, some (answer, _) => if d.channel.queue = some queuid then [.request r d answer] else []
    | _, _ => []
  | .http _, _ => []
  | .down a, _ => (InternalPipeline.pushed a).map .other

/-- Those that are pushed. -/
def entering (a : Action) (s : Ingest queuid φ ω) : List Entry := (entries a s).filter Entry.enters

/-! ## What a step of the listener does to the queues -/

/-- The ways in which a request is served. -/
inductive Served (w : HTTPState φ) (r : Request) : Except Exn Reply → HTTPState φ → Prop where
  | refused {reply answer : _} {after : HTTPState φ} (dispatched : w.listener.dispatch r = .error reply)
      (queues : after.queues = w.queues) : Served w r answer after
  /-- Nothing could be read. -/
  | unread {d : Delivery} {e : Exn} {after : HTTPState φ} (dispatched : w.listener.dispatch r = .ok d)
      (long : HTTPChannel.maxSize < d.length) (queues : after.queues = w.queues) : Served w r (.error e) after
  | pushed {d : Delivery} {q : String} {answer : _} {after : HTTPState φ} (dispatched : w.listener.dispatch r = .ok d)
      (queue : d.channel.queue = some q) (fits : d.length ≤ HTTPChannel.maxSize)
      (queues : after.queues = Function.update w.queues q ((w.queues q).push (.ofChars d.data d.length)).2)
      (answered : if (w.queues q).SomeFull then answer = .error TSQueue.queueIsFull else answer = .ok ⟨200, ""⟩) :
      Served w r answer after

theorem served_cases {w after : HTTPState φ} {r : Request} {now : UInt64} {answer : Except Exn Reply}
    (serve : w.serve r now = some (answer, after)) : Served w r answer after := by
  unfold HTTPState.serve at serve
  split at serve
  · next reply refused =>
    cases serve
    exact .refused refused rfl
  · next d dispatched =>
    split at serve
    · cases serve
    · next result channel queues consumed =>
      cases serve
      unfold HTTPChannel.consume at consumed
      split at consumed
      · cases consumed
      · next q queue =>
        split at consumed
        · next long =>
          cases consumed
          exact .unread dispatched long rfl
        · next short =>
          have fits : d.length ≤ HTTPChannel.maxSize := Nat.not_lt.mp short
          have updates :
              (fun other => if other = q then ((w.queues q).push (.ofChars d.data d.length)).2 else w.queues other) =
                Function.update w.queues q ((w.queues q).push (.ofChars d.data d.length)).2 := by
            funext other
            simp only [Function.update_apply]
          by_cases full : (w.queues q).SomeFull
          · have thrown : ((w.queues q).push (.ofChars d.data d.length)).1 = .error TSQueue.queueIsFull :=
              InternalQueue.push_throws_iff.mpr full
            simp only [thrown] at consumed
            cases consumed
            refine .pushed dispatched queue fits updates ?_
            rw [if_pos full]
            rfl
          · have returned : ((w.queues q).push (.ofChars d.data d.length)).1 = .ok () :=
              InternalQueue.push_returns_iff.mpr full
            simp only [returned] at consumed
            cases consumed
            refine .pushed dispatched queue fits updates ?_
            rw [if_neg full]
            rfl

/-- To the pipeline, a step of the listener that leaves its queue is none. -/
theorem withHttp_down {s : Ingest queuid φ ω} {http : HTTPState φ} (queues : http.queues queuid = s.http.queues queuid) :
    (s.withHttp http).down = s.down := by
  simp only [withHttp, queues, s.shared]

/-- The entry of a request on a channel of the queue. -/
theorem entries_request {s : Ingest queuid φ ω} {r : Request} {now : UInt64} {answer : Except Exn Reply} {after : HTTPState φ}
    {d : Delivery} (serve : s.http.serve r now = some (answer, after)) (dispatched : s.http.listener.dispatch r = .ok d) :
    entries (.http (.request r now)) s = if d.channel.queue = some queuid then [.request r d answer] else [] := by
  simp only [entries, dispatched, serve]

theorem entries_refused {s : Ingest queuid φ ω} {r : Request} {now : UInt64} {reply : Reply}
    (dispatched : s.http.listener.dispatch r = .error reply) : entries (.http (.request r now)) s = [] := by
  simp only [entries, dispatched]

variable [DecidableEq φ] {chain : List (Filtra ω)}

/-- The calls of the interface have nothing to do with the queues. -/
theorem call_queues (w : HTTPState φ) (c : Call) (written : Written) : (w.call c written).2.queues = w.queues := by
  cases c with
  | create id config =>
    simp only [HTTPState.call, HTTPState.createChannel]
    repeat' split
    all_goals rfl
  | update id config =>
    simp only [HTTPState.call, HTTPState.updateChannel]
    repeat' split
    all_goals rfl
  | delete id => rfl

/-- To the pipeline, a step is one of its own, a push, or nothing. -/
theorem step_down {a : Action} {s t : Ingest queuid φ ω} (h : step chain a s = some t) :
    t.down = s.down ∧ entering a s = [] ∨
      ∃ b, s.down.step chain b = some t.down ∧ (entering a s).map Entry.msg = InternalPipeline.pushed b ∧
        (b = .receiving → a = .down .receiving) := by
  cases a with
  | down a =>
    obtain ⟨down, moved, rfl⟩ := Option.map_eq_some_iff.mp h
    refine .inr ⟨a, moved, ?_, fun same => by rw [same]⟩
    simp [entering, entries, List.filter_map, Function.comp_def, Entry.enters, Entry.msg]
  | http a =>
    cases a with
    | others queues =>
      cases h
      refine .inl ⟨withHttp_down ?_, rfl⟩
      simp only [Function.update_self, s.shared]
    | call c written =>
      cases h
      exact .inl ⟨withHttp_down (congrFun (call_queues ..) _), rfl⟩
    | request r now =>
      obtain ⟨http, stepped, rfl⟩ := Option.map_eq_some_iff.mp h
      obtain ⟨⟨answer, after⟩, serve, rfl⟩ := Option.map_eq_some_iff.mp stepped
      cases served_cases serve with
      | refused dispatched queues =>
        exact .inl ⟨withHttp_down (congrFun queues _), by simp only [entering, entries_refused dispatched, List.filter_nil]⟩
      | @unread d _ _ dispatched long queues =>
        refine .inl ⟨withHttp_down (congrFun queues _), ?_⟩
        rw [entering, entries_request serve dispatched]
        split
        · simp [Entry.enters, long]
        · rfl
      | @pushed d q _ _ dispatched queue fits queues _ =>
        rw [entering, entries_request serve dispatched, queue]
        by_cases own : q = queuid
        · subst own
          have feeds : ([Entry.request r d answer].filter Entry.enters).map Entry.msg = [.ofChars d.data d.length] := by
            simp [Entry.enters, fits, Entry.msg]
          refine .inr ⟨.push (.ofChars d.data d.length), ?_, by rwa [if_pos rfl], nofun⟩
          simp only [withHttp, queues, Function.update_self, s.shared]
          rfl
        · refine .inl ⟨withHttp_down ?_, by simp [own]⟩
          simp only [queues, Function.update_of_ne (Ne.symm own)]

theorem contains :
    InternalPipeline.Contains chain (step chain) (fun s : Ingest queuid φ ω => s.down) entering Entry.msg (· = .down .receiving) :=
  fun _ _ _ => step_down

/-! ## Who is let in -/

/-- The channels are as their constructor and `reconfigure` leave them. -/
def Sound (s : Ingest queuid φ ω) : Prop := s.http.listener.channels.Each HTTPChannel.Settled

theorem Sound.step {a : Action} {s t : Ingest queuid φ ω} (sound : Sound s) (h : Ingest.step chain a s = some t) :
    Sound t := by
  cases a with
  | down a =>
    obtain ⟨down, -, rfl⟩ := Option.map_eq_some_iff.mp h
    exact sound
  | http a =>
    cases a with
    | others queues => cases h; exact sound
    | call c written => cases h; exact HTTPState.settled_step (a := .call c written) sound rfl
    | request r now =>
      obtain ⟨http, stepped, rfl⟩ := Option.map_eq_some_iff.mp h
      exact HTTPState.settled_step sound stepped

omit [DecidableEq φ] in
theorem Sound.vouched {a : Action} {s : Ingest queuid φ ω} (sound : Sound s) : ∀ e ∈ entries a s, e.Vouched queuid := by
  intro e member
  cases a with
  | down a =>
    obtain ⟨msg, -, rfl⟩ := List.mem_map.mp member
    trivial
  | http a =>
    cases a with
    | call | others => cases member
    | request r now =>
      simp only [entries] at member
      split at member
      · next _ _ d answer after dispatched serve =>
        split at member
        · next own =>
          obtain rfl := List.mem_singleton.mp member
          have admitted := HTTPListener.dispatch_ok dispatched
          have configured := (sound d.id d.channel admitted.channel).configured admitted.sound
          refine ⟨admitted.id, configured, ?_, HTTPChannel.accepts_iff.mpr admitted.shown⟩
          exact Option.some.inj (configured.queue.symm.trans own)
        · cases member
      · cases member

/-- In every run, only requests that a channel of the queue has let through get to it. -/
theorem vouched_run {guard : Action → Ingest queuid φ ω → Prop} {s t : Ingest queuid φ ω} {seen : List Entry}
    (sound : Sound s) (run : Lib.Trace (step chain) entries guard s seen t) : ∀ e ∈ seen, e.Vouched queuid := by
  induction run with
  | refl => exact fun e member => nomatch member
  | head met next _ ih =>
    intro e member
    rcases List.mem_append.mp member with here | later
    · exact sound.vouched e here
    · exact ih (sound.step next) e later

/-! ## What gets in -/

omit [DecidableEq φ] in
theorem sound_prepared {http : HTTPState φ} {config : Json} (listening : HTTPListener.ofConfig config = .ok http.listener)
    (world : ω) (bufferSize : Nat) : Sound (prepared http world bufferSize : Ingest queuid φ ω) :=
  HTTPListener.each_ofConfig (fun _ _ _ built => (HTTPChannel.ofConfig_ok built).1) listening

/-- **Only what was let in.** In every run of listener and pipeline, whatever is requested, reconfigured, commanded
and dropped, what the pipeline has received from its queue, with what waits there, is some of what got to it,
each once and in that order: pushes of others, and what requests brought that a channel of the queue let through. -/
theorem ingest_in_order {http : HTTPState φ} {config : Json} (listening : HTTPListener.ofConfig config = .ok http.listener)
    {world : ω} {bufferSize : Nat} {t : Ingest queuid φ ω} {seen : List Entry}
    (run : Lib.Trace (step chain) entries (fun _ _ => True) (prepared http world bufferSize) seen t) :
    (t.down.pipeline.received ++ (t.down.queue.waitingFor t.down.incoming).map doReceive).Sublist
        (((seen.filter Entry.enters).map Entry.msg).map doReceive) ∧
      ∀ e ∈ seen, e.Vouched queuid := by
  refine ⟨?_, vouched_run (sound_prepared listening world bufferSize) run⟩
  exact contains.in_order (run.filter fun _ _ _ => rfl) (.prepared world bufferSize)

/-- The pipeline stays subscribed, and what gets in finds room. -/
abbrev Flowing : Action → Ingest queuid φ ω → Prop := InternalPipeline.Flowing down entering (· = .down .receiving)

omit [DecidableEq φ] in
/-- Where there is room, what is pushed is what is accepted. -/
theorem entering_accepted (a : Action) (s : Ingest queuid φ ω) (flowing : Flowing a s) :
    entering a s = (entries a s).filter Entry.accepted := by
  cases a with
  | down a => simp [entering, entries, List.filter_map, Function.comp_def, Entry.enters, Entry.accepted]
  | http a =>
    cases a with
    | call | others => rfl
    | request r now =>
      cases serve : s.http.serve r now with
      | none => simp [entering, entries, serve]
      | some ended =>
        obtain ⟨answer, after⟩ := ended
        cases served_cases serve with
        | refused dispatched queues => simp only [entering, entries_refused dispatched, List.filter_nil]
        | unread dispatched long queues =>
          rw [entering, entries_request serve dispatched]
          split <;> simp [Entry.enters, Entry.accepted, long]
        | @pushed d q _ _ dispatched queue fits queues answered =>
          have made := entries_request serve dispatched
          rw [queue] at made
          by_cases own : q = queuid
          · subst own
            rw [if_pos rfl] at made
            have enters : entering (.http (.request r now)) s = [.request r d answer] := by
              simp [entering, made, Entry.enters, fits]
            have room := flowing.room (by simp [enters])
            rw [← s.shared] at room
            rw [if_neg room] at answered
            rw [enters, made, answered]
            rfl
          · rw [entering, made, if_neg (by simpa using own)]
            rfl

/-- **What is answered with 200 gets through.** From any state that a run comes to with the pipeline connected, and as
long as its receiving thread neither connects nor disconnects and each push finds room in all the buffers of the
queue, what is received, with what waits, grows by exactly the requests on channels of the queue that are answered
with 200 and the pushes of others. -/
theorem ingest_lossless {http : HTTPState φ} {world : ω} {bufferSize : Nat} {s t : Ingest queuid φ ω} {seen : List Entry}
    (reached : Lib.Reaches (step chain) (prepared http world bufferSize) s) (connected : s.down.connected = true)
    (run : Lib.Trace (step chain) entries Flowing s seen t) :
    t.down.pipeline.received ++ (t.down.queue.waitingFor t.down.incoming).map doReceive =
      s.down.pipeline.received ++ (s.down.queue.waitingFor s.down.incoming).map doReceive ++
        ((seen.filter Entry.accepted).map Entry.msg).map doReceive := by
  have apart : s.down.Apart := by
    refine reached.invariant (fun s => s.down.Apart) ?_ fun a s t apart h => contains.apart apart h
    exact .prepared world bufferSize
  exact contains.lossless apart connected (run.filter entering_accepted)

/-- The receiving thread is scheduled as one of the actions. -/
theorem schedules :
    InternalPipeline.Schedules chain (step chain) (fun s : Ingest queuid φ ω => s.down) (· = .down .receiving) where
  takes a s t receiving h := by
    subst receiving
    obtain ⟨down, moved, rfl⟩ := Option.map_eq_some_iff.mp h
    exact moved
  lets s t possible := ⟨.down .receiving, s.withDown t, rfl, Option.map_eq_some_iff.mpr ⟨t, possible, rfl⟩⟩

/-- **What is answered with 200 is received.** In a run without end from a state with the pipeline connected, in which
the receiving thread stays in its loop and is not put off for ever, and what gets in finds room in all the buffers of
the queue, there is for each time a later one by which all that waited at the start and all that was answered with 200
or pushed by others before that time has been received, in that order and nothing in between. -/
theorem ingest_arrives {http : HTTPState φ} {world : ω} {bufferSize : Nat}
    {run : Lib.Execution (step chain : Action → Ingest queuid φ ω → Option (Ingest queuid φ ω))}
    (reached : Lib.Reaches (step chain) (prepared http world bufferSize) (run.state 0))
    (connected : (run.state 0).down.connected = true)
    (room : ∀ n, entering (run.act n) (run.state n) ≠ [] → ¬ (run.state n).down.queue.SomeFull)
    (loop : ∀ n, (run.state n).down.pipeline.ReceiveLoop) (fair : run.Fair (· = .down .receiving)) (n : Nat) :
    ∃ m, n ≤ m ∧
      (run.state 0).down.pipeline.received ++ ((run.state 0).down.queue.waitingFor (run.state 0).down.incoming).map doReceive ++
          (((run.upTo entries n).filter Entry.accepted).map Entry.msg).map doReceive <+:
        (run.state m).down.pipeline.received := by
  have apart : (run.state 0).down.Apart := by
    refine reached.invariant (fun s => s.down.Apart) ?_ fun a s t apart h => contains.apart apart h
    exact .prepared world bufferSize
  have fetching : InternalPipeline.Fetching (fun s : Ingest queuid φ ω => s.down) (· = .down .receiving) run :=
    ⟨apart, loop, fair⟩
  have flows : Lib.Trace (step chain) entries Flowing (run.state 0) (run.upTo entries n) (run.state n) :=
    run.trace_upTo entries (fetching.flowing room) n
  exact fetching.arrives_pushed contains schedules connected (flows.filter entering_accepted)

/-! ## Requests that come through -/

def ingestPrepared : Ingest "q" Unit Unit := prepared HTTPState.guardedStart () 100

/-- A request that shows the token, one that does not, another one that does, and the two of them received. -/
def postTwo : List Action :=
  [ .http (.request HTTPState.guardedRequest 0),
    .http (.request { HTTPState.guardedRequest with authorization := none } 1),
    .http (.request HTTPState.guardedRequest 2) ] ++
    List.replicate 8 (.down .receiving)

def ingestStarted : Ingest "q" Unit Unit :=
  (Lib.exec (step []) (InternalPipeline.startUp.map .down) ingestPrepared).getD ingestPrepared

def ingested : Ingest "q" Unit Unit := (Lib.exec (step []) postTwo ingestStarted).getD ingestStarted

theorem ingestStarted_exec : Lib.exec (step []) (InternalPipeline.startUp.map .down) ingestPrepared = some ingestStarted :=
  Lib.exec_getD (by decide +kernel)

theorem ingested_exec : Lib.exec (step []) postTwo ingestStarted = some ingested := Lib.exec_getD (by decide +kernel)

theorem ingestStarted_reached : Lib.Reaches (step []) ingestPrepared ingestStarted :=
  Lib.exec_reaches (InternalPipeline.startUp.map .down) ingestStarted_exec

theorem ingested_waiting : ingested.down.queue.waitingFor ingested.down.incoming = [] :=
  List.isEmpty_iff.mp (by decide +kernel)

theorem ingest_in_order_two :
    ingested.down.pipeline.received.Sublist
      ((((Lib.outputs (step []) entries (InternalPipeline.startUp.map .down ++ postTwo) ingestPrepared).filter
        Entry.enters).map Entry.msg).map doReceive) ∧
      ingested.down.pipeline.received.map Message.isValid = [true, true] := by
  have ran : Lib.exec (step []) (InternalPipeline.startUp.map .down ++ postTwo) ingestPrepared = some ingested := by
    rw [Lib.exec_append, ingestStarted_exec, Option.bind_some, ingested_exec]
  have run : Lib.Trace (step []) entries (fun _ _ => True) ingestPrepared _ ingested :=
    Lib.exec_trace (InternalPipeline.startUp.map .down ++ postTwo) (fun _ _ _ => trivial) ran
  have listening : HTTPListener.ofConfig HTTPState.guardedDocument = .ok HTTPState.guardedStart.listener := rfl
  have inOrder := (ingest_in_order listening run).1
  rw [ingested_waiting, List.map_nil, List.append_nil] at inOrder
  exact ⟨inOrder, by decide +kernel⟩

theorem postTwo_calm : Lib.Along (step []) (fun _ s => s.down.Calm) postTwo ingestStarted := by
  decide +kernel

theorem ingest_lossless_two :
    ingested.down.pipeline.received =
      (((Lib.outputs (step []) entries postTwo ingestStarted).filter Entry.accepted).map Entry.msg).map doReceive ∧
      ingested.down.pipeline.received.map Message.msgRaw = [[1], [1]] := by
  have run : Lib.Trace (step []) entries Flowing ingestStarted _ ingested :=
    Lib.along_trace postTwo (postTwo_calm.mono InternalPipeline.flowing_of_calm) ingested_exec
  have lossless := ingest_lossless ingestStarted_reached rfl run
  have before : ingestStarted.down.queue.waitingFor ingestStarted.down.incoming = [] ∧
    ingestStarted.down.pipeline.received = [] := ⟨rfl, rfl⟩
  rw [ingested_waiting, before.1, before.2, List.map_nil, List.append_nil, List.append_nil, List.nil_append] at lossless
  exact ⟨lossless, by decide +kernel⟩

/-- A request that shows no token, served again and again. -/
def refusing : List Action := [.http (.request { HTTPState.guardedRequest with authorization := none } 1)]

/-- The receiving thread has come to its next pop. -/
def popping : Ingest "q" Unit Unit := (step [] (.down .receiving) ingested).getD ingested

theorem popping_exec : Lib.exec (step []) [.down .receiving] ingested = some popping := rfl

def refusedRun : Lib.Execution (step [] : Action → Ingest "q" Unit Unit → Option (Ingest "q" Unit Unit)) :=
  .circle refusing popping (by decide) rfl

/-- The requests and the message, and then nothing but requests that are refused. -/
def ingestRun : Lib.Execution (step [] : Action → Ingest "q" Unit Unit → Option (Ingest "q" Unit Unit)) :=
  refusedRun.prepend (postTwo ++ [.down .receiving]) ingestStarted
    (by rw [Lib.exec_append, ingested_exec, Option.bind_some, popping_exec]; rfl)

/-- The receiving thread is in its loop, and all buffers have room. -/
def Ready (_ : Action) (s : Ingest "q" Unit Unit) : Prop := s.down.pipeline.ReceiveLoop ∧ ¬ s.down.queue.SomeFull

instance (a : Action) (s : Ingest "q" Unit Unit) : Decidable (Ready a s) := inferInstanceAs (Decidable (_ ∧ _))

theorem ingestRun_ready (n : Nat) : Ready (ingestRun.act n) (ingestRun.state n) :=
  Lib.Execution.prepend_along (by decide +kernel) (Lib.Execution.circle_along (by decide +kernel)) n

theorem refusedRun_state (n : Nat) : refusedRun.state (n * refusing.length) = popping :=
  Option.some.inj (Lib.Execution.circle_state n (by decide : 0 < refusing.length))

/-- In the end the receiving thread has nothing to do. -/
theorem ingestRun_fair : ingestRun.Fair (· = .down .receiving) := by
  refine Lib.Execution.Fair.prepend fun n => ⟨n * refusing.length, by simp [refusing], .inr ?_⟩
  rintro a rfl
  rw [refusedRun_state]
  rfl

theorem ingest_arrives_two : ∃ m, 3 ≤ m ∧ [.ofChars [1] 1, .ofChars [1] 1] <+: (ingestRun.state m).down.pipeline.received := by
  have start : ingestRun.state 0 = ingestStarted := rfl
  have reached : Lib.Reaches (step []) ingestPrepared (ingestRun.state 0) := start ▸ ingestStarted_reached
  have connected : (ingestRun.state 0).down.connected = true := start ▸ rfl
  have arrives := ingest_arrives reached connected (fun n _ => (ingestRun_ready n).2) (fun n => (ingestRun_ready n).1)
    ingestRun_fair 3
  have before : ingestStarted.down.pipeline.received ++
      (ingestStarted.down.queue.waitingFor ingestStarted.down.incoming).map doReceive = [] := rfl
  have entered : (((ingestRun.upTo entries 3).filter Entry.accepted).map Entry.msg).map doReceive =
      [.ofChars [1] 1, .ofChars [1] 1] := rfl
  rwa [start, before, entered, List.nil_append] at arrives

end Ingest

end M2eBridge
