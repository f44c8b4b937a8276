import M2eBridge.Pipeline.Meaning

/-!
# A pipeline as a sequential machine

The processing thread has one job after the other: to start the filtras, to ask them for a
message, to process a message received. `JobsDo` is the machine that does them at once, on the
filtras alone. Every run of all the threads, with their queues, stops and failures, comes to a
run of that machine on the messages in the order in which they were received
(`sequential_run`), so that what is made of them does not depend on the interleaving
(`interleaving_irrelevant`).
-/

namespace M2eBridge

open Process (Act Does StackDoes Frame Walk)

/-- What the processing thread can be in the middle of. -/
inductive Job where
  /-- `start()` of each filtra. -/
  | start
  /-- `process()`. -/
  | event
  /-- `process(msg)`. -/
  | message (msg : Message)

def Job.messages : List Job → List Message
  | [] => []
  | .message msg :: jobs => msg :: messages jobs
  | _ :: jobs => messages jobs

section

variable {ω : Type} (chain : List (Filtra ω))

/-- The loop over `start()`, which an exception ends. -/
def startAll : List (Filtra ω) → ω → ω
  | [], world => world
  | filtra :: rest, world =>
    match filtra.start world with
    | (.ok _, world) => startAll rest world
    | (.error _, world) => world

/-- The loop over `generate_message()`, which a message ends. -/
def generateFirst (ix : Nat) : List (Filtra ω) → ω → List Act × ω
  | [], world => ([], world)
  | filtra :: rest, world =>
    match filtra.generateMessage world with
    | (.ok msg, world) => if msg.isValid then ([.emit ix msg], world) else generateFirst (ix + 1) rest world
    | (.error _, world) => ([], world)

inductive JobDoes : Job → ω → List Act → ω → Prop where
  | start (world : ω) : JobDoes .start world [] (startAll chain world)
  | event (world : ω) : JobDoes .event world (generateFirst 0 chain world).1 (generateFirst 0 chain world).2
  | message {msg : Message} {world last : ω} {acts : List Act} {e : Option Exn}
      (call : Does chain (.filtras (.ofMessage msg) 0) world acts e last) : JobDoes (.message msg) world acts last

inductive JobsDo : List Job → ω → List Act → ω → Prop where
  | nil (world : ω) : JobsDo [] world [] world
  | cons {job : Job} {jobs : List Job} {world next last : ω} {acts later : List Act} (does : JobDoes chain job world acts next)
      (rest : JobsDo jobs next later last) : JobsDo (job :: jobs) world (acts ++ later) last

variable {chain}

theorem startAll_still {filtras : List (Filtra ω)} (still : ∀ filtra ∈ filtras, ∀ world, (filtra.start world).2 = world)
    (world : ω) : startAll filtras world = world := by
  induction filtras with
  | nil => rfl
  | cons filtra rest ih =>
    obtain ⟨here, behind⟩ := List.forall_mem_cons.mp still
    have kept := here world
    rw [startAll]
    split
    case h_1 started =>
      rw [started] at kept
      exact kept ▸ ih behind
    case h_2 failed =>
      rw [failed] at kept
      exact kept

/-- Where starting the filtras is nothing, the machine does what the messages come to. -/
theorem JobsDo.messages (still : ∀ filtra ∈ chain, ∀ world, (filtra.start world).2 = world) {jobs : List Job} {world last : ω}
    {acts : List Act} (does : JobsDo chain jobs world acts last) (noEvent : .event ∉ jobs) :
    JobsDo chain ((Job.messages jobs).map .message) world acts last := by
  induction does with
  | nil => exact .nil _
  | cons first _ ih =>
    obtain ⟨here, behind⟩ := not_or.mp (mt List.mem_cons.mpr noEvent)
    have later := ih behind
    cases first with
    | start =>
      rw [startAll_still still] at later
      exact later
    | event => exact absurd rfl here
    | message call => exact .cons (.message call) later

/-- There is one thing that the machine does. -/
theorem JobsDo.unique {jobs : List Job} {world last last' : ω} {acts acts' : List Act} (does : JobsDo chain jobs world acts last)
    (other : JobsDo chain jobs world acts' last') : acts' = acts ∧ last' = last := by
  induction does generalizing acts' last' with
  | nil =>
    cases other
    exact ⟨rfl, rfl⟩
  | cons first _ ih =>
    cases other with
    | cons first' rest' =>
      cases first with
      | start | event =>
        cases first'
        obtain ⟨rfl, rfl⟩ := ih rest'
        exact ⟨rfl, rfl⟩
      | message call =>
        cases first' with
        | message call' =>
          obtain ⟨rfl, -, rfl⟩ := call.unique call'
          obtain ⟨rfl, rfl⟩ := ih rest'
          exact ⟨rfl, rfl⟩

end

namespace Pipeline

variable {ω : Type} {chain : List (Filtra ω)} {events : Prop}

/-- The messages that wait for the processing thread, in the order in which they were received. -/
def inbox (s : Pipeline ω) : List Message := (s.cargo.rQueue ++ s.cargo.receivingHand).map Received.msg

/-- The thread is not in the middle of a job. -/
def BetweenJobs (s : Pipeline ω) : Prop :=
  ∀ pc, s.processing.thread = some pc → (∀ ix, pc ≠ .startFiltra ix) ∧ (∀ ix, pc ≠ .event ix) ∧ ∀ frames, pc ≠ .walk frames

/-- What is still done for the job that the thread is in the middle of. -/
def Finishes (chain : List (Filtra ω)) (s : Pipeline ω) (acts : List Act) (last : ω) : Prop :=
  match s.processing.thread with
  | some (.startFiltra ix) => acts = [] ∧ last = startAll (chain.drop ix) s.world
  | some (.event ix) => (acts, last) = generateFirst ix (chain.drop ix) s.world
  | some (.walk frames) => StackDoes chain frames s.world acts last
  | _ => acts = [] ∧ last = s.world

/-- From `s` to `t` the acts are those of the job that is to be finished and of jobs behind it, for the
messages that are received, and for events if there are any. -/
def Explained (chain : List (Filtra ω)) (events : Prop) (t s : Pipeline ω) (acts : List Act) : Prop :=
  ∃ finished world jobs later, acts = finished ++ later ∧ s.Finishes chain finished world ∧
    JobsDo chain jobs world later t.world ∧ (Job.event ∈ jobs → events) ∧
    ∀ taken, s.received = taken ++ s.inbox → t.received = taken ++ (Job.messages jobs ++ t.inbox)

/-- The step does not disturb the walk: a loop test that it takes finds the pipeline active, and a redirect
no buffer full. -/
def Undisturbed (chain : List (Filtra ω)) (a : Action) (s : Pipeline ω) : Prop :=
  ∀ queues, a = .processing queues → ∀ f rest, s.cargo.frames = f :: rest → f.Free chain (s.env queues) s.world

/-- The queues of the pipeline have no limit. -/
structure Unlimited (s : Pipeline ω) : Prop where
  rQueue : s.rQueue.maxSize = 0
  sQueue : s.sQueue.maxSize = 0

theorem finishes_between {s : Pipeline ω} (between : s.BetweenJobs) {acts : List Act} {last : ω} :
    s.Finishes chain acts last ↔ acts = [] ∧ last = s.world := by
  unfold Finishes
  split
  case h_1 ix here => exact absurd rfl ((between _ here).1 ix)
  case h_2 ix here => exact absurd rfl ((between _ here).2.1 ix)
  case h_3 frames here => exact absurd rfl ((between _ here).2.2 frames)
  case h_4 => exact Iff.rfl

/-! ## Steps of the other threads -/

@[simp] theorem notify_world (s : Pipeline ω) : s.notify.world = s.world := by
  unfold notify
  split <;> rfl

@[simp] theorem controlCaught_world (s : Pipeline ω) (e : Exn) : (s.controlCaught e).world = s.world := by
  unfold controlCaught
  split <;> rfl

theorem runControl_world {s t : Pipeline ω} {call : Except Exn Unit} {todo : List Instr}
    (h : s.runControl call todo = some t) : t.world = s.world := by
  have awaited {st : ThreadState} {rest : List Instr} (h : s.await st call rest = some t) : t.world = s.world := by
    unfold await at h
    split at h
    · cases h; rfl
    · cases call <;> cases h
      exact controlCaught_world s _
  cases todo with
  | nil => cases h
  | cons instr rest =>
    cases instr with
    | testAlive | setState | clearError | freeResources | setBlocking | setNonBlocking => cases h; rfl
    | connectorStop =>
      cases call <;> cases h
      · exact controlCaught_world s _
      · rfl
    | awaitSending | awaitProcessing | awaitReceiving => exact awaited h
    | notifyProcessing =>
      simp only [runControl] at h
      split at h <;> cases h
      · exact notify_world s
      · rfl
    | executeStart | executeStop => simp only [runControl] at h; split at h <;> cases h <;> rfl
    | command | startSending | startProcessing | startReceiving =>
      simp only [runControl] at h
      split at h <;> cases h <;> first | rfl | exact controlCaught_world s _
    | joinReceiving | joinProcessing | joinSending =>
      simp only [runControl] at h
      split at h <;> cases h <;> rfl

theorem runReceiving_world {s t : Pipeline ω} {call : Except Exn Message} {pc : ReceivingPc}
    (h : s.runReceiving call pc = some t) : t.world = s.world := by
  have caught (e : Exn) : (s.receivingCaught e).world = s.world := by
    unfold receivingCaught
    split <;> rfl
  cases pc with
  | receive => cases call <;> cases h <;> first | rfl | exact caught _
  | push m => simp only [runReceiving] at h; split at h <;> cases h <;> first | rfl | exact caught _
  | connect | disconnect => cases call <;> cases h <;> rfl
  | connected => simp only [runReceiving] at h; split at h <;> cases h <;> rfl
  | notify => cases h; exact notify_world s
  | begin | loop | finish => cases h; rfl
  | done => cases h

theorem runSending_kept {s t : Pipeline ω} {call : Except Exn Unit} {pc : SendingPc}
    (h : s.runSending call pc = some t) : t.world = s.world ∧ t.received = s.received := by
  cases pc with
  | pop | connected => simp only [runSending] at h; split at h <;> cases h <;> exact ⟨rfl, rfl⟩
  | send x =>
    simp only [runSending] at h
    split at h
    · cases h; exact ⟨rfl, rfl⟩
    · split at h <;> cases h <;> exact ⟨rfl, rfl⟩
  | connect | disconnect => cases call <;> cases h <;> exact ⟨rfl, rfl⟩
  | begin | loop | clear | finish => cases h; exact ⟨rfl, rfl⟩
  | done => cases h

theorem between_none {s : Pipeline ω} (free : s.processing.thread = none) : s.BetweenJobs := by
  intro pc here
  cases free.symm.trans here

theorem between_at {s : Pipeline ω} {pc : ProcessingPc} (here : s.processing.thread = some pc)
    (start : ∀ ix, pc ≠ .startFiltra ix) (event : ∀ ix, pc ≠ .event ix) (walk : ∀ frames, pc ≠ .walk frames) :
    s.BetweenJobs := by
  intro other there
  cases here.symm.trans there
  exact ⟨start, event, walk⟩

/-- Between jobs the other threads can wake the processing thread, start and join it. -/
theorem other_between {a : Action} {s t : Pipeline ω} (other : ∀ queues, a ≠ .processing queues)
    (h : step chain a s = some t) :
    t.processing.thread = s.processing.thread ∨ s.BetweenJobs ∧ t.BetweenJobs := by
  have notified {u : Pipeline ω} (same : u.processing = s.notify.processing) :
      u.processing.thread = s.processing.thread ∨ s.BetweenJobs ∧ u.BetweenJobs := by
    rw [notify] at same
    split at same
    case h_1 blocked => exact .inr ⟨between_at blocked (by simp) (by simp) (by simp),
        between_at (congrArg Thread.thread same) (by simp) (by simp) (by simp)⟩
    case h_2 => exact .inl (congrArg Thread.thread same)
  cases a with
  | processing queues => exact absurd rfl (other queues)
  | execute cmd =>
    simp only [step] at h
    split at h
    · split at h <;> cases h <;> exact .inl rfl
    · cases h
  | control call =>
    cases todo : s.control with
    | nil => simp only [step, todo] at h; cases h
    | cons i rest =>
      simp only [step, todo] at h
      have threads := (runControl_step h).threads
      cases threads with
      | startProcessing free begun => exact .inr ⟨between_none free, between_at begun (by simp) (by simp) (by simp)⟩
      | joinProcessing ended joined => exact .inr ⟨between_at ended (by simp) (by simp) (by simp), between_none joined⟩
      | notify _ processing => exact notified processing
      | startReceiving _ _ processing | startSending _ _ _ processing | joinReceiving _ _ processing
      | joinSending _ _ _ processing | none _ _ processing => exact .inl (congrArg Thread.thread processing)
  | receiving call =>
    obtain ⟨pc, _, next⟩ := Option.bind_eq_some_iff.mp h
    rcases (runReceiving_step next).processing with same | woken
    · exact .inl (congrArg Thread.thread same)
    · exact notified woken
  | sending call =>
    obtain ⟨pc, _, next⟩ := Option.bind_eq_some_iff.mp h
    exact .inl (congrArg Thread.thread (runSending_step next).processing)
  | timerPush => simp only [step] at h; split at h <;> cases h <;> exact .inl rfl
  | timerNotify =>
    simp only [step] at h
    split at h <;> cases h
    exact notified rfl
  | wakeup =>
    cases h
    exact notified rfl

theorem other_world {a : Action} {s t : Pipeline ω} (other : ∀ queues, a ≠ .processing queues)
    (h : step chain a s = some t) : t.world = s.world := by
  cases a with
  | processing queues => exact absurd rfl (other queues)
  | execute cmd =>
    simp only [step] at h
    split at h
    · split at h <;> cases h <;> rfl
    · cases h
  | control call => exact runControl_world h
  | receiving call =>
    obtain ⟨pc, -, next⟩ := Option.bind_eq_some_iff.mp h
    exact runReceiving_world next
  | sending call =>
    obtain ⟨pc, -, next⟩ := Option.bind_eq_some_iff.mp h
    exact (runSending_kept next).1
  | timerPush => simp only [step] at h; split at h <;> cases h <;> rfl
  | timerNotify =>
    simp only [step] at h
    split at h <;> cases h
    exact notify_world s
  | wakeup => cases h; exact notify_world s

/-- The other threads leave what is to be finished. -/
theorem other_finishes {a : Action} {s t : Pipeline ω} (other : ∀ queues, a ≠ .processing queues)
    (h : step chain a s = some t) {acts : List Act} {last : ω} :
    t.Finishes chain acts last ↔ s.Finishes chain acts last := by
  have world := other_world other h
  rcases other_between other h with same | ⟨before, behind⟩
  · unfold Finishes
    rw [same, world]
  · rw [finishes_between before, finishes_between behind, world]

/-- What a step adds to the messages received is added to those that wait. -/
def Delivered (s t : Pipeline ω) : Prop := ∃ new, t.received = s.received ++ new ∧ t.inbox = s.inbox ++ new

theorem Delivered.same {s t : Pipeline ω} (received : t.received = s.received) (inbox : t.inbox = s.inbox) :
    Delivered s t := ⟨[], by rw [received, List.append_nil], by rw [inbox, List.append_nil]⟩

theorem Delivered.of_cargo {s t : Pipeline ω} (same : t.cargo = s.cargo) : Delivered s t :=
  .same (congrArg Cargo.received same) (by rw [inbox, same, inbox])

theorem runReceiving_delivered {s t : Pipeline ω} {call : Except Exn Message} {pc : ReceivingPc}
    (unlimited : s.Unlimited) (here : s.receiving.thread = some pc) (h : s.runReceiving call pc = some t) :
    Delivered s t := by
  have kept {u : Pipeline ω} {next : ReceivingPc} (queue : u.rQueue = s.rQueue) (received : u.received = s.received)
      (before : pc.hand = []) (behind : next.hand = []) : Delivered s (u.receivingAt next) := by
    refine .same received ?_
    simp [inbox, cargo, receivingAt, here, queue, before, behind]
  have caught (e : Exn) (before : pc.hand = []) : Delivered s (s.receivingCaught e) := by
    unfold receivingCaught
    split <;> exact kept rfl rfl before rfl
  cases pc with
  | receive =>
    cases call with
    | error e => cases h; exact caught e rfl
    | ok msg =>
      cases h
      refine ⟨[msg], rfl, ?_⟩
      simp [inbox, cargo, receivingAt, here, ReceivingPc.hand]
  | push m =>
    simp only [runReceiving, TSQueue.push_of_room (TSQueue.hasRoom_unlimited unlimited.rQueue)] at h
    cases h
    refine .same rfl ?_
    simp [inbox, cargo, receivingAt, here, ReceivingPc.hand]
  | connect | disconnect => cases call <;> cases h <;> exact kept rfl rfl rfl rfl
  | connected => simp only [runReceiving] at h; split at h <;> cases h <;> exact kept rfl rfl rfl rfl
  | loop =>
    cases h
    split <;> exact kept rfl rfl rfl rfl
  | notify =>
    cases h
    refine .of_cargo ?_
    rw [cargo_receivingAt, cargo_notify]
    simp [cargo, here, ReceivingPc.hand]
  | begin | finish => cases h; exact kept rfl rfl rfl rfl
  | done => cases h

theorem other_delivered {a : Action} {s t : Pipeline ω} (unlimited : s.Unlimited)
    (other : ∀ queues, a ≠ .processing queues) (h : step chain a s = some t) : Delivered s t := by
  cases a with
  | processing queues => exact absurd rfl (other queues)
  | execute cmd =>
    simp only [step] at h
    split at h
    · split at h <;> cases h <;> exact .of_cargo rfl
    · cases h
  | control call => exact .of_cargo (runControl_cargo h)
  | receiving call =>
    obtain ⟨pc, here, next⟩ := Option.bind_eq_some_iff.mp h
    exact runReceiving_delivered unlimited here next
  | sending call =>
    obtain ⟨pc, -, next⟩ := Option.bind_eq_some_iff.mp h
    have sent := runSending_step next
    refine .same (runSending_kept next).2 ?_
    simp only [inbox, cargo, sent.receiving, sent.rQueue]
  | timerPush => simp only [step] at h; split at h <;> cases h <;> exact .of_cargo rfl
  | timerNotify =>
    simp only [step] at h
    split at h <;> cases h
    exact .of_cargo (cargo_notify s)
  | wakeup => cases h; exact .of_cargo (cargo_notify s)

/-! ## Steps of the processing thread -/

theorem drop_of_found {ix : Nat} {filtra : Filtra ω} (found : chain[ix]? = some filtra) :
    chain.drop ix = filtra :: chain.drop (ix + 1) := by
  rw [List.drop_eq_getElem?_toList_append, found]
  rfl

theorem drop_of_missing {ix : Nat} (missing : chain[ix]? = none) : chain.drop ix = [] :=
  List.drop_eq_nil_of_le (List.getElem?_eq_none_iff.mp missing)

/-- The messages that wait stay where they are. -/
structure Keeps (s t : Pipeline ω) : Prop where
  received : t.received = s.received
  rQueue : t.rQueue = s.rQueue
  receiving : t.receiving = s.receiving

theorem Keeps.inbox {s t : Pipeline ω} (keeps : s.Keeps t) : t.inbox = s.inbox := by
  simp only [Pipeline.inbox, cargo, keeps.rQueue, keeps.receiving]

/-- A step that keeps the messages goes on with the job, or takes one that is none of them. -/
theorem Explained.keeps {s t u : Pipeline ω} {rest : List Act} (explained : Explained chain events u t rest)
    (keeps : s.Keeps t) (acts : List Act) (goes : ∀ finished world, t.Finishes chain finished world →
      s.Finishes chain (acts ++ finished) world ∨
        acts = [] ∧ s.BetweenJobs ∧
          ∃ job, Job.messages [job] = [] ∧ (job = .event → events) ∧ JobDoes chain job s.world finished world) :
    Explained chain events u s (acts ++ rest) := by
  obtain ⟨finished, world, jobs, later, rfl, finishes, does, wanted, arrives⟩ := explained
  have arrives : ∀ taken, s.received = taken ++ s.inbox → u.received = taken ++ (Job.messages jobs ++ u.inbox) :=
    fun taken split => arrives taken (by rw [keeps.received, keeps.inbox, split])
  rcases goes finished world finishes with goes | ⟨rfl, between, job, silent, asked, first⟩
  · exact ⟨acts ++ finished, world, jobs, later, (List.append_assoc _ _ _).symm, goes, does, wanted, arrives⟩
  · refine ⟨[], s.world, job :: jobs, finished ++ later, rfl, (finishes_between between).mpr ⟨rfl, rfl⟩,
      .cons first does, fun member => ?_, ?_⟩
    · rcases List.mem_cons.mp member with here | behind
      · exact asked here.symm
      · exact wanted behind
    · cases job with
      | message => cases silent
      | start | event => exact arrives

/-- A step between jobs. -/
theorem Explained.between {s t u : Pipeline ω} {rest : List Act} (explained : Explained chain events u t rest) (keeps : s.Keeps t)
    (before : s.BetweenJobs) (behind : t.BetweenJobs) (world : t.world = s.world) : Explained chain events u s rest :=
  explained.keeps keeps [] fun finished last finishes => by
    rw [finishes_between behind, world] at finishes
    exact .inl ((finishes_between before).mpr finishes)

theorem between_processingAt {s : Pipeline ω} {pc : ProcessingPc} (start : ∀ ix, pc ≠ .startFiltra ix)
    (event : ∀ ix, pc ≠ .event ix) (walk : ∀ frames, pc ≠ .walk frames) : (s.processingAt pc).BetweenJobs :=
  between_at rfl start event walk

theorem between_caught (s : Pipeline ω) (e : Exn) {next : ProcessingPc} (start : ∀ ix, next ≠ .startFiltra ix)
    (event : ∀ ix, next ≠ .event ix) (walk : ∀ frames, next ≠ .walk frames) : (s.processingCaught e next).BetweenJobs := by
  unfold processingCaught
  split
  · exact between_processingAt start event walk
  · exact between_processingAt (by simp) (by simp) (by simp)

theorem processingCaught_world (s : Pipeline ω) (e : Exn) (next : ProcessingPc) :
    (s.processingCaught e next).world = s.world := by
  unfold processingCaught
  split <;> rfl

/-- The loop over `start()`. -/
theorem start_explained {queues : String → InternalQueue Message} {s t u : Pipeline ω} {ix : Nat}
    (here : s.processing.thread = some (.startFiltra ix)) (h : s.runProcessing chain queues (.startFiltra ix) = some t)
    {rest : List Act} (explained : Explained chain events u t rest) : Explained chain events u s rest := by
  have place (finished : List Act) (world : ω) :
      s.Finishes chain finished world ↔ finished = [] ∧ world = startAll (chain.drop ix) s.world := by
    simp only [Finishes, here]
  simp only [runProcessing] at h
  split at h
  case h_1 missing =>
    cases h
    refine explained.keeps (s := s) ⟨rfl, rfl, rfl⟩ [] fun finished world finishes => .inl ?_
    rw [finishes_between (between_processingAt (by simp) (by simp) (by simp))] at finishes
    rw [List.nil_append, place, drop_of_missing missing]
    exact finishes
  case h_2 filtra found =>
    split at h
    case h_1 world' started =>
      cases h
      refine explained.keeps (s := s) ⟨rfl, rfl, rfl⟩ [] fun finished world finishes => .inl ?_
      simp only [Finishes, processingAt] at finishes
      rw [List.nil_append, place, drop_of_found found, startAll, started]
      exact finishes
    case h_2 e world' started =>
      cases h
      refine explained.keeps (s := s) ⟨rfl, rfl, rfl⟩ [] fun finished world finishes => .inl ?_
      rw [finishes_between (between_processingAt (by simp) (by simp) (by simp))] at finishes
      rw [List.nil_append, place, drop_of_found found, startAll, started]
      exact finishes

/-- `process()`. -/
theorem event_explained {queues : String → InternalQueue Message} {s t u : Pipeline ω} {ix : Nat}
    (here : s.processing.thread = some (.event ix)) (h : s.runProcessing chain queues (.event ix) = some t)
    {rest : List Act} (explained : Explained chain events u t rest) : Explained chain events u s (s.processingActs chain ++ rest) := by
  have place (finished : List Act) (world : ω) :
      s.Finishes chain finished world ↔ (finished, world) = generateFirst ix (chain.drop ix) s.world := by
    simp only [Finishes, here]
  simp only [runProcessing] at h
  split at h
  case h_1 missing =>
    cases h
    have silent : s.processingActs chain = [] := by simp only [processingActs, here, missing]
    rw [silent]
    refine explained.keeps (s := s) ⟨rfl, rfl, rfl⟩ _ fun finished world finishes => .inl ?_
    rw [finishes_between (between_processingAt (by simp) (by simp) (by simp))] at finishes
    obtain ⟨rfl, rfl⟩ := finishes
    rw [List.nil_append, place, drop_of_missing missing]
    rfl
  case h_2 filtra found =>
    have acts : s.processingActs chain = Process.generated ix filtra s.world := by simp only [processingActs, here, found]
    rw [acts]
    split at h
    case h_1 msg world' generates =>
      cases h
      refine explained.keeps (s := s) ⟨rfl, rfl, rfl⟩ _ fun finished world finishes => .inl ?_
      simp only [place, drop_of_found found, generateFirst, generates, Process.generated]
      cases valid : msg.isValid with
      | true =>
        simp only [valid, if_true] at finishes ⊢
        rw [finishes_between (between_processingAt (by simp) (by simp) (by simp))] at finishes
        obtain ⟨rfl, rfl⟩ := finishes
        rfl
      | false =>
        simp only [valid, Bool.false_eq_true, if_false] at finishes ⊢
        exact finishes
    case h_2 e world' generates =>
      cases h
      refine explained.keeps (s := s) ?_ _ fun finished world finishes => .inl ?_
      · unfold processingCaught
        split <;> exact ⟨rfl, rfl, rfl⟩
      · rw [finishes_between (between_caught _ e (by simp) (by simp) (by simp)), processingCaught_world] at finishes
        obtain ⟨rfl, rfl⟩ := finishes
        simp only [place, drop_of_found found, generateFirst, generates, Process.generated]
        rfl

/-- `process(msg)`. -/
theorem walk_explained {queues : String → InternalQueue Message} {s t u : Pipeline ω} {frames : List Frame}
    (free : Undisturbed chain (.processing queues) s) (unlimited : s.Unlimited)
    (here : s.processing.thread = some (.walk frames)) (h : s.runProcessing chain queues (.walk frames) = some t)
    {rest : List Act} (explained : Explained chain events u t rest) : Explained chain events u s (s.processingActs chain ++ rest) := by
  have place (finished : List Act) (world : ω) :
      s.Finishes chain finished world ↔ StackDoes chain frames s.world finished world := by
    simp only [Finishes, here]
  have keeps : s.Keeps t := by
    simp only [runProcessing] at h
    split at h <;> cases h
    · unfold processingCaught
      split <;> exact ⟨rfl, rfl, rfl⟩
    · exact ⟨rfl, rfl, rfl⟩
    · exact ⟨rfl, rfl, rfl⟩
  refine explained.keeps (s := s) keeps _ fun finished world finishes => .inl ?_
  rw [place]
  cases frames with
  | nil =>
    have silent : s.processingActs chain = [] := by simp only [processingActs, here]
    rw [runProcessing, Walk.step_nil chain rfl] at h
    cases h
    rw [finishes_between (between_processingAt (by simp) (by simp) (by simp))] at finishes
    obtain ⟨rfl, rfl⟩ := finishes
    rw [silent]
    exact .nil _
  | cons f below =>
    have acts : s.processingActs chain = f.acts chain s.world := by simp only [processingActs, here]
    have free : f.Free chain (s.env queues) s.world := free queues rfl f below (by simp [cargo, here, ProcessingPc.frames])
    rw [acts]
    refine Process.walk_does (w := s.walkOf (f :: below)) rfl free rfl unlimited.sQueue ?_
    simp only [runProcessing] at h
    split at h <;> cases h
    case h_1 e escaped =>
      rw [finishes_between (between_caught _ e (by simp) (by simp) (by simp)), processingCaught_world] at finishes
      simp only [escaped]
      exact finishes
    case h_2 inside ended =>
      rw [finishes_between (between_processingAt (by simp) (by simp) (by simp))] at finishes
      obtain ⟨rfl, rfl⟩ := finishes
      simp only [inside, ended]
      exact .nil _
    case h_3 frames inside _ =>
      simp only [inside]
      exact finishes

/-- What is done for a message is what its call does. -/
theorem stackDoes_begin {source : Nat} {msg : Message} {world last : ω} {acts : List Act}
    (does : StackDoes chain [.begin source msg 0] world acts last) : JobDoes chain (.message msg) world acts last := by
  cases does with
  | returns top rest =>
    cases rest
    rw [List.append_nil]
    exact .message top
  | throws top => exact .message top

/-- A step of the processing thread goes on with the job that it is in, or it takes the next. -/
theorem processing_explained {queues : String → InternalQueue Message} {s t u : Pipeline ω} {pc : ProcessingPc}
    (free : Undisturbed chain (.processing queues) s) (unlimited : s.Unlimited) (wanted : s.eQueue.queue ≠ [] → events)
    (here : s.processing.thread = some pc) (h : s.runProcessing chain queues pc = some t) {rest : List Act}
    (explained : Explained chain events u t rest) : Explained chain events u s (s.processingActs chain ++ rest) := by
  have between {v : Pipeline ω} {next : ProcessingPc} (same : t = v.processingAt next) (keeps : s.Keeps t)
      (world : v.world = s.world) (before : s.BetweenJobs)
      (start : ∀ ix, next ≠ .startFiltra ix) (event : ∀ ix, next ≠ .event ix) (walk : ∀ frames, next ≠ .walk frames)
      (silent : s.processingActs chain = []) : Explained chain events u s (s.processingActs chain ++ rest) := by
    rw [silent]
    subst same
    exact explained.between keeps before (between_processingAt start event walk) world
  cases pc with
  | startFiltra ix =>
    have silent : s.processingActs chain = [] := by simp only [processingActs, here]
    rw [silent]
    exact start_explained here h explained
  | event ix => exact event_explained here h explained
  | walk frames => exact walk_explained free unlimited here h explained
  | blocked | done => cases h
  | begin =>
    have silent : s.processingActs chain = [] := by simp only [processingActs, here]
    cases h
    rw [silent]
    refine explained.keeps (s := s) ⟨rfl, rfl, rfl⟩ _ fun finished world finishes => .inr ⟨rfl, between_at here (by simp) (by simp) (by simp),
      .start, rfl, by rintro ⟨⟩, ?_⟩
    obtain ⟨rfl, rfl⟩ := finishes
    exact .start s.world
  | started | finish | wait =>
    have silent : s.processingActs chain = [] := by simp only [processingActs, here]
    cases h
    exact between rfl ⟨rfl, rfl, rfl⟩ rfl (between_at here (by simp) (by simp) (by simp)) (by simp) (by simp) (by simp) silent
  | loop | events | messages =>
    have silent : s.processingActs chain = [] := by simp only [processingActs, here]
    cases h
    refine between rfl ⟨rfl, rfl, rfl⟩ rfl (between_at here (by simp) (by simp) (by simp)) ?_ ?_ ?_ silent <;>
      split <;> simp
  | popEvent =>
    have silent : s.processingActs chain = [] := by simp only [processingActs, here]
    simp only [runProcessing] at h
    split at h <;> cases h
    case h_1 taken =>
      rw [silent]
      refine explained.keeps (s := s) ⟨rfl, rfl, rfl⟩ _ fun finished world finishes => .inr ⟨rfl, between_at here (by simp) (by simp) (by simp),
        .event, rfl, fun _ => wanted (by simp [TSQueue.pop_ok taken]), ?_⟩
      simp only [Finishes, processingAt, List.drop_zero, Prod.ext_iff] at finishes
      obtain ⟨rfl, rfl⟩ := finishes
      exact .event s.world
    case h_2 => exact between rfl ⟨rfl, rfl, rfl⟩ rfl (between_at here (by simp) (by simp) (by simp)) (by simp) (by simp) (by simp) silent
  | popMessage =>
    have silent : s.processingActs chain = [] := by simp only [processingActs, here]
    simp only [runProcessing] at h
    split at h <;> cases h
    case h_1 m rQueue taken =>
      rw [silent]
      obtain ⟨finished, world, jobs, later, rfl, finishes, does, asked, arrives⟩ := explained
      refine ⟨[], s.world, .message m.msg :: jobs, finished ++ later, rfl,
        (finishes_between (between_at here (by simp) (by simp) (by simp))).mpr ⟨rfl, rfl⟩,
        .cons (stackDoes_begin finishes) does, by simpa using asked, fun before split => ?_⟩
      have next := arrives (before ++ [m.msg])
      simp only [inbox, cargo, processingAt, TSQueue.pop_ok taken] at split next ⊢
      simpa [Job.messages] using next (by simpa using split)
    case h_2 =>
      exact between rfl ⟨rfl, rfl, rfl⟩ rfl (between_at here (by simp) (by simp) (by simp)) (by simp) (by simp) (by simp) silent

/-! ## Runs -/

theorem runReceiving_limit {s t : Pipeline ω} {call : Except Exn Message} {pc : ReceivingPc}
    (h : s.runReceiving call pc = some t) : t.rQueue.maxSize = s.rQueue.maxSize := by
  have caught (e : Exn) : (s.receivingCaught e).rQueue = s.rQueue := by
    unfold receivingCaught
    split <;> rfl
  cases pc with
  | receive => cases call <;> cases h <;> first | rfl | exact congrArg TSQueue.maxSize (caught _)
  | push m =>
    simp only [runReceiving] at h
    split at h
    case h_1 rQueue pushed =>
      cases h
      rw [TSQueue.push] at pushed
      split at pushed <;> cases pushed
      rfl
    case h_2 => cases h; exact congrArg TSQueue.maxSize (caught _)
  | connect | disconnect => cases call <;> cases h <;> rfl
  | connected => simp only [runReceiving] at h; split at h <;> cases h <;> rfl
  | notify => cases h; exact congrArg TSQueue.maxSize (notify_rest s).2.2.2.2.1
  | begin | loop | finish => cases h; rfl
  | done => cases h

theorem runProcessing_limit {queues : String → InternalQueue Message} {s t : Pipeline ω} {pc : ProcessingPc}
    (h : s.runProcessing chain queues pc = some t) : t.rQueue.maxSize = s.rQueue.maxSize := by
  have caught (s : Pipeline ω) (e : Exn) (next : ProcessingPc) : (s.processingCaught e next).rQueue = s.rQueue := by
    unfold processingCaught
    split <;> rfl
  cases pc with
  | startFiltra | event =>
    simp only [runProcessing] at h
    split at h
    · cases h; rfl
    · split at h <;> cases h <;> first | rfl | exact congrArg TSQueue.maxSize (caught _ _ _)
  | popEvent => simp only [runProcessing] at h; split at h <;> cases h <;> rfl
  | popMessage =>
    simp only [runProcessing] at h
    split at h <;> cases h
    case h_1 m rQueue taken => exact TSQueue.pop_maxSize taken
    case h_2 => rfl
  | walk =>
    simp only [runProcessing] at h
    split at h <;> cases h <;> first | rfl | exact congrArg TSQueue.maxSize (caught _ _ _)
  | begin | started | loop | events | messages | wait | finish => cases h; rfl
  | blocked | done => cases h

/-- The queues never get a limit. -/
theorem Unlimited.step {a : Action} {s t : Pipeline ω} (unlimited : s.Unlimited) (h : step chain a s = some t) :
    t.Unlimited where
  rQueue := by
    refine Eq.trans ?_ unlimited.rQueue
    have notified {u : Pipeline ω} (same : u.rQueue = s.notify.rQueue) : u.rQueue.maxSize = s.rQueue.maxSize :=
      congrArg TSQueue.maxSize (same.trans (notify_rest s).2.2.2.2.1)
    cases a with
    | execute cmd =>
      simp only [Pipeline.step] at h
      split at h
      · split at h <;> cases h <;> rfl
      · cases h
    | control call =>
      cases todo : s.control with
      | nil => simp only [Pipeline.step, todo] at h; cases h
      | cons i rest =>
        simp only [Pipeline.step, todo] at h
        exact congrArg TSQueue.maxSize (runControl_step h).rQueue
    | receiving call =>
      obtain ⟨pc, -, next⟩ := Option.bind_eq_some_iff.mp h
      exact runReceiving_limit next
    | processing queues =>
      obtain ⟨pc, -, next⟩ := Option.bind_eq_some_iff.mp h
      exact runProcessing_limit next
    | sending call =>
      obtain ⟨pc, -, next⟩ := Option.bind_eq_some_iff.mp h
      exact congrArg TSQueue.maxSize (runSending_step next).rQueue
    | timerPush => simp only [Pipeline.step] at h; split at h <;> cases h <;> rfl
    | timerNotify =>
      simp only [Pipeline.step] at h
      split at h <;> cases h
      exact notified rfl
    | wakeup => cases h; exact notified rfl
  sQueue := by
    obtain ⟨env, moves, -⟩ := step_moves h
    exact moves.limit.trans unlimited.sQueue

/-- A step puts its acts in front of what explains the rest of the run. -/
theorem explained_step {a : Action} {s t u : Pipeline ω} (free : Undisturbed chain a s) (unlimited : s.Unlimited)
    (wanted : s.eQueue.queue ≠ [] → events) (h : step chain a s = some t) {rest : List Act} (explained : Explained chain events u t rest) :
    Explained chain events u s (acts chain a s ++ rest) := by
  by_cases worker : ∃ queues, a = .processing queues
  · obtain ⟨queues, rfl⟩ := worker
    obtain ⟨pc, here, next⟩ := Option.bind_eq_some_iff.mp h
    exact processing_explained free unlimited wanted here next explained
  · have other : ∀ queues, a ≠ .processing queues := fun queues same => worker ⟨queues, same⟩
    have silent : acts chain a s = [] := by
      cases a with
      | processing queues => exact absurd rfl (other queues)
      | _ => rfl
    obtain ⟨new, received, inbox⟩ := other_delivered unlimited other h
    obtain ⟨finished, world, jobs, later, rfl, finishes, does, asked, arrives⟩ := explained
    rw [silent]
    refine ⟨finished, world, jobs, later, rfl, (other_finishes other h).mp finishes, does, asked, fun taken split => ?_⟩
    exact arrives taken (by rw [received, inbox, split, List.append_assoc])

variable (events) in
/-- A run is explained by the jobs that it did. -/
theorem explained_run {guard : Action → Pipeline ω → Prop} (undisturbed : ∀ a s, guard a s → Undisturbed chain a s)
    (inv : Pipeline ω → Prop) (wanted : ∀ s, inv s → s.eQueue.queue ≠ [] → events) {world : ω} {t : Pipeline ω}
    {trace : List Act} (run : Acted chain guard (prepared world) trace t) (start : inv (prepared world))
    (keep : ∀ a s u, guard a s → inv s → step chain a s = some u → inv u) (rest : t.BetweenJobs) :
    ∃ jobs, JobsDo chain jobs world trace t.world ∧ (Job.event ∈ jobs → events) ∧
      t.received = Job.messages jobs ++ t.inbox := by
  have settled : Explained chain events t (prepared world) (trace ++ []) := by
    have front : ∀ a s u, guard a s → s.Unlimited ∧ inv s → step chain a s = some u →
        (u.Unlimited ∧ inv u) ∧ ∀ rest, Explained chain events t u rest → Explained chain events t s (acts chain a s ++ rest) :=
      fun a s u met kept h => ⟨⟨kept.1.step h, keep a s u met kept.2 h⟩, fun rest =>
        explained_step (undisturbed a s met) kept.1 (wanted s kept.2) h⟩
    refine Lib.Trace.settle run ⟨⟨rfl, rfl⟩, start⟩ front fun _ => ?_
    exact ⟨[], t.world, [], [], rfl, (finishes_between rest).mpr ⟨rfl, rfl⟩, .nil _, nofun, fun taken split => split⟩
  obtain ⟨finished, next, jobs, later, same, finishes, does, asked, arrives⟩ := settled
  rw [finishes_between (between_none rfl)] at finishes
  obtain ⟨rfl, rfl⟩ := finishes
  rw [List.append_nil, List.nil_append] at same
  rw [same]
  exact ⟨jobs, does, asked, arrives [] rfl⟩

/-- **One machine.** In a run without a stop inside a call of `process` and without a full buffer, whatever
the threads, the commands, the timers and the connectors do in between, what the processing thread has
done at a time between two jobs is what the sequential machine does for the messages that were
received, one after the other, less those that still wait. -/
theorem sequential_run {world : ω} {t : Pipeline ω} {trace : List Act}
    (run : Acted chain (Undisturbed chain) (prepared world) trace t) (rest : t.BetweenJobs) :
    ∃ jobs, JobsDo chain jobs world trace t.world ∧ t.received = Job.messages jobs ++ t.inbox := by
  obtain ⟨jobs, does, -, arrives⟩ := explained_run True (fun _ _ => id) (fun _ => True) (fun _ _ _ => trivial)
    run trivial (fun _ _ _ _ _ _ => trivial) rest
  exact ⟨jobs, does, arrives⟩

/-! ## Two runs -/

theorem runReceiving_eQueue {s t : Pipeline ω} {call : Except Exn Message} {pc : ReceivingPc}
    (h : s.runReceiving call pc = some t) : t.eQueue = s.eQueue := by
  have caught (e : Exn) : (s.receivingCaught e).eQueue = s.eQueue := by
    unfold receivingCaught
    split <;> rfl
  cases pc with
  | receive => cases call <;> cases h <;> first | rfl | exact caught _
  | push m => simp only [runReceiving] at h; split at h <;> cases h <;> first | rfl | exact caught _
  | connect | disconnect => cases call <;> cases h <;> rfl
  | connected => simp only [runReceiving] at h; split at h <;> cases h <;> rfl
  | notify => cases h; exact (notify_rest s).2.2.2.2.2.1
  | begin | loop | finish => cases h; rfl
  | done => cases h

/-- Only a pop changes the event queue, and takes something from it. -/
theorem runProcessing_eQueue {queues : String → InternalQueue Message} {s t : Pipeline ω} {pc : ProcessingPc}
    (h : s.runProcessing chain queues pc = some t) : t.eQueue = s.eQueue ∨ s.eQueue.queue ≠ [] := by
  have caught (s : Pipeline ω) (e : Exn) (next : ProcessingPc) : (s.processingCaught e next).eQueue = s.eQueue := by
    unfold processingCaught
    split <;> rfl
  cases pc with
  | startFiltra | event =>
    simp only [runProcessing] at h
    split at h
    · cases h; exact .inl rfl
    · split at h <;> cases h <;> first | exact .inl rfl | exact .inl (caught _ _ _)
  | popEvent =>
    simp only [runProcessing] at h
    split at h <;> cases h
    case h_1 taken => exact .inr (by simp [TSQueue.pop_ok taken])
    case h_2 => exact .inl rfl
  | popMessage => simp only [runProcessing] at h; split at h <;> cases h <;> exact .inl rfl
  | walk =>
    simp only [runProcessing] at h
    split at h <;> cases h <;> first | exact .inl rfl | exact .inl (caught _ _ _)
  | begin | started | loop | events | messages | wait | finish => cases h; exact .inl rfl
  | blocked | done => cases h

/-- Without timers there are no events. -/
theorem eQueue_step {a : Action} {s t : Pipeline ω} (quiet : a ≠ .timerPush) (empty : s.eQueue.queue = [])
    (h : step chain a s = some t) : t.eQueue.queue = [] := by
  have kept (same : t.eQueue = s.eQueue) : t.eQueue.queue = [] := (congrArg TSQueue.queue same).trans empty
  cases a with
  | execute cmd =>
    simp only [step] at h
    split at h
    · split at h <;> cases h <;> exact kept rfl
    · cases h
  | control call =>
    cases todo : s.control with
    | nil => simp only [step, todo] at h; cases h
    | cons i rest =>
      simp only [step, todo] at h
      exact kept (runControl_step h).eQueue
  | receiving call =>
    obtain ⟨pc, -, next⟩ := Option.bind_eq_some_iff.mp h
    exact kept (runReceiving_eQueue next)
  | processing queues =>
    obtain ⟨pc, -, next⟩ := Option.bind_eq_some_iff.mp h
    rcases runProcessing_eQueue next with same | some
    · exact kept same
    · exact absurd empty some
  | sending call =>
    obtain ⟨pc, -, next⟩ := Option.bind_eq_some_iff.mp h
    exact kept (runSending_step next).eQueue
  | timerPush => exact absurd rfl quiet
  | timerNotify =>
    simp only [step] at h
    split at h <;> cases h
    exact kept (notify_rest s).2.2.2.2.2.1
  | wakeup => cases h; exact kept (notify_rest s).2.2.2.2.2.1

/-- Neither disturbs a call of `process` nor calls for one of `process()`. -/
def Timeless (chain : List (Filtra ω)) (a : Action) (s : Pipeline ω) : Prop := Undisturbed chain a s ∧ a ≠ .timerPush

theorem timeless_run (still : ∀ filtra ∈ chain, ∀ world, (filtra.start world).2 = world) {world : ω} {t : Pipeline ω}
    {trace : List Act} (run : Acted chain (Timeless chain) (prepared world) trace t) (rest : t.BetweenJobs) :
    ∃ taken, t.received = taken ++ t.inbox ∧ JobsDo chain (taken.map .message) world trace t.world := by
  obtain ⟨jobs, does, noEvent, arrives⟩ := explained_run False (fun _ _ => And.left)
    (fun s => s.eQueue.queue = []) (fun _ empty some => some empty) run rfl
    (fun _ _ _ timeless empty h => eQueue_step timeless.2 empty h) rest
  exact ⟨Job.messages jobs, arrives, does.messages still noEvent⟩

/-- **Interleaving.** Where `start()` leaves the filtras as they are and no timer runs, two such runs in which the
same messages were received and the same still wait come to the same acts and leave the filtras the
same, however their threads, commands and connectors were interleaved. -/
theorem interleaving_irrelevant (still : ∀ filtra ∈ chain, ∀ world, (filtra.start world).2 = world) {world : ω}
    {t u : Pipeline ω} {trace trace' : List Act} (run : Acted chain (Timeless chain) (prepared world) trace t)
    (run' : Acted chain (Timeless chain) (prepared world) trace' u) (rest : t.BetweenJobs) (rest' : u.BetweenJobs)
    (received : u.received = t.received) (waiting : u.inbox = t.inbox) : trace' = trace ∧ u.world = t.world := by
  obtain ⟨taken, split, does⟩ := timeless_run still run rest
  obtain ⟨taken', split', does'⟩ := timeless_run still run' rest'
  have same : taken' = taken := by
    rw [split', split, waiting] at received
    exact List.append_cancel_right received
  subst same
  exact does.unique does'

/-! ## A message that goes through -/

/-- The pipeline is active as long as a call goes on, and the call has nothing to redirect. -/
def Smooth (s : Pipeline ω) : Prop := ∀ f ∈ s.cargo.frames.head?, s.isActive = true ∧ f.pending.isEmpty = true

instance (s : Pipeline ω) : Decidable s.Smooth :=
  inferInstanceAs (Decidable (∀ f ∈ s.cargo.frames.head?, s.isActive = true ∧ f.pending.isEmpty = true))

theorem undisturbed_of_smooth {s : Pipeline ω} (smooth : s.Smooth) (a : Action) : Undisturbed chain a s := by
  intro queues _ f below top
  obtain ⟨active, silent⟩ := smooth f (by rw [top]; rfl)
  refine ⟨fun interrupted => ?_, fun queuid msg redirects => ?_⟩
  · cases active.symm.trans interrupted.2.2
  · have waits := Process.redirect_pending redirects
    rw [List.isEmpty_iff.mp silent] at waits
    exact absurd waits List.not_mem_nil

def Action.isTimerPush : Action → Bool
  | .timerPush => true
  | _ => false

theorem timeless_of_smooth (a : Action) (s : Pipeline ω) (smooth : s.Smooth ∧ a.isTimerPush = false) : Timeless chain a s := by
  refine ⟨undisturbed_of_smooth smooth.1 a, fun timer => ?_⟩
  rw [timer] at smooth
  cases smooth.2

/-- The run up to `afterOne`. -/
def oneThrough : List Action := startUp ++ receiveOne (.ofString [0x61] .raw) ++ sendOne

theorem oneThrough_smooth : Lib.Along (step [.plain, .plain]) (fun a s => s.Smooth ∧ a.isTimerPush = false) oneThrough
    (prepared ()) := by decide

theorem restarting_smooth : Lib.Along (step [.plain, .plain]) (fun _ s => s.Smooth) restarting (prepared ()) := by
  decide +kernel

theorem sequential_run_restarted :
    ∃ jobs, JobsDo [.plain, .plain] jobs ()
      (Lib.outputs (step [.plain, .plain]) (acts [.plain, .plain]) restarting (prepared ())) restarted.world ∧
      restarted.received = Job.messages jobs ++ restarted.inbox := by
  refine sequential_run (Lib.along_trace restarting (restarting_smooth.mono fun a s smooth => ?_) restarted_exec) ?_
  · exact undisturbed_of_smooth smooth a
  · have here : restarted.processing.thread = some .messages := rfl
    exact between_at here (by simp) (by simp) (by simp)

example : restarted.received.length = 2 ∧ restarted.inbox = [] := ⟨rfl, rfl⟩

/-- The message goes through while another START is handled, and the processing thread is woken twice. -/
def crossed : List Action :=
  startUp ++ receiveOne (.ofString [0x61] .raw) ++
    [.wakeup, .execute .start, .processing fun _ => {}, .control (.ok ()), .wakeup] ++
    List.replicate 7 (.processing fun _ => {}) ++ [.control (.ok ()), .receiving (.ok {})]

def afterCrossed : Pipeline Unit := (Lib.exec (step [.plain, .plain]) crossed (prepared ())).getD (prepared ())

theorem crossed_smooth : Lib.Along (step [.plain, .plain]) (fun a s => s.Smooth ∧ a.isTimerPush = false) crossed
    (prepared ()) := by decide

theorem interleaving_irrelevant_crossed :
    Lib.outputs (step [.plain, .plain]) (acts [.plain, .plain]) crossed (prepared ()) =
      Lib.outputs (step [.plain, .plain]) (acts [.plain, .plain]) oneThrough (prepared ()) ∧
    afterCrossed.world = afterOne.world := by
  have still : ∀ filtra ∈ [(.plain : Filtra Unit), .plain], ∀ world, (filtra.start world).2 = world := by simp
  have run : Acted [.plain, .plain] (Timeless [.plain, .plain]) (prepared ()) _ afterOne :=
    Lib.along_trace oneThrough (oneThrough_smooth.mono timeless_of_smooth) rfl
  have run' : Acted [.plain, .plain] (Timeless [.plain, .plain]) (prepared ()) _ afterCrossed :=
    Lib.along_trace crossed (crossed_smooth.mono timeless_of_smooth) rfl
  have rest : afterOne.processing.thread = some .messages ∧ afterOne.inbox = [] ∧
    afterOne.received = [.ofString [0x61] .raw] := ⟨rfl, rfl, rfl⟩
  have rest' : afterCrossed.processing.thread = some .messages ∧ afterCrossed.inbox = [] ∧
    afterCrossed.received = [.ofString [0x61] .raw] := ⟨rfl, rfl, rfl⟩
  have same := interleaving_irrelevant still run run' (between_at rest.1 (by simp) (by simp) (by simp))
    (between_at rest'.1 (by simp) (by simp) (by simp)) (rest'.2.2.trans rest.2.2.symm) (rest'.2.1.trans rest.2.1.symm)
  exact same

end Pipeline

end M2eBridge
